/-
The network that connections talk through. A peer sits at an address. What its k-th connection brings is decided
beforehand, and so without regard to what it receives: either opening fails, or the peer sends some octets and then ends
the stream or lets it break, and takes so many frames before writing to it fails.

A channel is one open connection seen from outside: the octets not yet read, and the frames written to it. Everything a
client does to the outside world is one of `dial`, `deliver` and `receive`, so a theorem that holds for every network
holds for every behaviour of the peers.
-/
import RespClient.SocketPath
import RespClient.Wire.Replies

namespace RespClient

/-- Where a peer listens. -/
inductive Address where
  | socket (path : SocketPath)
  | host (name : String) (port : UInt16)
  deriving DecidableEq

/-- What one connection brings. -/
structure Script where
  octets : Bytes
  ending : Wire.Ending := .closed
  /-- frames taken before writing fails; none takes all -/
  writable : Option Nat := none

/-- How an attempt to connect goes. -/
inductive Opening where
  | refused (fault : Fault)
  | accepted (script : Script)

/-- An open connection: what the peer sent and is not yet read, and the frames it received, newest first. -/
structure Channel where
  unread : Bytes
  ending : Wire.Ending
  writable : Option Nat
  received : List Bytes := []

/-- A peer: how the attempts to come will go, how all later ones go, and the channels opened so far. -/
structure Peer where
  coming : List Opening
  later : Opening := .accepted { octets := [] }
  channels : List Channel := []

/-- The peers of a network by address. -/
structure Network where
  peers : List (Address × Peer)

/-- A channel's address and number. -/
structure ChannelId where
  address : Address
  number : Nat
  deriving DecidableEq

/-! ## Channels -/

namespace Channel

def ofScript (s : Script) : Channel := { unread := s.octets, ending := s.ending, writable := s.writable }

/-- Writes a frame, whole or not at all. -/
def deliver (ch : Channel) (frame : Bytes) : Except Fault Unit × Channel :=
  match ch.writable with
  | some 0 => (.error .brokenPipe, ch)
  | some (n + 1) => (.ok (), { ch with received := frame :: ch.received, writable := some n })
  | none => (.ok (), { ch with received := frame :: ch.received })

/-- Reads a reply. -/
def receive (ch : Channel) : Except DecodeError Reply × Channel :=
  let (r, rest) := Wire.reply ch.ending ch.unread
  (r, { ch with unread := rest })

/-- The peer goes away: what it sent can still be read, and writing fails from now on. -/
def abandon (ch : Channel) : Channel := { ch with ending := .closed, writable := some 0 }

/-- The octets received. -/
def log (ch : Channel) : Bytes := ch.received.reverse.flatten

end Channel

/-! ## Peers -/

namespace Peer

/-- Takes the next attempt to connect: the number of the new channel, or why there is none. -/
def accept (p : Peer) : Except Fault Nat × Peer :=
  let next := { p with coming := p.coming.drop 1 }
  match p.coming.headD p.later with
  | .refused fault => (.error fault, next)
  | .accepted script => (.ok p.channels.length, { next with channels := p.channels ++ [.ofScript script] })

end Peer

namespace Network

/-- A peer's socket stands on a path. -/
def hasSocketOn (net : Network) (path : SocketPath) : Bool :=
  net.peers.any fun (a, _) =>
    match a with
    | .socket place => path.leadsThrough place
    | .host .. => false

/-- How connecting to an address without a peer fails: a directory refuses, a socket is no directory to go on from, and
nothing else is there. -/
def nobody (net : Network) : Address → Fault
  | .socket path =>
    if path.isUpward then .refused else if net.hasSocketOn path then .notDirectory else .noSuchFile
  | .host .. => .unreachable

def peer? (net : Network) (a : Address) : Option Peer := net.peers.lookup a

/-- A peer sits at the address. -/
def isReachable (net : Network) (a : Address) : Bool := (net.peer? a).isSome

/-- The network with the peer at an address replaced. -/
def setPeer (net : Network) (a : Address) (p : Peer) : Network :=
  ⟨net.peers.map fun q => if q.1 == a then (a, p) else q⟩

/-- Connects to an address. -/
def dial (net : Network) (a : Address) : Except Fault ChannelId × Network :=
  match net.peer? a with
  | none => (.error (net.nobody a), net)
  | some p =>
    let (r, p) := p.accept
    (r.map (⟨a, ·⟩), net.setPeer a p)

def channel? (net : Network) (id : ChannelId) : Option Channel :=
  (net.peer? id.address).bind (·.channels[id.number]?)

/-- The network with one channel replaced. -/
def setChannel (net : Network) (id : ChannelId) (ch : Channel) : Network :=
  match net.peer? id.address with
  | none => net
  | some p => net.setPeer id.address { p with channels := p.channels.set id.number ch }

/-- Writes a frame to a channel. -/
def deliver (net : Network) (id : ChannelId) (frame : Bytes) : Except Fault Unit × Network :=
  match net.channel? id with
  | none => (.error .brokenPipe, net)
  | some ch =>
    let (r, ch) := ch.deliver frame
    (r, net.setChannel id ch)

/-- Reads a reply from a channel. -/
def receive (net : Network) (id : ChannelId) : Except DecodeError Reply × Network :=
  match net.channel? id with
  | none => (.error .connectionClosed, net)
  | some ch =>
    let (r, ch) := ch.receive
    (r, net.setChannel id ch)

/-- The peer of a channel goes away. -/
def abandon (net : Network) (id : ChannelId) : Network :=
  match net.channel? id with
  | none => net
  | some ch => net.setChannel id ch.abandon

/-- What the connections of the peer at an address received, in order. -/
def log (net : Network) (a : Address) : List Bytes :=
  match net.peer? a with
  | none => []
  | some p => p.channels.map Channel.log

end Network

end RespClient
