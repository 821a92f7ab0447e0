/-
A connection to one server. It opens its channel when first used, or by `connect`, and runs its setup commands there
before anything else. A channel that failed, or whose stream cannot be trusted any more, is dropped at once, so the next
use opens a new one.

`write` and `read` are the two halves of `execute`. An error reply is a reply like any other, except to a setup command.
-/
import RespClient.Outcome
import RespClient.Command
import RespClient.Endpoint

namespace RespClient

/-- A connection: its endpoint, the commands to run after opening, and the open channel if there is one. -/
structure Connection where
  endpoint : Endpoint
  setup : List Command := []
  channel : Option ChannelId := none
  /-- room for the frame to be written, taken again for every command -/
  buffer : Array UInt8 := #[]

namespace Connection

def identity (c : Connection) : String := c.endpoint.identity

def nodeId (c : Connection) : String := c.endpoint.nodeId

def isConnected (c : Connection) : Bool := c.channel.isSome

/-- The name given stands for this connection: its node id or its identity. -/
def answersTo (c : Connection) (name : String) : Bool := c.nodeId == name || c.identity == name

/-- Drops the channel. -/
def disconnect (c : Connection) : Connection := { c with channel := none }

/-- One more command to run after every opening. -/
def pushSetup (c : Connection) (command : Command) : Connection := { c with setup := c.setup ++ [command] }

/-! ## Opening -/

/-- Why the path of a socket cannot even be tried. -/
def pathFault? (path : String) : Option Fault :=
  if path.toList.contains '\x00' then some .nulInPath
  else if path.utf8ByteSize ≥ 108 then some .longPath
  else none

/-- Why the name of a host cannot even be looked up. -/
def hostFault? (host : String) : Option Fault := if host.toList.contains '\x00' then some .nulInHost else none

/-- Dials an address and sets the timeout for reading and writing, which must not be zero. -/
def dialAt (c : Connection) (a : Address) (net : Network) : Except Fault ChannelId × Network :=
  let (r, net) := net.dial a
  match r with
  | .error fault => (.error fault, net)
  | .ok id => if c.endpoint.readWriteTimeout = some ⟨0⟩ then (.error .zeroTimeout, net) else (.ok id, net)

/-- Opens a channel to the endpoint. A host that can be reached takes time to answer, which a zero timeout does not
leave; one that cannot be reached fails at once, whatever the timeout. -/
def dial (c : Connection) (net : Network) : Except Fault ChannelId × Network :=
  match c.endpoint.scheme with
  | .tcp =>
    match hostFault? c.endpoint.host with
    | some fault => (.error fault, net)
    | none =>
      let a : Address := .host c.endpoint.host c.endpoint.port
      if c.endpoint.timeout = some ⟨0⟩ && net.isReachable a then (.error .zeroTimeout, net) else c.dialAt a net
  | .unix =>
    let path := c.endpoint.path.getD ""
    match pathFault? path with
    | some fault => (.error fault, net)
    | none => c.dialAt (.socket (.ofText path)) net

/-! ## Reading and writing on the open channel -/

/-- The error with this connection's identity, for a fault of its transport. -/
def fault (c : Connection) (cause : CommunicationFault) : ClientError := .communication c.identity cause

/-- Puts the frame of a command into the buffer, in place of what is there. -/
def prepare (command : Command) (c : Connection) : Connection :=
  { c with buffer := Wire.appendRequest (c.buffer.take 0) (Bytes.ofText command.id) command.arguments }

/-- Writes a command to the open channel. -/
def writeOpen (command : Command) (c : Connection) (net : Network) : Outcome Connection Unit :=
  let c := c.prepare command
  match c.channel with
  | none => ⟨.error (c.fault .notOpen), c, net⟩
  | some id =>
    let (r, net) := net.deliver id c.buffer.toList
    match r with
    | .ok _ => ⟨.ok (), c, net⟩
    | .error fault => ⟨.error (c.fault (.writing fault)), c.disconnect, net⟩

/-- Reads a reply from the open channel. -/
def readOpen (c : Connection) (net : Network) : Outcome Connection Reply :=
  match c.channel with
  | none => ⟨.error (c.fault .notOpen), c, net⟩
  | some id =>
    let (r, net) := net.receive id
    match r with
    | .ok reply => ⟨.ok reply, c, net⟩
    | .error e => ⟨.error (.ofDecode c.identity e), c.disconnect, net⟩

/-- Writes a command and reads its reply. -/
def exchange (command : Command) (c : Connection) (net : Network) : Outcome Connection Reply :=
  (c.writeOpen command net).andThen fun _ c net => c.readOpen net

/-- Runs commands one by one, up to the first that fails or is answered by an error. -/
def runSetup : List Command → Connection → Network → Outcome Connection Unit
  | [], c, net => ⟨.ok (), c, net⟩
  | command :: commands, c, net =>
    (c.exchange command net).andThen fun reply c net =>
      match reply with
      | .error e => ⟨.error (.server e), c, net⟩
      | _ => runSetup commands c net

/-! ## Operations -/

/-- Opens the connection and runs its setup commands; if that fails, the channel is dropped again. -/
def connect (c : Connection) (net : Network) : Outcome Connection Unit :=
  if c.isConnected then ⟨.error (.alreadyConnected c.identity), c, net⟩
  else
    let (r, net) := c.dial net
    match r with
    | .error fault => ⟨.error (c.fault (.opening fault)), c, net⟩
    | .ok id =>
      let o := runSetup c.setup { c with channel := some id } net
      match o.result with
      | .ok _ => o
      | .error _ => o.within disconnect

/-- Opens the connection unless it is open. -/
def ensure (c : Connection) (net : Network) : Outcome Connection Unit :=
  if c.isConnected then ⟨.ok (), c, net⟩ else c.connect net

/-- Writes a command. -/
def write (command : Command) (c : Connection) (net : Network) : Outcome Connection Unit :=
  (c.ensure net).andThen fun _ c net => c.writeOpen command net

/-- Reads a reply. -/
def read (c : Connection) (net : Network) : Outcome Connection Reply :=
  (c.ensure net).andThen fun _ c net => c.readOpen net

/-- Writes a command and reads its reply. -/
def execute (command : Command) (c : Connection) (net : Network) : Outcome Connection Reply :=
  (c.write command net).andThen fun _ c net => c.read net

end Connection

end RespClient
