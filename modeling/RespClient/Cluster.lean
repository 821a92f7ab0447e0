/-
A cluster: servers that share the keys among them. A command goes to the member whose node owns its routing key on the
ring; a command without one is refused. Members are kept in order of insertion under their node ids, and the ring holds
the same ids with the weights of their endpoints.

A ring with a great many replicas can stop the program when a member joins or leaves (`add?`, `remove?`).
-/
import RespClient.Connection
import RespClient.Ring

namespace RespClient

/-- The members of a cluster and the ring that chooses among them. -/
structure Cluster where
  members : List (String × Connection) := []
  ring : Ring := .empty

namespace Cluster

/-- The members after a connection joined, in place of the one with its node id. -/
def joined (c : Cluster) (conn : Connection) : List (String × Connection) :=
  let id := conn.nodeId
  if c.members.any (·.1 == id) then c.members.map fun m => if m.1 == id then (id, conn) else m
  else c.members ++ [(id, conn)]

/-- A connection joins, in place of the member with its node id. -/
def add (c : Cluster) (conn : Connection) : Cluster :=
  { members := c.joined conn, ring := c.ring.add conn.nodeId (conn.endpoint.weight.map UInt32.toNat) }

/-- A connection joins, unless the ring stops the program. -/
def add? (c : Cluster) (conn : Connection) : Option Cluster :=
  (c.ring.add? conn.nodeId (conn.endpoint.weight.map UInt32.toNat)).map fun ring => { members := c.joined conn, ring }

/-- The member at a place. -/
def member (c : Cluster) (i : Fin c.members.length) : String × Connection := c.members[i]

/-- The place of the first member that a name stands for. -/
def find? (c : Cluster) (name : String) : Option (Fin c.members.length) :=
  c.members.findFinIdx? fun m => m.1 == name || m.2.identity == name

/-- The member that a name stands for leaves. -/
def remove (c : Cluster) (name : String) : Option Connection × Cluster :=
  match c.find? name with
  | none => (none, c)
  | some i =>
    (some (c.member i).2, { members := c.members.eraseIdx i, ring := c.ring.remove (c.member i).1 })

/-- The same, unless the ring stops the program. -/
def remove? (c : Cluster) (name : String) : Option (Option Connection × Cluster) :=
  match c.find? name with
  | none => some (none, c)
  | some i =>
    (c.ring.remove? (c.member i).1).map fun ring =>
      (some (c.member i).2, { members := c.members.eraseIdx i, ring })

/-- The place of the member that owns the routing key of the command `id`. -/
def locateKey (c : Cluster) (id : String) (key : Option Bytes) : Except ClientError (Fin c.members.length) :=
  match key with
  | none => .error (.notSupported (.overCluster id))
  | some key =>
    match c.ring.ownerOf key with
    | none => .error (.configuration .emptyCluster)
    | some node =>
      match c.members.findFinIdx? (·.1 == node) with
      | none => .error (.configuration (.unknownNode node))
      | some i => .ok i

/-- The place of the member that a command goes to. -/
def locate (c : Cluster) (command : Command) : Except ClientError (Fin c.members.length) :=
  c.locateKey command.id command.routingKey

/-- The same for a command that remembers its routing key, and the command afterwards. -/
def locateMemo (c : Cluster) (m : Command.Memo) : Except ClientError (Fin c.members.length) × Command.Memo :=
  (c.locateKey m.command.id m.routingKey.1, m.routingKey.2)

/-- Runs an operation of one member. -/
def onMember {α : Type} (c : Cluster) (i : Fin c.members.length)
    (op : Connection → Network → Outcome Connection α) (net : Network) : Outcome Cluster α :=
  let m := c.member i
  (op m.2 net).within fun conn => { c with members := c.members.set i (m.1, conn) }

/-- Runs an operation of the member that a command goes to. -/
def route {α : Type} (command : Command) (op : Connection → Network → Outcome Connection α)
    (c : Cluster) (net : Network) : Outcome Cluster α :=
  match c.locate command with
  | .ok i => c.onMember i op net
  | .error e => ⟨.error e, c, net⟩

/-! ## Operations -/

/-- Opens the members that are not open, in order. If one fails, those opened before it are closed again and those after
it are left alone. -/
def connectAll : List (String × Connection) → Network → Outcome (List (String × Connection)) Unit
  | [], net => ⟨.ok (), [], net⟩
  | m :: rest, net =>
    if m.2.isConnected then (connectAll rest net).within (m :: ·)
    else
      let o := m.2.connect net
      match o.result with
      | .error e => ⟨.error e, (m.1, o.state) :: rest, o.network⟩
      | .ok _ =>
        let later := connectAll rest o.network
        match later.result with
        | .ok _ => later.within ((m.1, o.state) :: ·)
        | .error _ => later.within ((m.1, o.state.disconnect) :: ·)

/-- Opens every member or, if one fails, none. -/
def connect (c : Cluster) (net : Network) : Outcome Cluster Unit :=
  (connectAll c.members net).within fun members => { c with members }

def disconnect (c : Cluster) : Cluster := { c with members := c.members.map fun m => (m.1, m.2.disconnect) }

def isConnected (c : Cluster) : Bool := c.members.any (·.2.isConnected)

def write (command : Command) : Cluster → Network → Outcome Cluster Unit := route command (Connection.write command)

def read (command : Command) : Cluster → Network → Outcome Cluster Reply := route command Connection.read

def execute (command : Command) : Cluster → Network → Outcome Cluster Reply :=
  route command (Connection.execute command)

/-- Runs a command on the member that a name stands for. -/
def executeOn (name : String) (command : Command) (c : Cluster) (net : Network) : Outcome Cluster Reply :=
  match c.find? name with
  | some i => c.onMember i (Connection.execute command) net
  | none => ⟨.error (.configuration (.unknownConnection name)), c, net⟩

end Cluster

end RespClient
