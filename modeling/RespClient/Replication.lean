/-
A replicated set: one master and its slaves. Commands that only read go to a slave until the first write; from then on
everything goes to the master, until `switchTo` or `disconnect`. Slaves are taken in turn.

Whether a command reads comes from its specification, unless a rule is given for its id.
-/
import RespClient.Connection

namespace RespClient

/-- Whether a command counts as reading: a fixed answer, or one that depends on its arguments. -/
inductive ReadRule where
  | always (reads : Bool)
  | decided (reads : Command → Bool)

namespace ReadRule

def holds (rule : ReadRule) (command : Command) : Bool :=
  match rule with
  | .always reads => reads
  | .decided reads => reads command

/-- The rule as shown to people. -/
def toText : ReadRule → String
  | .always true => "Always(true)"
  | .always false => "Always(false)"
  | .decided _ => "Predicate(..)"

end ReadRule

/-- A member's part in the set. -/
inductive Role where
  | master
  | slave (index : Nat)
  deriving DecidableEq

/-- The members of a set, the one in use, the turn of the slaves and the rules by command id. -/
structure Replication where
  master : Option Connection := none
  slaves : List Connection := []
  current : Option Role := none
  turn : Nat := 0
  rules : List (String × ReadRule) := []

namespace Replication

/-- The node id of the master. -/
def masterId : String := "master"

/-! ## Members -/

/-- A connection joins: as the master if that is its node id, else as a slave, in place of the slave with its node id. A
member that is replaced is no longer in use. -/
def add (r : Replication) (conn : Connection) : Replication :=
  if conn.nodeId = masterId then
    { r with master := some conn, current := if r.current = some .master then none else r.current }
  else
    match r.slaves.findIdx? (·.nodeId == conn.nodeId) with
    | some i =>
      { r with slaves := r.slaves.set i conn, current := if r.current = some (.slave i) then none else r.current }
    | none => { r with slaves := r.slaves ++ [conn] }

/-- The part of the member that a name stands for, the master first. -/
def find? (r : Replication) (name : String) : Option Role :=
  if r.master.any (·.answersTo name) then some .master
  else (r.slaves.findIdx? (·.answersTo name)).map .slave

/-- The part in use after slave `i` left. -/
def withoutSlave (i : Nat) : Option Role → Option Role
  | some (.slave j) => if j = i then none else if j > i then some (.slave (j - 1)) else some (.slave j)
  | role => role

def member? (r : Replication) : Role → Option Connection
  | .master => r.master
  | .slave i => r.slaves[i]?

/-- The member that a name stands for leaves. -/
def remove (r : Replication) (name : String) : Option Connection × Replication :=
  match r.find? name with
  | none => (none, r)
  | some .master =>
    (r.master, { r with master := none, current := if r.current = some .master then none else r.current })
  | some (.slave i) =>
    (r.slaves[i]?, { r with slaves := r.slaves.eraseIdx i, current := withoutSlave i r.current })

/-- The member in use. -/
def inUse (r : Replication) : Option Connection := r.current.bind r.member?

/-! ## Choosing a member -/

/-- A rule for the commands of an id. -/
def setRule (r : Replication) (id : String) (rule : ReadRule) : Replication :=
  let id := upperAscii id
  { r with rules := (id, rule) :: r.rules.filter (·.1 != id) }

/-- Whether a command only reads. -/
def reads (r : Replication) (command : Command) : Except ClientError Bool :=
  match r.rules.lookup command.id with
  | some rule => .ok (rule.holds command)
  | none =>
    match command.spec.access with
    | .read => .ok true
    | .write => .ok false
    | .unsupported => .error (.notSupported (.inReplication command.id))

/-- There is a master and a slave. -/
def isComplete (r : Replication) : Bool := r.master.isSome && !r.slaves.isEmpty

def membersMissing : ClientError := .configuration .membersMissing

/-- The slave whose turn it is, and the set with the turn passed on. -/
def pickSlave (r : Replication) : Nat × Replication :=
  let i := r.turn % max r.slaves.length 1
  (i, { r with turn := i + 1 })

/-- The part that is to serve a command, and the set with that part in use. -/
def choose (r : Replication) (command : Command) : Except ClientError Role × Replication :=
  if !r.isComplete then (.error membersMissing, r)
  else
    match r.reads command with
    | .error e => (.error e, r)
    | .ok false => (.ok .master, { r with current := some .master })
    | .ok true =>
      match r.current with
      | some role => (.ok role, r)
      | none =>
        let (i, r) := r.pickSlave
        (.ok (.slave i), { r with current := some (.slave i) })

/-- Makes the member that a name stands for the one in use. -/
def switchTo (r : Replication) (name : String) : Except ClientError Unit × Replication :=
  match r.find? name with
  | some role => (.ok (), { r with current := some role })
  | none => (.error (.configuration (.unknownAlias name)), r)

/-! ## Operations -/

/-- The set with a member changed. -/
def setMember (r : Replication) (role : Role) (conn : Connection) : Replication :=
  match role with
  | .master => { r with master := some conn }
  | .slave i => { r with slaves := r.slaves.set i conn }

/-- Runs an operation of one member. -/
def onMember {α : Type} (r : Replication) (role : Role) (op : Connection → Network → Outcome Connection α)
    (net : Network) : Outcome Replication α :=
  match r.member? role with
  | some conn => (op conn net).within (r.setMember role)
  | none => ⟨.error membersMissing, r, net⟩

/-- Runs an operation of the member that is to serve a command. -/
def route {α : Type} (command : Command) (op : Connection → Network → Outcome Connection α)
    (r : Replication) (net : Network) : Outcome Replication α :=
  match r.choose command with
  | (.ok role, r) => r.onMember role op net
  | (.error e, r) => ⟨.error e, r, net⟩

/-- Opens the member in use, or else the slave whose turn it is, which is in use once it is open. -/
def connect (r : Replication) (net : Network) : Outcome Replication Unit :=
  if !r.isComplete then ⟨.error membersMissing, r, net⟩
  else
    let (role, r) := match r.current with
      | some role => (role, r)
      | none =>
        let (i, r) := r.pickSlave
        (.slave i, r)
    (r.onMember role Connection.ensure net).andThen fun _ r net => ⟨.ok (), { r with current := some role }, net⟩

/-- Closes every member; none is in use. -/
def disconnect (r : Replication) : Replication :=
  { r with
    master := r.master.map Connection.disconnect
    slaves := r.slaves.map Connection.disconnect
    current := none }

def isConnected (r : Replication) : Bool := r.master.any (·.isConnected) || r.slaves.any (·.isConnected)

def write (command : Command) : Replication → Network → Outcome Replication Unit :=
  route command (Connection.write command)

def read (command : Command) : Replication → Network → Outcome Replication Reply := route command Connection.read

def execute (command : Command) : Replication → Network → Outcome Replication Reply :=
  route command (Connection.execute command)

/-- Runs a command on the member that a name stands for. -/
def executeOn (name : String) (command : Command) (r : Replication) (net : Network) : Outcome Replication Reply :=
  match r.find? name with
  | some role => r.onMember role (Connection.execute command) net
  | none => ⟨.error (.configuration (.unknownAlias name)), r, net⟩

end Replication

end RespClient
