/-
The benchmark workload: all keys are set once, then keys drawn by a generator are read, then keys drawn by another one
are set again. Each phase that completes is reported on one line; the first error ends the run.

The generator works on 64-bit words by three shifts and exclusive ors, so equal plans draw equal keys.
-/
import RespClient.Client.TypedCommands

namespace RespClient.Workload

/-! ## The generator -/

/-- The next state, which is also the number drawn. -/
def next (x : UInt64) : UInt64 :=
  let x := x ^^^ (x <<< 13)
  let x := x ^^^ (x >>> 7)
  x ^^^ (x <<< 17)

/-- An index below `len` from a number drawn. -/
def index (x : UInt64) (len : Nat) : Nat := x.toNat % len

def readSeed : UInt64 := 0x123456789ABCDEF0

def writeSeed : UInt64 := 0x0FEDCBA987654321

/-! ## Plans -/

/-- What to run. -/
structure Plan where
  endpoints : List Endpoint
  keys : Nat
  operations : Nat
  valueSize : Nat
  replication : Bool

/-- Why a run ends early. -/
inductive Failure where
  | parsing (uri : String) (cause : ClientError)
  | noServer
  | building (cause : ClientError)
  | connecting (cause : ClientError)
  | running (cause : ClientError)

def defaultUri : String := "tcp://127.0.0.1:6379"

/-- An optional count; anything but a number counts as missing. -/
def countOr (otherwise : Nat) (arg : Option String) : Nat :=
  (arg.bind fun s => Numeral.unsigned? (Bytes.ofText s)).getD otherwise

/-- The plan of a command line: URIs separated by commas, the number of keys, of operations, the size of values, and the
word for a replicated set. -/
def Plan.ofArguments (args : List String) : Except Failure Plan := do
  let uris := (fields ',' ((args[0]?).getD defaultUri).toList).filter (!·.isEmpty)
  let endpoints ← uris.mapM fun uri =>
    (Endpoint.ofUri (String.ofList uri)).mapError (.parsing (String.ofList uri))
  if endpoints.isEmpty then throw .noServer
  return {
    endpoints
    keys := max (countOr 4096 args[1]?) 1
    operations := countOr 100000 args[2]?
    valueSize := countOr 128 args[3]?
    replication := args[4]? == some "replication" }

/-! ## Running -/

/-- The name of the `i`-th key: eight digits at least. -/
def keyName (i : Nat) : Bytes :=
  let ds := Bytes.decimal i
  Bytes.ofText "bench:" ++ List.replicate (8 - ds.length) 48 ++ ds

/-- Runs an operation on each index. -/
def forEachIndex {α : Type} (op : Nat → Client → Network → Outcome Client α) :
    List Nat → Client → Network → Outcome Client Unit
  | [], c, net => ⟨.ok (), c, net⟩
  | i :: is, c, net =>
    match op i c net with
    | ⟨.error e, c, net⟩ => ⟨.error e, c, net⟩
    | ⟨.ok _, c, net⟩ => forEachIndex op is c net

/-- Runs an operation on so many drawn indexes. -/
def forDrawn {α : Type} (keys : Nat) (op : Nat → Client → Network → Outcome Client α) :
    (count : Nat) → UInt64 → Client → Network → Outcome Client Unit
  | 0, _, c, net => ⟨.ok (), c, net⟩
  | count + 1, x, c, net =>
    let x := next x
    match op (index x keys) c net with
    | ⟨.error e, c, net⟩ => ⟨.error e, c, net⟩
    | ⟨.ok _, c, net⟩ => forDrawn keys op count x c net

/-- A run: the phases completed with their numbers of operations, why it ended early if it did, and the network. -/
structure Report where
  phases : List (String × Nat)
  failure : Option Failure
  network : Network

/-- The three phases, with the names they are reported under. -/
def phases (plan : Plan) : List (String × Nat × (Client → Network → Outcome Client Unit)) :=
  let value := List.replicate plan.valueSize 120
  let put (i : Nat) := Client.set (keyName i) value
  [("SET (load)", plan.keys, forEachIndex put (List.range plan.keys)),
    ("GET", plan.operations, forDrawn plan.keys (fun i => Client.get (keyName i)) plan.operations readSeed),
    ("SET", plan.operations, forDrawn plan.keys put plan.operations writeSeed)]

/-- Runs phases one after the other, up to the first error. -/
def runPhases : List (String × Nat × (Client → Network → Outcome Client Unit)) → Client → Network → Report
  | [], _, net => { phases := [], failure := none, network := net }
  | (name, count, phase) :: rest, c, net =>
    let o := phase c net
    match o.result with
    | .error e => { phases := [], failure := some (.running e), network := o.network }
    | .ok _ =>
      let r := runPhases rest o.state o.network
      { r with phases := (name, count) :: r.phases }

/-- Runs a plan. -/
def Plan.run (plan : Plan) (net : Network) : Report :=
  match Client.forEndpoints plan.endpoints { replication := plan.replication } with
  | .error e => { phases := [], failure := some (.building e), network := net }
  | .ok c =>
    let o := c.connect net
    match o.result with
    | .error e => { phases := [], failure := some (.connecting e), network := o.network }
    | .ok _ => runPhases (phases plan) o.state o.network

/-- Runs the plan of a command line. -/
def run (args : List String) (net : Network) : Report :=
  match Plan.ofArguments args with
  | .error f => { phases := [], failure := some f, network := net }
  | .ok plan => plan.run net

/-! ## Reporting -/

/-- The line of a completed phase. -/
def phaseLine (phase : String × Nat) : String := s!"{phase.1}: {phase.2} ops"

namespace Failure

def message : Failure → String
  | .parsing uri _ => s!"parsing {uri}"
  | .noServer => "at least one server URI is required"
  | .building _ => "building client"
  | .connecting _ => "connecting"
  | .running cause => cause.message

/-- What lies beneath the message, outermost first. -/
def causes : Failure → List String
  | .parsing _ cause | .building cause | .connecting cause => cause.message :: cause.causes
  | .noServer => []
  | .running cause => cause.causes

/-- A cause in an indented block, its further lines indented as far as its text. -/
def block (lead : String) (cause : String) : String :=
  let margin := "\n" ++ String.ofList (List.replicate lead.length ' ')
  "\n" ++ lead ++ margin.intercalate ((fields '\n' cause.toList).map String.ofList)

/-- The message and its causes, numbered when there are several. -/
def report (f : Failure) : String :=
  let body := match f.causes with
    | [] => ""
    | [cause] => "\n\nCaused by:" ++ block "    " cause
    | causes => "\n\nCaused by:" ++ String.join (causes.mapIdx fun i cause => block s!"    {i}: " cause)
  "Error: " ++ f.message ++ body ++ "\n"

end Failure

end RespClient.Workload
