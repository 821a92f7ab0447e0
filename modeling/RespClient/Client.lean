/-
The client: a topology, a catalogue, options and the namespace of the keys. It builds commands, sends them where they
belong and turns replies into values.

- A command whose connection was lost is sent once more, if the options say so.
- When a script is not stored at the server, the command is sent as an evaluation of the script's body instead.
- Error replies become errors or error values, as the options say.
-/
import RespClient.Client.Options
import RespClient.Endpoint.Uri
import RespClient.KeyPrefix
import RespClient.Topology

namespace RespClient

/-- A client. -/
structure Client where
  topology : Topology
  catalogue : Catalogue := .standard
  options : Options := {}

namespace Client

/-! ## Building -/

/-- A client of the given endpoints: a single server if there is one, else a cluster, or a replicated set of any number
if the options say so. -/
def forEndpoints (es : List Endpoint) (options : Options) : Except ClientError Client := do
  let topology ← match es with
    | [] => .error (.invalidParameters .noEndpoint)
    | e :: others =>
      if options.replication then .replication <$> Replication.forEndpoints .standard es
      else if others.isEmpty then .single <$> Connection.forEndpoint .standard e
      else .cluster <$> Cluster.forEndpoints .standard es
  return { topology, options }

/-- A client of the endpoint that a URI writes. -/
def forUri (uri : String) : Except ClientError Client := do forEndpoints [← Endpoint.ofUri uri] {}

/-- The namespace of the keys, if the options give one that is not empty. -/
def keyPrefix? (c : Client) : Option KeyPrefix :=
  match c.options.keyPrefix with
  | none | some "" => none
  | some s => some ⟨Bytes.ofText s⟩

def define (c : Client) (spec : CommandSpec) : Client := { c with catalogue := c.catalogue.define spec }

/-- A command of the catalogue with its keys in the client's namespace. -/
def create (c : Client) (id : String) (arguments : List Bytes) : Except ClientError Command :=
  (c.catalogue.create id arguments).map fun command =>
    match c.keyPrefix? with
    | some p => p.apply command
    | none => command

/-! ## Connecting -/

def setTopology (c : Client) (topology : Topology) : Client := { c with topology }

def connect (c : Client) (net : Network) : Outcome Client Unit := (c.topology.connect net).within c.setTopology

def disconnect (c : Client) : Client := c.setTopology c.topology.disconnect

def isConnected (c : Client) : Bool := c.topology.isConnected

/-! ## Executing -/

/-- Sends a command where it belongs, or to the member named, and reads its reply. -/
def roundTrip (target : Option String) (command : Command) (c : Client) (net : Network) : Outcome Client Reply :=
  match target with
  | some name => (c.topology.executeOn name command net).within c.setTopology
  | none => (c.topology.execute command net).within c.setTopology

/-- The same, and once more if the connection was lost and the options ask for it. -/
def dispatch (target : Option String) (command : Command) (c : Client) (net : Network) : Outcome Client Reply :=
  let o := c.roundTrip target command net
  match o.result with
  | .error e => if e.resets && c.options.retry then o.state.roundTrip target command o.network else o
  | .ok _ => o

/-- What becomes of an error reply. -/
def raise (c : Client) (e : ErrorReply) : Except ClientError Value :=
  if c.options.exceptions then .error (.server e) else .ok (.error e)

/-- What becomes of a reply. -/
def present (c : Client) (command : Command) (reply : Reply) : Except ClientError Value :=
  match reply with
  | .error e => c.raise e
  | reply => command.readReply reply

/-- The arguments to evaluate a script afresh, when the reply says that it is not stored. -/
def fallback? (command : Command) (reply : Reply) : Option (List Bytes) :=
  match reply with
  | .error e => if e.category = some "NOSCRIPT" then command.evalArguments else none
  | _ => none

/-- Goes on from the reply to a command: evaluates its script afresh if need be, else presents the reply. -/
def settle (target : Option String) (command : Command) (reply : Reply) (c : Client) (net : Network) :
    Outcome Client Value :=
  match fallback? command reply with
  | none => ⟨c.present command reply, c, net⟩
  | some arguments =>
    match c.catalogue.create "EVAL" arguments with
    | .error e => ⟨.error e, c, net⟩
    | .ok eval =>
      (c.dispatch target eval net).andThen fun reply c net => ⟨c.present eval reply, c, net⟩

/-- Executes a command, where it belongs or at the member named. -/
def run (target : Option String) (command : Command) (c : Client) (net : Network) : Outcome Client Value :=
  (c.dispatch target command net).andThen fun reply c net => c.settle target command reply net

/-- Executes a command where it belongs. -/
def execute (command : Command) : Client → Network → Outcome Client Value := run none command

/-- Executes a command at the member that a name stands for. -/
def executeOn (name : String) (command : Command) : Client → Network → Outcome Client Value := run (some name) command

/-- Builds a command and executes it. -/
def call (id : String) (arguments : List Bytes) (c : Client) (net : Network) : Outcome Client Value :=
  match c.create id arguments with
  | .ok command => c.execute command net
  | .error e => ⟨.error e, c, net⟩

end Client

end RespClient
