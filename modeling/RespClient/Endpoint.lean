/-
Endpoints: where a server listens and how to talk to it.

- `identity` names the place, `nodeId` the member of a topology: the alias if there is one.
- `toUri` writes the identity and every option that differs from the default, the password left out.
-/
import RespClient.Timespan
import RespClient.Decimal
import RespClient.Fault
import RespClient.Blank

namespace RespClient

/-- The kind of transport. -/
inductive Scheme where
  | tcp
  | unix
  deriving DecidableEq, Inhabited

namespace Scheme

def name : Scheme → String
  | .tcp => "tcp"
  | .unix => "unix"

/-- The scheme under one of its names, in any case. -/
def ofName (name : String) : Except ClientError Scheme :=
  let lower := lowerAscii name
  if lower = "tcp" || lower = "redis" then .ok .tcp
  else if lower = "unix" then .ok .unix
  else .error (.invalidParameters (.unsupportedScheme lower))

end Scheme

/-- A server and the options of its connection. No timeout waits for ever. -/
structure Endpoint where
  scheme : Scheme := .tcp
  host : String := "127.0.0.1"
  port : UInt16 := 6379
  path : Option String := none
  timeout : Option Timespan := some (.ofSeconds 5)
  readWriteTimeout : Option Timespan := none
  asyncConnect : Bool := false
  persistent : Bool := false
  tcpNodelay : Bool := true
  database : Option UInt32 := none
  password : Option String := none
  /-- the alias: a name within a topology -/
  label : Option String := none
  weight : Option UInt32 := none
  deriving DecidableEq, Inhabited

namespace Endpoint

/-- A host with a colon in it stands in brackets. -/
def authority (e : Endpoint) : String :=
  if e.host.toList.contains ':' then s!"[{e.host}]:{e.port}" else s!"{e.host}:{e.port}"

/-- The place of the server. -/
def identity (e : Endpoint) : String :=
  match e.scheme with
  | .tcp => "tcp://" ++ e.authority
  | .unix => "unix://" ++ e.path.getD ""

/-- The name of the server within a topology. -/
def nodeId (e : Endpoint) : String := e.label.getD e.identity

/-! ## Written form -/

/-- A timeout in seconds; none is zero. -/
def showTimeout : Option Timespan → String
  | some t => t.toBinary64.toText
  | none => "0"

/-- The options that differ from the default, with their names. -/
def options (e : Endpoint) : List (String × String) :=
  (if e.timeout = some (.ofSeconds 5) then [] else [("timeout", showTimeout e.timeout)])
    ++ (if e.readWriteTimeout.isSome then [("read_write_timeout", showTimeout e.readWriteTimeout)] else [])
    ++ (if e.asyncConnect then [("async_connect", "1")] else [])
    ++ (if e.persistent then [("persistent", "1")] else [])
    ++ (if e.tcpNodelay then [] else [("tcp_nodelay", "0")])
    ++ e.database.toList.map (fun n => ("database", toString n))
    ++ e.label.toList.map (fun name => ("alias", name))
    ++ e.weight.toList.map (fun n => ("weight", toString n))

/-- The URI of the endpoint without its password. -/
def toUri (e : Endpoint) : String :=
  let pairs := e.options.map fun (name, value) => s!"{name}={value}"
  if pairs.isEmpty then e.identity
  else
    let mark := match e.scheme with
      | .tcp => "/?"
      | .unix => "?"
    e.identity ++ mark ++ String.intercalate "&" pairs

end Endpoint

end RespClient
