/-
Loosely typed settings of an endpoint, as they come from URIs and configuration documents: each may be missing and each
is a truth value, an integer, a double or a text. `Settings.resolve` converts them one by one, in the order of the
fields, and checks that what the scheme needs is there.
-/
import RespClient.Endpoint
import RespClient.Numeral

namespace RespClient

/-- A loosely typed setting. -/
inductive Scalar where
  | bool (value : Bool)
  | int (value : Int)
  | float (value : Binary64)
  | text (value : String)
  deriving DecidableEq

namespace Scalar

def toText : Scalar → String
  | .bool true => "true"
  | .bool false => "false"
  | .int n => toString n
  | .float x => x.toText
  | .text s => s

/-- The error of a setting that its name does not admit. -/
def invalid (name value : String) : ClientError := .invalidParameters (.invalidValue value name)

/-- A text without the blanks around it. -/
def trimmed (s : String) : List Char := trimBlanks s.toList

/-- A number of seconds. -/
def toBinary64 (name : String) (v : Scalar) : Except ClientError Binary64 :=
  match v with
  | .int n => .ok (.ofInt n)
  | .float x => .ok x
  | .text s =>
    match Binary64.ofText? (Bytes.ofText (String.ofList (trimmed s))) with
    | some x => .ok x
    | none => .error (invalid name s)
  | .bool _ => .error (invalid name v.toText)

/-- An unsigned number of 64 bits. -/
def toNat (name : String) (v : Scalar) : Except ClientError Nat :=
  match v with
  | .text s =>
    match Numeral.unsigned? (Bytes.ofText (String.ofList (trimmed s))) with
    | some n => .ok n
    | none => .error (invalid name s)
  | .int n => if n ≥ 0 then .ok n.toNat else .error (invalid name v.toText)
  | _ => .error (invalid name v.toText)

/-- An unsigned number below `limit`. -/
def toNatBelow (limit : Nat) (name : String) (v : Scalar) : Except ClientError Nat :=
  (v.toNat name).bind fun n => if n < limit then .ok n else .error (invalid name (toString n))

/-- A truth value, or a number as whether it differs from zero, or one of the usual words. -/
def toBool (name : String) (v : Scalar) : Except ClientError Bool :=
  match v with
  | .bool b => .ok b
  | .int n => .ok (n != 0)
  | .float x => .ok (!x.isZero)
  | .text s =>
    let word := lowerAscii (String.ofList (trimmed s))
    if ["1", "true", "yes", "on"].contains word then .ok true
    else if ["", "0", "false", "no", "off"].contains word then .ok false
    else .error (invalid name s)

/-- A timeout in seconds. Numbers that are not finite or not positive mean that there is none. -/
def toTimeout (name : String) (v : Scalar) : Except ClientError (Option Timespan) :=
  (v.toBinary64 name).bind fun x =>
    if x.isFinite && x.isPositive then
      match Timespan.ofBinary64? x with
      | some t => .ok (some t)
      | none => .error (invalid name x.toText)
    else .ok none

end Scalar

/-- The fields that settings name, the scheme apart. -/
inductive Field where
  | host
  | port
  | path
  | timeout
  | readWriteTimeout
  | asyncConnect
  | persistent
  | tcpNodelay
  | database
  | password
  | label
  | weight
  deriving DecidableEq

/-- The field of a name; some fields have two. -/
def Field.ofName? (name : String) : Option Field :=
  if name = "host" then some .host
  else if name = "port" then some .port
  else if name = "path" then some .path
  else if name = "timeout" || name = "connection_timeout" then some .timeout
  else if name = "read_write_timeout" then some .readWriteTimeout
  else if name = "async_connect" || name = "connection_async" then some .asyncConnect
  else if name = "persistent" || name = "connection_persistent" then some .persistent
  else if name = "tcp_nodelay" then some .tcpNodelay
  else if name = "database" then some .database
  else if name = "password" then some .password
  else if name = "alias" then some .label
  else if name = "weight" then some .weight
  else none

/-- The settings of an endpoint, field by field. -/
structure Settings where
  scheme : Option Scheme := none
  value : Field → Option Scalar := fun _ => none

namespace Settings

/-- The settings with one field given. -/
def set (s : Settings) (field : Field) (v : Scalar) : Settings :=
  { s with value := fun f => if f = field then some v else s.value f }

/-- The conversion of a field, or the default where it is missing. -/
def given {α : Type} (s : Settings) (field : Field) (otherwise : α) (convert : Scalar → Except ClientError α) :
    Except ClientError α :=
  match s.value field with
  | some v => convert v
  | none => .ok otherwise

/-- The text of a field. -/
def text? (s : Settings) (field : Field) : Option String := (s.value field).map Scalar.toText

/-- The text of a field that counts as missing when it is empty. -/
def nonempty? (s : Settings) (field : Field) : Option String := (s.text? field).filter (· ≠ "")

/-- A socket needs a path and a network connection a host. -/
def check (e : Endpoint) : Except ClientError Endpoint :=
  match e.scheme with
  | .unix => if e.path.getD "" = "" then .error (.invalidParameters .pathMissing) else .ok e
  | .tcp => if e.host = "" then .error (.invalidParameters .hostMissing) else .ok e

/-- The endpoint that the settings describe. -/
def resolve (s : Settings) : Except ClientError Endpoint := do
  let base : Endpoint := {}
  let port ← s.given .port base.port fun v => (·.toUInt16) <$> v.toNatBelow UInt16.size "port"
  let timeout ← s.given .timeout base.timeout (·.toTimeout "timeout")
  let readWriteTimeout ← s.given .readWriteTimeout base.readWriteTimeout (·.toTimeout "read_write_timeout")
  let asyncConnect ← s.given .asyncConnect base.asyncConnect (·.toBool "async_connect")
  let persistent ← s.given .persistent base.persistent (·.toBool "persistent")
  let tcpNodelay ← s.given .tcpNodelay base.tcpNodelay (·.toBool "tcp_nodelay")
  let database ← s.given .database none fun v => (some ·.toUInt32) <$> v.toNatBelow UInt32.size "database"
  let weight ← s.given .weight none fun v => (some ·.toUInt32) <$> v.toNatBelow UInt32.size "weight"
  check {
    scheme := s.scheme.getD base.scheme
    host := (s.text? .host).getD base.host
    path := s.text? .path
    password := s.nonempty? .password
    label := s.nonempty? .label
    port, timeout, readWriteTimeout, asyncConnect, persistent, tcpNodelay, database, weight }

end Settings

end RespClient
