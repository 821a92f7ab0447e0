/-
Endpoints in configuration documents: an object with an entry for each setting, or a list of the settings in order.
Unknown entries are ignored, null means missing, and a setting must not be given twice, not even under two names.

- `Settings.ofDocument?` is nothing for a document of another form.
- `Endpoint.ofDocument` tells a document that cannot be read from one whose settings are wrong.
-/
import RespClient.Document
import RespClient.Endpoint.Settings

namespace RespClient

/-- The scalar of a document, null being none; lists and objects are no scalars. -/
def Scalar.ofDocument? : Document → Option (Option Scalar)
  | .null => some none
  | .bool b => some (some (.bool b))
  | .number numeral =>
    match Number.read (Bytes.ofText numeral) with
    | .int n => some (some (if n < Numeral.signedBound then .int n else .float (.ofInt n)))
    | .float x => some (some (.float x))
  | .text s => some (some (.text s))
  | .list _ | .object _ => none

/-- The scheme of a document, null being none: its exact name, or an object with that name and null. -/
def Scheme.ofDocument? : Document → Option (Option Scheme)
  | .null => some none
  | .text "tcp" | .object [("tcp", .null)] => some (some .tcp)
  | .text "unix" | .object [("unix", .null)] => some (some .unix)
  | _ => none

namespace Settings

/-- A place among the settings: the scheme or a field. -/
inductive Place where
  | scheme
  | field (f : Field)
  deriving DecidableEq

def Place.ofName? (name : String) : Option Place :=
  if name = "scheme" then some .scheme else (Field.ofName? name).map .field

/-- The order of settings in a list. -/
def order : List Place := [
  .scheme, .field .host, .field .port, .field .path, .field .timeout, .field .readWriteTimeout, .field .asyncConnect,
  .field .persistent, .field .tcpNodelay, .field .database, .field .password, .field .label, .field .weight]

/-- The settings with a document put in a place. -/
def put? (s : Settings) (place : Place) (d : Document) : Option Settings :=
  match place with
  | .scheme => (Scheme.ofDocument? d).map fun v => { s with scheme := v }
  | .field f => (Scalar.ofDocument? d).map fun
    | some v => s.set f v
    | none => s

/-- The settings of a document. -/
def ofDocument? (d : Document) : Option Settings :=
  let put (s : Settings) (entry : Place × Document) : Option Settings := s.put? entry.1 entry.2
  match d with
  | .object entries =>
    let known := entries.filterMap fun (name, d) => (Place.ofName? name).map (·, d)
    if (known.map (·.1)).eraseDups.length = known.length then known.foldlM put {} else none
  | .list items => if items.length ≤ order.length then (order.zip items).foldlM put {} else none
  | _ => none

end Settings

/-- Why a configuration document gives no endpoint. -/
inductive ConfigError where
  | unreadable
  | invalid (cause : ClientError)
  deriving DecidableEq

/-- The endpoint of a configuration document. -/
def Endpoint.ofDocument (d : Document) : Except ConfigError Endpoint :=
  match Settings.ofDocument? d with
  | none => .error .unreadable
  | some s => s.resolve.mapError .invalid

end RespClient
