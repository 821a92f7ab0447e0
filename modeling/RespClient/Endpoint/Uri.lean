/-
Endpoints written as URIs: `tcp://password@host:port/?name=value&…` and `unix:///path?name=value&…`. The location gives
host, port, path and password; the pairs of the query are set on top of it, the last one of a field counting.
-/
import RespClient.Endpoint.Settings

namespace RespClient.Endpoint

/-- A host and a port from `host:port`, `host`, `[host]:port` or `[host]`. -/
def splitAuthority? (authority : List Char) : Option (List Char × Option (List Char)) :=
  match authority with
  | '[' :: rest =>
    match cutFirst? ']' rest with
    | none => none
    | some (host, []) => some (host, none)
    | some (host, ':' :: port) => some (host, some port)
    | some _ => none
  | _ =>
    match cutLast? ':' authority with
    | some (host, port) => some (host, some port)
    | none => some (authority, none)

/-- The password before the host: what follows the first colon, or all of it. -/
def passwordOf (userinfo : List Char) : List Char :=
  match cutFirst? ':' userinfo with
  | some (_, password) => password
  | none => userinfo

def textScalar (s : List Char) : Scalar := .text (String.ofList s)

/-- The settings that a network location gives. -/
def tcpSettings? (location : List Char) : Option Settings :=
  let authority := location.takeWhile (· != '/')
  let (password, address) := match cutLast? '@' authority with
    | some (userinfo, address) => (passwordOf userinfo, address)
    | none => ([], authority)
  match splitAuthority? address with
  | none | some ([], _) => none
  | some (host, port) =>
    let s : Settings := { scheme := some .tcp }
    let s := if password.isEmpty then s else s.set .password (textScalar password)
    let s := s.set .host (textScalar host)
    match port with
    | some port => some (s.set .port (textScalar port))
    | none => some s

/-- The settings that a socket's location gives: the path begins at the first slash. -/
def unixSettings? (location : List Char) : Option Settings :=
  match location.dropWhile (· != '/') with
  | [] => none
  | path => some (({ scheme := some .unix } : Settings).set .path (textScalar path))

/-- The settings with a pair `name=value` of a query; without `=` the value is empty. -/
def setPair (s : Settings) (pair : List Char) : Settings :=
  let (name, value) := (cutFirst? '=' pair).getD (pair, [])
  match Field.ofName? (String.ofList name) with
  | some field => s.set field (textScalar value)
  | none => s

/-- The settings with the pairs of a query. -/
def setQuery (s : Settings) (query : List Char) : Settings :=
  ((fields '&' query).filter (!·.isEmpty)).foldl setPair s

/-- What stands before and after `://`. -/
def splitScheme? : List Char → Option (List Char × List Char)
  | ':' :: '/' :: '/' :: rest => some ([], rest)
  | c :: cs => (splitScheme? cs).map fun (name, rest) => (c :: name, rest)
  | [] => none

/-- The settings that a URI writes. -/
def settingsOfUri (uri : String) : Except ClientError Settings :=
  match splitScheme? uri.toList with
  | none => .error (.invalidParameters (.invalidUri uri))
  | some (name, rest) =>
    (Scheme.ofName (String.ofList name)).bind fun scheme =>
      let (location, query) := match cutFirst? '?' rest with
        | some (location, query) => (location, query)
        | none => (rest, [])
      let settings? := match scheme with
        | .tcp => tcpSettings? location
        | .unix => unixSettings? location
      match settings? with
      | none => .error (.invalidParameters (.invalidUri uri))
      | some s => .ok (setQuery s query)

/-- The endpoint that a URI writes. -/
def ofUri (uri : String) : Except ClientError Endpoint := (settingsOfUri uri).bind Settings.resolve

end RespClient.Endpoint
