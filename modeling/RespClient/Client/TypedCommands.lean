/-
Everyday commands with results of their own types. A reply of another form is an unexpected response; an error reply is
always an error here, whatever the options say.
-/
import RespClient.Client

namespace RespClient

/-- What is known of a key's time to live. -/
inductive TimeToLive where
  | missing
  | unlimited
  | expiresIn (span : Timespan)
  deriving DecidableEq

/-- A script and the digest under which the server stores it. -/
structure Script.Stored where
  body : Bytes
  digest : String
  deriving DecidableEq

namespace Client

/-- The error of the command `id` that got this value instead of its own kind. -/
def unexpected (id : String) : Value → ClientError
  | .error e => .server e
  | _ => .unexpectedResponse id

/-- Calls a command and takes its value apart. -/
def callFor {α : Type} (id : String) (arguments : List Bytes) (take? : Value → Except ClientError α) (c : Client)
    (net : Network) : Outcome Client α :=
  (c.call id arguments net).refine take?

def takeStatus (id : String) : Value → Except ClientError Unit
  | .status _ => .ok ()
  | v => .error (unexpected id v)

def takeInt (id : String) : Value → Except ClientError Int
  | .int n => .ok n
  | v => .error (unexpected id v)

def takeBool (id : String) : Value → Except ClientError Bool
  | .bool b => .ok b
  | v => .error (unexpected id v)

/-- Octets, or nothing for nil. -/
def takeOctets? (id : String) : Value → Except ClientError (Option Bytes)
  | .data octets => .ok (some octets)
  | .nil => .ok none
  | v => .error (unexpected id v)

/-- The items of an array, each octets or nothing. -/
def takeItems (id : String) : Value → Except ClientError (List (Option Bytes))
  | .array items => items.mapM (takeOctets? id)
  | v => .error (unexpected id v)

/-- A field and its octets. -/
def takePair (id : String) : Bytes × Value → Except ClientError (Bytes × Bytes)
  | (field, .data octets) => .ok (field, octets)
  | (_, v) => .error (unexpected id v)

/-- The fields of a map with their octets. -/
def takePairs (id : String) : Value → Except ClientError (List (Bytes × Bytes))
  | .map pairs => pairs.mapM (takePair id)
  | v => .error (unexpected id v)

/-- The text of octets. -/
def takeText (id : String) : Value → Except ClientError String
  | .data octets => .ok (Utf8.decodeLossy octets)
  | v => .error (unexpected id v)

/-- The text of a status or of octets. -/
def takeAnswer (id : String) : Value → Except ClientError String
  | .status text => .ok text
  | v => takeText id v

/-- The time to live behind a number of seconds. -/
def takeTimeToLive (id : String) : Value → Except ClientError TimeToLive
  | .int n =>
    if n = -2 then .ok .missing
    else if n = -1 then .ok .unlimited
    else if n ≥ 0 then .ok (.expiresIn (.ofSeconds n.toNat))
    else .error (.unexpectedResponse id)
  | v => .error (unexpected id v)

/-- The digest of a stored script: octets that form a text. -/
def takeDigest (id : String) : Value → Except ClientError String
  | .data octets =>
    match Utf8.decode? octets with
    | some text => .ok text
    | none => .error (.unexpectedResponse id)
  | v => .error (unexpected id v)

/-! ## Commands -/

def ping : Client → Network → Outcome Client String := callFor "PING" [] (takeAnswer "PING")

def get (key : Bytes) : Client → Network → Outcome Client (Option Bytes) := callFor "GET" [key] (takeOctets? "GET")

def set (key value : Bytes) : Client → Network → Outcome Client Unit := callFor "SET" [key, value] (takeStatus "SET")

/-- Sets a value that expires after whole seconds, one at least. -/
def setWithTtl (key value : Bytes) (ttl : Timespan) : Client → Network → Outcome Client Unit :=
  callFor "SET" [key, value, Bytes.ofText "EX", Bytes.decimal (max ttl.wholeSeconds 1)] (takeStatus "SET")

/-- Deletes keys and counts those that were there. -/
def del (keys : List Bytes) : Client → Network → Outcome Client Int := callFor "DEL" keys (takeInt "DEL")

def exists? (key : Bytes) : Client → Network → Outcome Client Bool := callFor "EXISTS" [key] (takeBool "EXISTS")

/-- Lets a key expire after whole seconds. -/
def expire (key : Bytes) (ttl : Timespan) : Client → Network → Outcome Client Bool :=
  callFor "EXPIRE" [key, Bytes.decimal ttl.wholeSeconds] (takeBool "EXPIRE")

def ttl (key : Bytes) : Client → Network → Outcome Client TimeToLive := callFor "TTL" [key] (takeTimeToLive "TTL")

def incr (key : Bytes) : Client → Network → Outcome Client Int := callFor "INCR" [key] (takeInt "INCR")

/-- Several values at once. -/
def mget (keys : List Bytes) : Client → Network → Outcome Client (List (Option Bytes)) :=
  callFor "MGET" keys (takeItems "MGET")

/-- All fields of a hash in the order of the reply. -/
def hgetall (key : Bytes) : Client → Network → Outcome Client (List (Bytes × Bytes)) :=
  callFor "HGETALL" [key] (takePairs "HGETALL")

/-- The server's description of itself, or one section of it. -/
def info (part : Option String) : Client → Network → Outcome Client String :=
  callFor "INFO" (part.toList.map Bytes.ofText) (takeText "INFO")

def dbsize : Client → Network → Outcome Client Int := callFor "DBSIZE" [] (takeInt "DBSIZE")

/-! ## Scripts -/

/-- Stores a script at the server. -/
def loadScript (body : Bytes) : Client → Network → Outcome Client Script.Stored :=
  callFor "SCRIPT" [Bytes.ofText "LOAD", body] fun v => (takeDigest "SCRIPT" v).map fun digest => { body, digest }

/-- The invocation of a stored script, its keys in the client's namespace. -/
def invocation (script : Script.Stored) (keys args : List Bytes) (c : Client) : Except ClientError Command :=
  (c.create "EVALSHA" (Bytes.ofText script.digest :: Bytes.decimal keys.length :: keys ++ args)).map
    (·.withScript script.body)

/-- Invokes a stored script. -/
def evalScript (script : Script.Stored) (keys args : List Bytes) (c : Client) (net : Network) :
    Outcome Client Value :=
  match c.invocation script keys args with
  | .ok command => c.execute command net
  | .error e => ⟨.error e, c, net⟩

end Client

end RespClient
