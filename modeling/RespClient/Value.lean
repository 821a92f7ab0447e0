/-
What a command hands back: its reply, reshaped as the command declares (`ReplyShape`). An error reply stays an error
value under every shape; a reply that does not fit the shape is an unexpected response.
-/
import RespClient.Fault
import RespClient.Decimal
import RespClient.Utf8

namespace RespClient

/-- The result of a command. -/
inductive Value where
  | nil
  | status (text : String)
  | int (value : Int)
  | bool (value : Bool)
  | float (value : Binary64)
  | data (octets : Bytes)
  | array (items : List Value)
  /-- fields and values in the order of the reply -/
  | map (pairs : List (Bytes × Value))
  | error (reply : ErrorReply)
  deriving Inhabited

namespace Value

mutual
/-- A reply as it came. -/
def ofReply : Reply → Value
  | .status text => .status text
  | .error reply => .error reply
  | .integer n => .int n
  | .bulk payload => .data payload
  | .array items => .array (ofReplies items)
  | .nil => .nil

def ofReplies : List Reply → List Value
  | [] => []
  | r :: rs => ofReply r :: ofReplies rs
end

theorem ofReplies_eq_map (rs : List Reply) : ofReplies rs = rs.map ofReply := by
  induction rs with
  | nil => rfl
  | cons r rs ih => simp [ofReplies, ih]

def isNil : Value → Bool
  | .nil => true
  | _ => false

def octets? : Value → Option Bytes
  | .data octets => some octets
  | _ => none

def int? : Value → Option Int
  | .int n => some n
  | _ => none

/-- A truth value, or whether an integer differs from zero. -/
def bool? : Value → Option Bool
  | .bool b => some b
  | .int n => some (n != 0)
  | _ => none

def error? : Value → Option ErrorReply
  | .error reply => some reply
  | _ => none

end Value

/-- How the replies to a command are reshaped. -/
inductive ReplyShape where
  /-- as they came -/
  | raw
  /-- integers as whether they differ from zero; a status is true, nil is false -/
  | boolean
  /-- payloads holding a decimal as doubles -/
  | float
  /-- arrays of fields and values in turn as maps -/
  | map
  deriving DecidableEq, Inhabited

namespace ReplyShape

/-- Fields and values in turn. A field is a payload or a status. -/
def pairs? : List Reply → Option (List (Bytes × Value))
  | [] => some []
  | .bulk field :: value :: rest => (pairs? rest).map ((field, .ofReply value) :: ·)
  | .status field :: value :: rest => (pairs? rest).map ((Bytes.ofText field, .ofReply value) :: ·)
  | _ => none

/-- The value of a reply that fits the shape. -/
def value? (shape : ReplyShape) (reply : Reply) : Option Value :=
  match shape, reply with
  | _, .error e => some (.error e)
  | .raw, reply => some (.ofReply reply)
  | .boolean, .integer n => some (.bool (n != 0))
  | .boolean, .status _ => some (.bool true)
  | .boolean, .nil => some (.bool false)
  | .float, .bulk payload => (Binary64.ofText? payload).map .float
  | .float, .nil => some .nil
  | .map, .array items => (pairs? items).map .map
  | .map, .nil => some (.map [])
  | _, _ => none

/-- The value of a reply to the command `id`. -/
def read (shape : ReplyShape) (id : String) (reply : Reply) : Except ClientError Value :=
  match shape.value? reply with
  | some v => .ok v
  | none => .error (.unexpectedResponse id)

end ReplyShape

end RespClient
