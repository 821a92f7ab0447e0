/-
Replies of a server: status, error, integer, bulk octets, array of replies, nil. An error reply carries one line of text;
its category is the leading word when that word is all capitals.
-/
import RespClient.Bytes

namespace RespClient

/-- An error line. -/
structure ErrorReply where
  message : String
  deriving DecidableEq, Inhabited

/-- The leading word of the line, up to the first space, if it is made of one or more letters `A` to `Z`. -/
def ErrorReply.category (e : ErrorReply) : Option String :=
  let word := e.message.toList.takeWhile (· != ' ')
  if !word.isEmpty && word.all Char.isUpper then some (String.ofList word) else none

/-- A reply. -/
inductive Reply where
  | status (text : String)
  | error (reply : ErrorReply)
  | integer (value : Int)
  | bulk (payload : Bytes)
  | array (items : List Reply)
  | nil
  deriving Inhabited

namespace Reply

def isError : Reply → Bool
  | .error _ => true
  | _ => false

/-- The name of the reply's form. -/
def kind : Reply → String
  | .status _ => "status"
  | .error _ => "error"
  | .integer _ => "integer"
  | .bulk _ => "bulk"
  | .array _ => "array"
  | .nil => "nil"

mutual
/-- How deep arrays are nested: none at a leaf. -/
def depth : Reply → Nat
  | .array items => 1 + depthOfItems items
  | _ => 0

def depthOfItems : List Reply → Nat
  | [] => 0
  | r :: rs => max (depth r) (depthOfItems rs)
end

mutual
/-- The replies that are no arrays. -/
def leaves : Reply → Nat
  | .array items => leavesOfItems items
  | _ => 1

def leavesOfItems : List Reply → Nat
  | [] => 0
  | r :: rs => leaves r + leavesOfItems rs
end

end Reply

end RespClient
