/-
Commands: a specification (id, place of the keys, access, shape of replies), arguments, and for the invocation of a
stored script its body. The routing key is the tag that all keys share; a command without keys, or with keys of
different tags, has none.

`Command.Memo` is a command beside a slot for its routing key. The slot is filled when the key is first asked for and
emptied when the arguments change.
-/
import RespClient.KeyLayout
import RespClient.Value
import RespClient.Blank
import RespClient.Wire.Requests

namespace RespClient

/-- What a command does to a replicated set. -/
inductive Access where
  | read
  | write
  | unsupported
  deriving DecidableEq, Inhabited

/-- A command of the catalogue. Ids are upper-case. -/
structure CommandSpec where
  id : String
  keys : KeyLayout
  access : Access
  shape : ReplyShape := .raw
  deriving DecidableEq, Inhabited

/-- A specification under the id in capitals. -/
def CommandSpec.named (id : String) (keys : KeyLayout) (access : Access) (shape : ReplyShape := .raw) : CommandSpec :=
  { id := upperAscii id, keys, access, shape }

/-- A command with its arguments. -/
structure Command where
  spec : CommandSpec
  arguments : List Bytes
  script : Option Bytes := none
  deriving DecidableEq, Inhabited

namespace Command

def id (c : Command) : String := c.spec.id

/-- The key arguments, in order. -/
def keys (c : Command) : List Bytes := (c.spec.keys.positions c.arguments).filterMap (c.arguments[·]?)

/-- The layout has keys at all. -/
def isHashable (c : Command) : Bool := c.spec.keys != .keyless

/-- The tag that all keys share. -/
def routingKey (c : Command) : Option Bytes :=
  match c.keys with
  | [] => none
  | first :: others => if others.all (keyTag · == keyTag first) then some (keyTag first) else none

/-- The same command as the invocation of a stored script. -/
def withScript (c : Command) (body : Bytes) : Command := { c with script := some body }

def setArguments (c : Command) (arguments : List Bytes) : Command := { c with arguments }

/-- The arguments that evaluate the script afresh: its body instead of the first one. -/
def evalArguments (c : Command) : Option (List Bytes) := c.script.map (· :: c.arguments.drop 1)

/-- The command's request frame. -/
def frame (c : Command) : Bytes := Wire.encode (Bytes.ofText c.id) c.arguments

def readReply (c : Command) (reply : Reply) : Except ClientError Value := c.spec.shape.read c.id reply

/-- An argument as shown to people: at most 32 characters. -/
def showArgument (arg : Bytes) : String :=
  let text := (Utf8.decodeLossy arg).toList
  if text.length > 32 then String.ofList (text.take 32) ++ "[...]" else String.ofList text

/-- The id and the arguments, separated by spaces. -/
def toText (c : Command) : String := c.arguments.foldl (fun text arg => text ++ " " ++ showArgument arg) c.id

/-! ## Remembering the routing key -/

/-- A command and what is known of its routing key. -/
structure Memo where
  command : Command
  slot : Option (Option Bytes) := none

namespace Memo

/-- The routing key, from the slot if it is filled, and the command with the slot filled. -/
def routingKey (m : Memo) : Option Bytes × Memo :=
  match m.slot with
  | some key => (key, m)
  | none => (m.command.routingKey, { m with slot := some m.command.routingKey })

/-- New arguments empty the slot. -/
def setArguments (m : Memo) (arguments : List Bytes) : Memo :=
  { command := m.command.setArguments arguments, slot := none }

def withScript (m : Memo) (body : Bytes) : Memo := { m with command := m.command.withScript body }

end Memo

end Command

end RespClient
