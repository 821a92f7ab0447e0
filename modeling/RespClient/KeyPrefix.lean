/-
A namespace for keys: octets put before every key argument of a command. All other arguments stay as they are.
-/
import RespClient.Command

namespace RespClient

/-- The octets that begin every key of a namespace. -/
structure KeyPrefix where
  octets : Bytes
  deriving DecidableEq

namespace KeyPrefix

/-- The arguments with the keys at `positions` extended. -/
def extend (p : KeyPrefix) (positions : List Nat) (args : List Bytes) : List Bytes :=
  positions.foldl (fun args i => args.modify i (p.octets ++ ·)) args

/-- The new arguments of a command, if it has keys to extend. -/
def arguments? (p : KeyPrefix) (c : Command) : Option (List Bytes) :=
  let positions := c.spec.keys.positions c.arguments
  if p.octets.isEmpty || positions.isEmpty then none else some (p.extend positions c.arguments)

/-- The command within the namespace. -/
def apply (p : KeyPrefix) (c : Command) : Command :=
  match p.arguments? c with
  | none => c
  | some args => c.setArguments args

/-- The same beside the slot for the routing key, which stays filled when nothing changes. -/
def applyMemo (p : KeyPrefix) (m : Command.Memo) : Command.Memo :=
  match p.arguments? m.command with
  | none => m
  | some args => m.setArguments args

end KeyPrefix

end RespClient
