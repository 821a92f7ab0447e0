/-
Where the keys of a command stand among its arguments, and which part of a key decides where it is stored.

- `KeyLayout.positions` gives the indexes of the key arguments, in order.
- `keyTag` is the text between the first `{` and the next `}` when it is not empty, else the whole key.
-/
import RespClient.Numeral

namespace RespClient

/-- The place of the keys in an argument list. -/
inductive KeyLayout where
  | keyless
  | first
  | every
  /-- keys and values in turn, a key first -/
  | alternate
  /-- all arguments but the last ones -/
  | butLast (count : Nat)
  /-- a number of keys at `countAt` and the keys after it; with `leading`, one more key at index 0 -/
  | counted (countAt : Nat) (leading : Bool)
  deriving DecidableEq, Inhabited

namespace KeyLayout

/-- The number of keys that the argument at `countAt` declares; no number declares none. -/
def declared (countAt : Nat) (args : List Bytes) : Nat :=
  (args[countAt]?.bind Numeral.unsigned?).getD 0

/-- The indexes of the key arguments. -/
def positions (layout : KeyLayout) (args : List Bytes) : List Nat :=
  match layout with
  | .keyless => []
  | .first => List.range (min args.length 1)
  | .every => List.range args.length
  | .alternate => (List.range ((args.length + 1) / 2)).map (2 * ·)
  | .butLast count => List.range (args.length - count)
  | .counted countAt leading =>
    let start := countAt + 1
    let stop := min (start + declared countAt args) args.length
    (if leading && !args.isEmpty then [0] else []) ++ List.range' start (stop - start)

end KeyLayout

/-- The part of a key that is hashed. -/
def keyTag (key : Bytes) : Bytes :=
  match cutFirst? 123 key with
  | none => key
  | some (_, afterOpen) =>
    match cutFirst? 125 afterOpen with
    | some (c :: tag, _) => c :: tag
    | _ => key

end RespClient
