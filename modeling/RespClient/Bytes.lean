/-
Octet strings: what travels on the wire, what commands carry as arguments, what keys are made of. They are plain lists,
so a reader is a function from the octets still to come.

- `decimal` is the shortest decimal form of a number; `digitsValue` reads digits back.
- `cutFirst?` and `cutLast?` split a list around one separator, `fields` around all of them; they serve octets and
  characters alike.
-/

namespace RespClient

/-- Octet strings. -/
abbrev Bytes := List UInt8

namespace Bytes

/-- The UTF-8 form of a text. -/
def ofText (s : String) : Bytes := s.toList.flatMap String.utf8EncodeChar

/-- The decimal digits of a number, without leading zeros. -/
def decimal (n : Nat) : Bytes := (Nat.toDigits 10 n).map fun c => c.val.toUInt8

/-- One of the octets `0` to `9`. -/
def isDigit (b : UInt8) : Bool := 48 ≤ b && b ≤ 57

/-- The number with one more digit after it. -/
def pushDigit (n : Nat) (b : UInt8) : Nat := 10 * n + (b.toNat - 48)

/-- The number that digits write. -/
def digitsValue (ds : Bytes) : Nat := ds.foldl pushDigit 0

end Bytes

/-! ## Cutting at separators -/

variable {α : Type} [BEq α]

/-- What stands before and after the first `x`; nothing if there is none. -/
def cutFirst? (x : α) (l : List α) : Option (List α × List α) :=
  match l.dropWhile (· != x) with
  | [] => none
  | _ :: after => some (l.takeWhile (· != x), after)

/-- What stands before and after the last `x`; nothing if there is none. -/
def cutLast? (x : α) (l : List α) : Option (List α × List α) :=
  (cutFirst? x l.reverse).map fun (after, before) => (before.reverse, after.reverse)

/-- The pieces between the separators `x`: one more than there are separators. -/
def fields (x : α) : List α → List (List α)
  | [] => [[]]
  | a :: l =>
    if a == x then [] :: fields x l
    else match fields x l with
      | [] => [[a]]
      | f :: fs => (a :: f) :: fs

end RespClient
