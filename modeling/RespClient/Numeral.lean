/-
Whole numbers in text form.

- `unsigned?` is the form of counts and options: an optional plus sign and digits, below `2 ^ 64`.
- `integer?` is the form of integers on the wire: an optional minus sign and digits. The digits alone must stay below
  `2 ^ 63`, with either sign.

Reading stops at the first digit that leads beyond the bound, so it never handles a greater number. `digits?_eq` says
that this makes no difference.
-/
import RespClient.Bytes

namespace RespClient.Numeral

/-- The value with one more digit after it, if that stays below `bound`. -/
def push? (bound n : Nat) (b : UInt8) : Option Nat :=
  if Bytes.isDigit b && Bytes.pushDigit n b < bound then some (Bytes.pushDigit n b) else none

/-- The value of one or more digits, below `bound`. -/
def digits? (bound : Nat) (s : Bytes) : Option Nat :=
  if s.isEmpty then none else s.foldlM (push? bound) 0

theorem le_foldl_pushDigit (n : Nat) (s : Bytes) : n ≤ s.foldl Bytes.pushDigit n := by
  induction s generalizing n with
  | nil => exact Nat.le_refl n
  | cons b s ih =>
    have h : n ≤ Bytes.pushDigit n b := by
      unfold Bytes.pushDigit
      omega
    exact Nat.le_trans h (ih _)

theorem foldlM_push? {bound n : Nat} (h : n < bound) (s : Bytes) :
    s.foldlM (push? bound) n =
      if s.all Bytes.isDigit && s.foldl Bytes.pushDigit n < bound then some (s.foldl Bytes.pushDigit n) else none := by
  induction s generalizing n with
  | nil => simp [h]
  | cons b s ih =>
    by_cases hb : Bytes.isDigit b
    · by_cases hn : Bytes.pushDigit n b < bound
      · have hpush : push? bound n b = some (Bytes.pushDigit n b) := by simp [push?, hb, hn]
        rw [List.foldlM_cons, hpush, List.all_cons, hb, Bool.true_and]
        exact ih hn
      · have hle := le_foldl_pushDigit (Bytes.pushDigit n b) s
        have hs : ¬ s.foldl Bytes.pushDigit (Bytes.pushDigit n b) < bound := by omega
        simp [push?, hb, hn, hs]
    · simp [push?, hb]

/-- The digits give their value when it is below the bound. -/
theorem digits?_eq {bound : Nat} (h : 0 < bound) (s : Bytes) :
    digits? bound s =
      if !s.isEmpty && s.all Bytes.isDigit && Bytes.digitsValue s < bound then some (Bytes.digitsValue s)
      else none := by
  cases s with
  | nil => rfl
  | cons b s => exact foldlM_push? h (b :: s)

/-- An unsigned 64-bit number. -/
def unsigned? (s : Bytes) : Option Nat :=
  match s with
  | 43 :: rest => digits? UInt64.size rest
  | _ => digits? UInt64.size s

/-- The bound of signed 64-bit numbers, `2 ^ 63`. -/
def signedBound : Nat := 0x8000000000000000

/-- An integer of the wire. -/
def integer? (s : Bytes) : Option Int :=
  match s with
  | 45 :: rest => (digits? signedBound rest).map fun (n : Nat) => -(n : Int)
  | _ => (digits? signedBound s).map fun (n : Nat) => (n : Int)

end RespClient.Numeral
