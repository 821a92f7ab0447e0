/-
Integers on the wire: which texts write one, which of these are read, and that 64-bit words suffice for reading them.

- `Writes`: the texts of an integer, said without the reader. `integer?_eq_some_iff`: those are read whose digits stay below
  `2 ^ 63`, with either sign.
- `word?`: the same in words, each product and sum checked and the sign put on last. `word?_eq`: nothing wraps round.
- `integer_reply_law`: so every word can be sent as an integer but the least one, which is refused (`least_refused`).
-/
import RespClient.Proofs.Readers

namespace RespClient.Numeral

/-! ## Texts of integers -/

/-- One or more digits write an integer, with a minus sign before them or not. -/
inductive Writes : Bytes → Int → Prop where
  | plain (ds : Bytes) : ds ≠ [] → ds.all Bytes.isDigit → Writes ds (Bytes.digitsValue ds)
  | minus (ds : Bytes) : ds ≠ [] → ds.all Bytes.isDigit → Writes (45 :: ds) (-(Bytes.digitsValue ds : Int))

variable {s ds : Bytes} {n : Int}

theorem digits?_eq_some_iff {bound m : Nat} (hb : 0 < bound) : digits? bound ds = some m ↔
    ds ≠ [] ∧ ds.all Bytes.isDigit ∧ Bytes.digitsValue ds = m ∧ m < bound := by
  constructor
  · exact digits?_eq_some hb
  · rintro ⟨hne, hall, rfl, hlt⟩
    rw [digits?_eq hb, if_pos]
    simpa [hne, hlt] using hall

/-- The integers that are read are those that are written with few enough digits. -/
theorem integer?_eq_some_iff : integer? s = some n ↔ Writes s n ∧ n.natAbs < signedBound := by
  have hb : 0 < signedBound := by decide
  constructor
  · intro h
    unfold integer? at h
    split at h
    · obtain ⟨m, hm, rfl⟩ := Option.map_eq_some_iff.1 h
      obtain ⟨hne, hall, rfl, hlt⟩ := (digits?_eq_some_iff hb).1 hm
      exact ⟨.minus _ hne hall, by omega⟩
    · obtain ⟨m, hm, rfl⟩ := Option.map_eq_some_iff.1 h
      obtain ⟨hne, hall, rfl, hlt⟩ := (digits?_eq_some_iff hb).1 hm
      exact ⟨.plain _ hne hall, by omega⟩
  · rintro ⟨hwrites, hlt⟩
    cases hwrites with
    | plain _ hne hall =>
      unfold integer?
      split
      · -- a minus sign is no digit
        rw [List.all_cons] at hall
        simp [Bytes.isDigit] at hall
      · rw [(digits?_eq_some_iff hb).2 ⟨hne, hall, rfl, by omega⟩]
        rfl
    | minus ds hne hall =>
      rw [integer?, (digits?_eq_some_iff hb).2 ⟨hne, hall, rfl, by omega⟩]
      rfl

/-! ## Reading in words -/

/-- The product of two words, unless it wraps round. -/
def mul? (a b : Int64) : Option Int64 := if (a * b).toInt = a.toInt * b.toInt then some (a * b) else none

/-- The sum of two words, unless it wraps round. -/
def add? (a b : Int64) : Option Int64 := if (a + b).toInt = a.toInt + b.toInt then some (a + b) else none

/-- A word with one more digit after it. -/
def pushWord? (v : Int64) (b : UInt8) : Option Int64 :=
  if Bytes.isDigit b then (mul? v 10).bind fun w => add? w (.ofNat (b.toNat - 48)) else none

/-- The word that one or more digits write. -/
def digitsWord? (s : Bytes) : Option Int64 := if s.isEmpty then none else s.foldlM pushWord? 0

/-- The word that an integer of the wire writes. The sign comes last, and nothing checks it. -/
def word? (s : Bytes) : Option Int64 :=
  match s with
  | 45 :: rest => (digitsWord? rest).map fun v => -v
  | _ => digitsWord? s

/-- The word stands for the number. -/
def Stands (v : Int64) (m : Nat) : Prop := v.toInt = m

variable {v : Int64} {m : Nat}

theorem Stands.lt (h : Stands v m) : m < signedBound := by
  have hv := v.toInt_lt
  rw [h] at hv
  exact_mod_cast hv

/-- A product is a word iff it is below the bound. -/
theorem mul?_stands (h : Stands v m) :
    Option.Rel Stands (mul? v 10) (if 10 * m < signedBound then some (10 * m) else none) := by
  have hten : (10 : Int64).toInt = 10 := by decide
  have hbound : (signedBound : Int) = 2 ^ 63 := rfl
  unfold mul?
  rw [hten, h]
  by_cases hm : 10 * m < signedBound
  · have hexact : (v * 10).toInt = (m : Int) * 10 := by
      rw [Int64.toInt_mul, hten, h]
      exact Int.bmod_eq_of_le (by omega) (by omega)
    rw [if_pos hm, if_pos hexact]
    exact .some (hexact.trans (by omega))
  · have hwraps : ¬ (v * 10).toInt = (m : Int) * 10 := by
      have hlt := (v * 10).toInt_lt
      omega
    rw [if_neg hm, if_neg hwraps]
    exact .none

/-- And so is a sum. -/
theorem add?_stands {d : Nat} (h : Stands v m) (hd : d < signedBound) :
    Option.Rel Stands (add? v (.ofNat d)) (if m + d < signedBound then some (m + d) else none) := by
  have hword : (Int64.ofNat d).toInt = d := Int64.toInt_ofNat_of_lt hd
  have hbound : (signedBound : Int) = 2 ^ 63 := rfl
  unfold add?
  rw [hword, h]
  by_cases hm : m + d < signedBound
  · have hexact : (v + .ofNat d).toInt = (m : Int) + d := by
      rw [Int64.toInt_add, hword, h]
      exact Int.bmod_eq_of_le (by omega) (by omega)
    rw [if_pos hm, if_pos hexact]
    exact .some (hexact.trans (by omega))
  · have hwraps : ¬ (v + .ofNat d).toInt = (m : Int) + d := by
      have hlt := (v + .ofNat d).toInt_lt
      omega
    rw [if_neg hm, if_neg hwraps]
    exact .none

/-- One more digit: the step in words refuses what the step in numbers refuses. -/
theorem pushWord?_stands (h : Stands v m) (b : UInt8) :
    Option.Rel Stands (pushWord? v b) (push? signedBound m b) := by
  unfold pushWord? push? Bytes.pushDigit
  by_cases hb : Bytes.isDigit b = true
  · have hdigit : b.toNat - 48 < signedBound := by
      have hoctet := b.toNat_lt
      have hbound : signedBound = 2 ^ 63 := rfl
      omega
    have hmul := mul?_stands h
    rw [if_pos hb]
    simp only [hb, Bool.true_and, decide_eq_true_eq]
    by_cases hm : 10 * m < signedBound
    · rw [if_pos hm] at hmul
      generalize mul? v 10 = product at hmul
      cases hmul with
      | some hw => exact add?_stands hw hdigit
    · -- what the product refuses the sum would refuse as well
      rw [if_neg hm] at hmul
      generalize mul? v 10 = product at hmul
      cases hmul with
      | none =>
        rw [if_neg (by omega)]
        exact .none
  · rw [if_neg hb]
    simp only [hb, Bool.false_and, Bool.false_eq_true, ↓reduceIte]
    exact .none

/-- Digit after digit, by induction on them. -/
theorem foldlM_pushWord?_stands (h : Stands v m) (ds : Bytes) :
    Option.Rel Stands (ds.foldlM pushWord? v) (ds.foldlM (push? signedBound) m) := by
  induction ds generalizing v m with
  | nil => exact .some h
  | cons b ds ih =>
    have hstep := pushWord?_stands h b
    rw [List.foldlM_cons, List.foldlM_cons]
    generalize pushWord? v b = next, push? signedBound m b = next' at hstep
    cases hstep with
    | none => exact .none
    | some hnext => exact ih hnext

theorem digitsWord?_stands (ds : Bytes) : Option.Rel Stands (digitsWord? ds) (digits? signedBound ds) := by
  unfold digitsWord? digits?
  split_ifs
  · exact .none
  · exact foldlM_pushWord?_stands Int64.toInt_zero ds

/-- The sign never wraps round, since digits never give the least word. -/
theorem Stands.neg (h : Stands v m) : (-v).toInt = -(m : Int) := by
  have hm := h.lt
  have hbound : signedBound = 2 ^ 63 := rfl
  rw [Int64.toInt_neg, h]
  exact Int.bmod_eq_of_le (by omega) (by omega)

/-- **Reading in words is reading.** -/
theorem word?_eq (s : Bytes) : (word? s).map Int64.toInt = integer? s := by
  have hmap : ∀ (ds : Bytes) (f : Int64 → Int) (g : Nat → Int), (∀ v m, Stands v m → f v = g m) →
      (digitsWord? ds).map f = (digits? signedBound ds).map g := by
    intro ds f g hfg
    have hstands := digitsWord?_stands ds
    generalize digitsWord? ds = word, digits? signedBound ds = number at hstands
    cases hstands with
    | none => rfl
    | some h => exact congrArg some (hfg _ _ h)
  by_cases hsign : ∃ rest, s = 45 :: rest
  · obtain ⟨rest, rfl⟩ := hsign
    show ((digitsWord? rest).map fun v => -v).map Int64.toInt = _
    rw [Option.map_map]
    exact hmap _ _ _ fun v m h => h.neg
  · have hword : word? s = digitsWord? s := by
      unfold word?
      split
      · exact absurd ⟨_, rfl⟩ hsign
      · rfl
    have hinteger : integer? s = (digits? signedBound s).map fun (n : Nat) => (n : Int) := by
      unfold integer?
      split
      · exact absurd ⟨_, rfl⟩ hsign
      · rfl
    rw [hword, hinteger]
    exact hmap _ _ _ fun v m h => h

end RespClient.Numeral

namespace RespClient.Wire

open Numeral (Writes)

variable {d rest : Bytes}

/-! ## Integer frames -/

/-- An integer frame holds what its text is read as. -/
theorem reply_integer (ending : Ending) (hd : lineFeed ∉ d) (rest : Bytes) :
    reply ending (integerMark :: d ++ terminator ++ rest) = ((integer d).map .integer, rest) := by
  have hline : Reader.of line ending (integerMark :: d ++ terminator ++ rest) = (.ok (integerMark :: d), rest) :=
    line_eq_iff.2 ⟨rfl, List.not_mem_cons_of_ne_of_not_mem (by decide) hd⟩
  rw [reply_eq, Reader.andThen_of_ok hline]
  show replyAfter (integerMark :: d) ending rest = _
  unfold replyAfter
  rw [show Header.ofLine (integerMark :: d) = (integer d).map fun n => .whole (.integer n) from rfl]
  cases integer d <;> rfl

/-- The words of an absolute value that digits may write are all but the least. -/
theorem exists_word_iff {n : Int} : n.natAbs < Numeral.signedBound ↔ ∃ v : Int64, v ≠ .minValue ∧ v.toInt = n := by
  have hbound : Numeral.signedBound = 2 ^ 63 := rfl
  constructor
  · intro hn
    have hword : (Int64.ofInt n).toInt = n := Int64.toInt_ofInt_of_le (by omega) (by omega)
    refine ⟨.ofInt n, fun hleast => ?_, hword⟩
    rw [hleast, Int64.toInt_minValue] at hword
    omega
  · rintro ⟨v, hv, rfl⟩
    have hleast : v.toInt ≠ -2 ^ 63 := fun h => hv (Int64.toInt_inj.1 (h.trans Int64.toInt_minValue.symm))
    have hlow := v.le_toInt
    have hhigh := v.toInt_lt
    omega

/-- **Integers are read, but for the least word.** The text of any other word is read as that word, and every other text is
refused as an integer. Words suffice for it: no product, sum or change of sign wraps round. -/
theorem integer_reply_law (ending : Ending) (d rest : Bytes) (hd : lineFeed ∉ d) :
    (∀ r, reply ending (integerMark :: d ++ terminator ++ rest) = (.ok r, rest) ↔
      ∃ n : Int64, n ≠ .minValue ∧ Writes d n.toInt ∧ r = .integer n.toInt) ∧
    ((∀ n : Int64, Writes d n.toInt → n = .minValue) →
      reply ending (integerMark :: d ++ terminator ++ rest) = (.error .invalidInteger, rest)) ∧
    (Numeral.word? d).map Int64.toInt = Numeral.integer? d := by
  rw [reply_integer ending hd rest]
  refine ⟨fun r => ?_, fun hnone => ?_, Numeral.word?_eq d⟩
  · constructor
    · intro h
      obtain ⟨n, hn, rfl⟩ := exists_of_map_eq_ok (congrArg Prod.fst h)
      obtain ⟨hwrites, hlt⟩ := Numeral.integer?_eq_some_iff.1 (Header.integer_eq_ok_iff.1 hn)
      obtain ⟨v, hv, rfl⟩ := exists_word_iff.1 hlt
      exact ⟨v, hv, hwrites, rfl⟩
    · rintro ⟨v, hv, hwrites, rfl⟩
      have hread := Numeral.integer?_eq_some_iff.2 ⟨hwrites, exists_word_iff.2 ⟨v, hv, rfl⟩⟩
      rw [Header.integer_eq_ok_iff.2 hread]
      rfl
  · have hread : Numeral.integer? d = none := by
      refine Option.eq_none_iff_forall_ne_some.2 fun n hn => ?_
      obtain ⟨hwrites, hlt⟩ := Numeral.integer?_eq_some_iff.1 hn
      obtain ⟨v, hv, rfl⟩ := exists_word_iff.1 hlt
      exact hv (hnone v hwrites)
    rw [integer, hread]
    rfl

/-- The digits of `2 ^ 63` with leading zeros and a minus sign, less one, and with what follows left alone. -/
theorem integer_reply_law_padded :
    let d := Bytes.ofText "-0009223372036854775807"
    lineFeed ∉ d ∧ reply .closed (integerMark :: d ++ terminator ++ [43]) = (.ok (.integer (-(2 ^ 63 - 1))), [43]) := by
  intro d
  have hd : lineFeed ∉ d := by decide
  refine ⟨hd, ((integer_reply_law .closed d [43] hd).1 _).2 ⟨.ofInt (-(2 ^ 63 - 1)), by decide, ?_, rfl⟩⟩
  exact .minus _ (by decide) (by decide)

/-- The least word is written and refused. -/
theorem least_refused :
    let d := Bytes.ofText "-9223372036854775808"
    lineFeed ∉ d ∧ Writes d Int64.minValue.toInt ∧
      reply .closed (integerMark :: d ++ terminator) = (.error .invalidInteger, []) := by
  intro d
  have hd : lineFeed ∉ d := by decide
  refine ⟨hd, .minus _ (by decide) (by decide), ?_⟩
  have hread := reply_integer .closed hd []
  rw [List.append_nil] at hread
  rw [hread]
  rfl

end RespClient.Wire
