/-
Lines, payloads and the numbers in front of them: what the readers accept and what the writers produce. Each reader is
described by one equivalence: it gives `a` and leaves `rest` iff the octets before `rest` have the form of `a`.

- `cutFirst?_eq_some_iff`, `line_eq_iff`: a line is what stands before the first line feed, less its carriage return.
- `payload_eq_iff`: a payload is delimited by its length alone, so it may hold any octets.
- `integer?_decimal`: the digits written for a number are read back as that number.
-/
import Mathlib.Tactic
import RespClient.Wire.Reading
import RespClient.Wire.Header

namespace RespClient

/-! ## Successes -/

theorem exists_of_bind_eq_ok {ε α β : Type} {x : Except ε α} {f : α → Except ε β} {b : β} (h : x >>= f = .ok b) :
    ∃ a, x = .ok a ∧ f a = .ok b := by
  cases x with
  | error e => contradiction
  | ok a => exact ⟨a, rfl, h⟩

theorem exists_of_map_eq_ok {ε α β : Type} {x : Except ε α} {f : α → β} {b : β} (h : x.map f = .ok b) :
    ∃ a, x = .ok a ∧ f a = b := by
  cases x with
  | error e => contradiction
  | ok a => exact ⟨a, rfl, Except.ok.inj h⟩

/-! ## Numbers -/

theorem Bytes.isDigit_of_char {c : Char} (h : c.isDigit) : Bytes.isDigit c.val.toUInt8 := by
  simp only [Char.isDigit, Bool.and_eq_true, decide_eq_true_eq, ge_iff_le, UInt32.le_iff_toNat_le] at h
  simp only [Bytes.isDigit, Bool.and_eq_true, decide_eq_true_eq, UInt8.le_iff_toNat_le, UInt32.toNat_toUInt8]
  have h0 : '0'.val.toNat = 48 := rfl
  have h9 : '9'.val.toNat = 57 := rfl
  have h0' : (48 : UInt8).toNat = 48 := rfl
  have h9' : (57 : UInt8).toNat = 57 := rfl
  omega

theorem Bytes.pushDigit_of_char {c : Char} (h : c.isDigit) (n : Nat) :
    Bytes.pushDigit n c.val.toUInt8 = 10 * n + (c.toNat - '0'.toNat) := by
  have h9 : c.val.toNat ≤ '9'.val.toNat := by
    simp only [Char.isDigit, Bool.and_eq_true, decide_eq_true_eq, UInt32.le_iff_toNat_le] at h
    exact h.2
  have hc : c.val.toUInt8.toNat = c.toNat := by
    rw [UInt32.toNat_toUInt8]
    exact Nat.mod_eq_of_lt (Nat.lt_of_le_of_lt h9 (by decide))
  rw [Bytes.pushDigit, hc]
  rfl

namespace Bytes

theorem decimal_ne_nil (n : Nat) : decimal n ≠ [] := by
  simp [decimal, Nat.toDigits_ne_nil]

theorem length_decimal_le {n k : Nat} (hk : 0 < k) (h : n < 10 ^ k) : (decimal n).length ≤ k := by
  rw [decimal, List.length_map]
  exact (Nat.length_toDigits_le_iff (by decide) hk).2 h

/-- The digits of a number: those of its tenth, and the last one. -/
theorem decimal_eq (n : Nat) :
    decimal n = (if n < 10 then [] else decimal (n / 10)) ++ [48 + (n % 10).toUInt8] := by
  have hdigit : ∀ d < 10, (Nat.digitChar d).val.toUInt8 = 48 + d.toUInt8 := by decide
  rw [decimal, Nat.toDigits_eq_if (by decide)]
  split_ifs with hlt
  · rw [Nat.mod_eq_of_lt hlt, List.map_singleton, hdigit n hlt]
    rfl
  · rw [List.map_append, List.map_singleton, hdigit _ (Nat.mod_lt n (by decide))]
    rfl

theorem isDigit_of_mem_decimal {n : Nat} {b : UInt8} (h : b ∈ decimal n) : isDigit b := by
  obtain ⟨c, hc, rfl⟩ := List.mem_map.1 h
  exact isDigit_of_char (Nat.isDigit_of_mem_toDigits (by decide) (by decide) hc)

theorem all_isDigit_decimal (n : Nat) : (decimal n).all isDigit :=
  List.all_eq_true.2 fun _ hb => isDigit_of_mem_decimal hb

theorem foldl_pushDigit_map {cs : List Char} (h : ∀ c ∈ cs, c.isDigit) (n : Nat) :
    (cs.map fun c => c.val.toUInt8).foldl pushDigit n = Nat.ofDigitChars 10 cs n := by
  induction cs generalizing n with
  | nil => rfl
  | cons c cs ih =>
    rw [List.map_cons, List.foldl_cons, Nat.ofDigitChars_cons, pushDigit_of_char (h c List.mem_cons_self)]
    exact ih (fun d hd => h d (List.mem_cons_of_mem c hd)) _

/-- The digits of a number write that number. -/
@[simp]
theorem digitsValue_decimal (n : Nat) : digitsValue (decimal n) = n := by
  have hd : ∀ c ∈ Nat.toDigits 10 n, c.isDigit :=
    fun c hc => Nat.isDigit_of_mem_toDigits (by decide) (by decide) hc
  exact (foldl_pushDigit_map hd 0).trans Nat.ofDigitChars_ten_toDigits

end Bytes

namespace Numeral

theorem digits?_decimal {bound n : Nat} (h : n < bound) : digits? bound (Bytes.decimal n) = some n := by
  rw [digits?_eq (by omega)]
  simp [Bytes.decimal_ne_nil, Bytes.all_isDigit_decimal, h]

/-- What is read as a number is its digits, one at least. -/
theorem digits?_eq_some {bound n : Nat} (hb : 0 < bound) {s : Bytes} (h : digits? bound s = some n) :
    s ≠ [] ∧ s.all Bytes.isDigit ∧ Bytes.digitsValue s = n ∧ n < bound := by
  rw [digits?_eq hb] at h
  split at h
  · rename_i hs
    simp only [Bool.and_eq_true, Bool.not_eq_true', decide_eq_true_eq] at hs
    obtain rfl := Option.some.inj h
    exact ⟨by simpa using hs.1.1, hs.1.2, rfl, hs.2⟩
  · contradiction

/-- The digits written for a number below the bound are read back as that number. -/
theorem integer?_decimal {n : Nat} (h : n < signedBound) : integer? (Bytes.decimal n) = some (n : Int) := by
  unfold integer?
  split
  · rename_i rest heq
    have hm : (45 : UInt8) ∈ Bytes.decimal n := by rw [heq]; exact List.mem_cons_self
    exact absurd (Bytes.isDigit_of_mem_decimal hm) (by decide)
  · rw [digits?_decimal h]
    rfl

/-- The text of an integer holds no line feed. -/
theorem lineFeed_not_mem_of_integer? {s : Bytes} {n : Int} (h : integer? s = some n) : Wire.lineFeed ∉ s := by
  have hdigit : ∀ {t : Bytes} {k : Nat}, digits? signedBound t = some k → Wire.lineFeed ∉ t := by
    intro t k ht hm
    obtain ⟨-, hall, -, -⟩ := digits?_eq_some (by decide) ht
    exact absurd (List.all_eq_true.1 hall _ hm) (by decide)
  unfold integer? at h
  split at h
  · obtain ⟨k, hk, -⟩ := Option.map_eq_some_iff.1 h
    intro hm
    rcases List.mem_cons.1 hm with hm | hm
    · exact absurd hm (by decide)
    · exact hdigit hk hm
  · obtain ⟨k, hk, -⟩ := Option.map_eq_some_iff.1 h
    exact hdigit hk

end Numeral

/-! ## Cutting at separators -/

section

variable {α : Type} [BEq α] [LawfulBEq α]

theorem cutFirst?_append {x : α} {before : List α} (h : x ∉ before) (after : List α) :
    cutFirst? x (before ++ x :: after) = some (before, after) := by
  have hp : ∀ a ∈ before, (a != x) = true := by
    intro a ha
    simp only [bne_iff_ne, ne_eq]
    rintro rfl
    exact h ha
  have hd : (before ++ x :: after).dropWhile (· != x) = x :: after := by
    rw [List.dropWhile_append_of_pos hp, List.dropWhile_cons_of_neg (by simp)]
  have ht : (before ++ x :: after).takeWhile (· != x) = before := by
    rw [List.takeWhile_append_of_pos hp, List.takeWhile_cons_of_neg (by simp), List.append_nil]
  simp only [cutFirst?, hd, ht]

theorem cutFirst?_eq_some_iff {x : α} {l before after : List α} :
    cutFirst? x l = some (before, after) ↔ l = before ++ x :: after ∧ x ∉ before := by
  constructor
  · intro h
    unfold cutFirst? at h
    split at h
    · contradiction
    · rename_i hd tl heq
      simp only [Option.some.injEq, Prod.mk.injEq] at h
      obtain ⟨rfl, rfl⟩ := h
      have hhd : hd = x := by
        have := List.head_dropWhile_not (p := (· != x)) (l := l) (by rw [heq]; exact List.cons_ne_nil _ _)
        simpa [heq] using this
      refine ⟨?_, fun hx => ?_⟩
      · conv_lhs => rw [← List.takeWhile_append_dropWhile (p := (· != x)) (l := l), heq, hhd]
      · simpa using List.all_eq_true.1 List.all_takeWhile x hx
  · rintro ⟨rfl, h⟩
    exact cutFirst?_append h after

end

namespace Wire

/-! ## Lines and payloads -/

namespace Reading

variable {α : Type} {limit : Nat}

@[simp]
theorem toPair_value {a : α} {rest : Bytes} {h : rest.length < limit} :
    (Reading.value a rest h).toPair = (.ok a, rest) := rfl

@[simp]
theorem toPair_failure {e : DecodeError} {rest : Bytes} :
    (Reading.failure e rest : Reading limit α).toPair = (.error e, rest) := rfl

theorem eq_value_of_toPair {r : Reading limit α} {a : α} {rest : Bytes} (h : r.toPair = (.ok a, rest)) :
    ∃ hs, r = .value a rest hs := by
  cases r with
  | value b t hs =>
    simp only [toPair_value, Prod.mk.injEq, Except.ok.injEq] at h
    obtain ⟨rfl, rfl⟩ := h
    exact ⟨hs, rfl⟩
  | failure e t => simp at h

end Reading

/-- A line reaches to the first line feed and ends with a carriage return, which a line may hold inside as well. -/
theorem line_eq_iff {ending : Ending} {s body rest : Bytes} :
    (line ending s).toPair = (.ok body, rest) ↔ s = body ++ terminator ++ rest ∧ lineFeed ∉ body := by
  have hcr : lineFeed ≠ carriageReturn := by decide
  constructor
  · intro h
    unfold line at h
    split at h
    · simp at h
    · rename_i full rest' hcut
      obtain ⟨hs, hlf⟩ := cutFirst?_eq_some_iff.1 hcut
      split_ifs at h with hlast
      · simp only [Reading.toPair_value, Prod.mk.injEq, Except.ok.injEq] at h
        obtain ⟨rfl, rfl⟩ := h
        have hfull : full = full.dropLast ++ [carriageReturn] := (List.dropLast_append_getLast? _ hlast).symm
        refine ⟨?_, fun hm => hlf ((List.dropLast_sublist full).subset hm)⟩
        rw [hs, hfull]
        simp [terminator]
      · simp at h
  · rintro ⟨rfl, hlf⟩
    have hcut : cutFirst? lineFeed (body ++ terminator ++ rest) = some (body ++ [carriageReturn], rest) :=
      cutFirst?_eq_some_iff.2 ⟨by simp [terminator], by simp [hlf, hcr]⟩
    unfold line
    split
    · rename_i hnone
      rw [hcut] at hnone
      contradiction
    · rename_i full rest' hsome
      rw [hcut] at hsome
      simp only [Option.some.injEq, Prod.mk.injEq] at hsome
      obtain ⟨rfl, rfl⟩ := hsome
      rw [if_pos (by simp)]
      simp

/-- A payload is what its length says, whatever octets it holds. -/
theorem payload_eq_iff {ending : Ending} {n : Nat} {s data rest : Bytes} :
    (payload ending n s).toPair = (.ok data, rest) ↔ s = data ++ terminator ++ rest ∧ data.length = n := by
  constructor
  · intro h
    simp only [payload] at h
    split_ifs at h with hlen hterm
    · simp only [Reading.toPair_value, Prod.mk.injEq, Except.ok.injEq] at h
      obtain ⟨rfl, rfl⟩ := h
      refine ⟨?_, by simp at hlen ⊢; omega⟩
      rw [← hterm, List.take_append_drop, List.take_append_drop]
    · simp at h
    · simp at h
  · rintro ⟨rfl, rfl⟩
    have hblock : (data ++ terminator ++ rest).take (data.length + 2) = data ++ terminator := by
      rw [List.take_append_of_le_length (by simp [terminator])]
      exact List.take_of_length_le (by simp [terminator])
    have hrest : (data ++ terminator ++ rest).drop (data.length + 2) = rest := by
      rw [List.drop_append_of_le_length (by simp [terminator])]
      simp [terminator]
    unfold payload
    simp only [hblock, hrest]
    rw [dif_pos (by simp [terminator]), if_pos (by simp)]
    simp

/-! ## Reading on and on -/

section

variable {α : Type} {read : (s : Bytes) → Reading s.length α} {s rest : Bytes}

/-- A value read leads all that is read, and the rest gives what comes after it. -/
theorem readAll_of_value {a : α}
    (h : (read s).toPair = (.ok a, rest)) : readAll read s = (a :: (readAll read rest).1, (readAll read rest).2) := by
  obtain ⟨hs, hr⟩ := Reading.eq_value_of_toPair h
  rw [readAll]
  simp only [hr]

/-- An error ends all that is read. -/
theorem readAll_of_error {e : DecodeError}
    (h : (read s).toPair = (.error e, rest)) : readAll read s = ([], e) := by
  rw [readAll]
  cases hr : read s with
  | value a t ht => simp [hr] at h
  | failure e' t =>
    rw [hr] at h
    simp only [Reading.toPair_failure, Prod.mk.injEq, Except.error.injEq] at h
    rw [h.1]

end

end Wire

end RespClient
