/-
Numbers as texts, written for settings and read back from them.

- `IsPlain`: the characters of such texts. None of them is blank, none needs more than one octet, and none is a sign.
- `toNatBelow_toString`: a whole number is read back.
- `isNegative_ofText?`: a text without a sign gives a number that is not negative.
- `toTimeout_showTimeout`: a timeout is read back, if the decimal text of its seconds gives it back (`Restorable`).
-/
import RespClient.Endpoint.Settings
import RespClient.Proofs.CountedKeys

namespace RespClient

/-! ## Plain characters -/

/-- Letters, digits and the point. -/
def IsPlain (c : Char) : Prop :=
  let n := c.toNat
  n = 46 ∨ (48 ≤ n ∧ n ≤ 57) ∨ (65 ≤ n ∧ n ≤ 90) ∨ (97 ≤ n ∧ n ≤ 122)

instance (c : Char) : Decidable (IsPlain c) := inferInstanceAs (Decidable (_ ∨ _))

variable {c : Char} {cs : List Char}

theorem isPlain_of_isDigit (h : c.isDigit) : IsPlain c := by
  simp only [Char.isDigit, Bool.and_eq_true, decide_eq_true_eq, ge_iff_le, UInt32.le_iff_toNat_le] at h
  exact .inr (.inl h)

theorem IsPlain.not_isBlank (h : IsPlain c) : isBlank c = false := by
  unfold IsPlain at h
  simp only [isBlank, Bool.or_eq_false_iff, Bool.and_eq_false_iff, decide_eq_false_iff_not, beq_eq_false_iff_ne]
  omega

theorem IsPlain.octet_ne_minus (h : IsPlain c) : c.val.toUInt8 ≠ 45 := by
  intro heq
  unfold IsPlain at h
  have hoctet : c.toNat % 256 = 45 := congrArg UInt8.toNat heq
  omega

theorem IsPlain.utf8 (h : IsPlain c) : String.utf8EncodeChar c = [c.val.toUInt8] := by
  unfold IsPlain at h
  have hc : c.val.toNat ≤ 127 := by
    change c.toNat ≤ 127
    omega
  simp only [String.utf8EncodeChar, hc, ↓reduceIte]
  rfl

/-- Plain texts are octet for octet what they are character for character. -/
theorem Bytes.ofText_of_isPlain {s : String} (h : ∀ c ∈ s.toList, IsPlain c) :
    Bytes.ofText s = s.toList.map (·.val.toUInt8) := by
  have hsingle : s.toList.flatMap String.utf8EncodeChar = s.toList.flatMap fun c => [c.val.toUInt8] :=
    List.flatMap_congr fun c hc => (h c hc).utf8
  rw [Bytes.ofText, hsingle, List.map_eq_flatMap]

theorem dropWhile_isBlank (h : ∀ c ∈ cs, IsPlain c) : cs.dropWhile isBlank = cs := by
  cases cs with
  | nil => rfl
  | cons c cs => rw [List.dropWhile_cons_of_neg (by simp [(h c List.mem_cons_self).not_isBlank])]

/-- There are no blanks around a plain text. -/
theorem trimBlanks_of_isPlain (h : ∀ c ∈ cs, IsPlain c) : trimBlanks cs = cs := by
  rw [trimBlanks, dropWhile_isBlank h, dropWhile_isBlank (by simpa using h), List.reverse_reverse]

theorem Scalar.ofList_trimmed {s : String} (h : ∀ c ∈ s.toList, IsPlain c) : String.ofList (Scalar.trimmed s) = s := by
  rw [Scalar.trimmed, trimBlanks_of_isPlain h, String.ofList_toList]

/-! ## Whole numbers -/

/-- What is filled into a text as a text stays as it is. -/
@[simp]
theorem toString_text (s : String) : toString s = s := rfl

theorem toList_toString (n : Nat) : (toString n).toList = Nat.toDigits 10 n := Nat.toList_repr

theorem isDigit_of_mem_toString {n : Nat} (h : c ∈ (toString n).toList) : c.isDigit := by
  rw [toList_toString] at h
  exact Nat.isDigit_of_mem_toDigits (by decide) (by decide) h

theorem isPlain_of_mem_toString {n : Nat} (h : c ∈ (toString n).toList) : IsPlain c :=
  isPlain_of_isDigit (isDigit_of_mem_toString h)

/-- A whole number that was written is read back. -/
theorem Scalar.toNatBelow_toString {n limit : Nat} (name : String) (hn : n < limit) (hlimit : limit ≤ UInt64.size) :
    (Scalar.text (toString n)).toNatBelow limit name = .ok n := by
  have hplain : ∀ c ∈ (toString n).toList, IsPlain c := fun _ => isPlain_of_mem_toString
  have hoctets : Bytes.ofText (toString n) = Bytes.decimal n := by
    rw [Bytes.ofText_of_isPlain hplain, toList_toString, Bytes.decimal]
  have hread : (Scalar.text (toString n)).toNat name = .ok n := by
    simp only [Scalar.toNat, Scalar.ofList_trimmed hplain, hoctets,
      Numeral.unsigned?_decimal (Nat.lt_of_lt_of_le hn hlimit)]
  rw [Scalar.toNatBelow, hread]
  exact if_pos hn

/-! ## Doubles -/

namespace Binary64

variable {x : Binary64}

theorem isNegative_signed {m : Nat} (h : m < signUnit) : (signed false m).isNegative = false := by
  have hunit : signUnit = 0x8000000000000000 := rfl
  have hword : (signed false m).word = m := by
    simp only [signed, word, Bool.false_eq_true, ↓reduceIte, Nat.add_zero, Nat.toUInt64_eq, UInt64.toNat_ofNat']
    omega
  rw [isNegative, hword]
  simpa using h

theorem isNegative_infinity : (infinity false).isNegative = false := isNegative_signed (by decide)

theorem isNegative_nan : nan.isNegative = false := isNegative_signed (by norm_num [fieldUnit, signUnit])

/-- What is rounded without a sign is not negative. -/
theorem isNegative_nearest (n d : Nat) : (nearest false n d).isNegative = false := by
  have hbound : 2047 * fieldUnit < signUnit := by decide
  unfold nearest
  split_ifs
  · exact isNegative_signed (by decide)
  · simp only
    split_ifs with hlarge
    · exact isNegative_infinity
    · exact isNegative_signed (by omega)

theorem isNegative_ofDigits (ds : Bytes) (e : Int) : (ofDigits false ds e).isNegative = false := by
  unfold ofDigits ofDecimal
  simp only
  split_ifs
  · exact isNegative_signed (by decide)
  · exact isNegative_infinity
  · exact isNegative_nearest _ _

theorem isNegative_decimal? {s : Bytes} (h : decimal? false s = some x) : x.isNegative = false := by
  simp only [decimal?] at h
  split_ifs at h
  obtain ⟨e, -, rfl⟩ := Option.map_eq_some_iff.1 h
  exact isNegative_ofDigits _ _

/-- A text that does not begin with a minus sign gives a number that is not negative. -/
theorem isNegative_ofText? {s : Bytes} (h : ofText? s = some x) (hs : (45 : UInt8) ∉ s) : x.isNegative = false := by
  unfold ofText? at h
  split at h
  next negative body hbody =>
    have hsign : negative = false := by
      split at hbody
      · exact absurd List.mem_cons_self hs
      · exact (Prod.mk.inj hbody).1.symm
      · exact (Prod.mk.inj hbody).1.symm
    subst hsign
    split at h
    · next y hy =>
      obtain rfl := Option.some.inj h
      exact isNegative_decimal? hy
    · simp only at h
      split_ifs at h
      · obtain rfl := Option.some.inj h
        exact isNegative_infinity
      · obtain rfl := Option.some.inj h
        exact isNegative_nan

theorem isPlain_of_mem_positional {n : Nat} {k : Int} (h : c ∈ positional n k) : IsPlain c := by
  have hdigit : ∀ d ∈ Nat.toDigits 10 n, IsPlain d := fun d hd =>
    isPlain_of_isDigit (Nat.isDigit_of_mem_toDigits (by decide) (by decide) hd)
  have hzero : ∀ m, ∀ d ∈ List.replicate m '0', IsPlain d := fun m d hd => by
    rw [List.eq_of_mem_replicate hd]
    decide
  simp only [positional] at h
  split_ifs at h
  · rcases List.mem_append.1 h with h | h
    · exact hdigit c h
    · exact hzero _ c h
  · rcases List.mem_append.1 h with h | h
    · exact hdigit c (List.mem_of_mem_take h)
    · rcases List.mem_cons.1 h with rfl | h
      · decide
      · exact hdigit c (List.mem_of_mem_drop h)
  · simp only [List.mem_append, List.mem_cons] at h
    rcases h with (rfl | rfl | h) | h
    · decide
    · decide
    · exact hzero _ c h
    · exact hdigit c h

/-- A number that is not negative is written without a sign. -/
theorem isPlain_of_mem_toText (hx : x.isNegative = false) (h : c ∈ x.toText.toList) : IsPlain c := by
  have hword : ∀ w : List Char, w.all (fun d => decide (IsPlain d)) → c ∈ w → IsPlain c := by
    intro w hw hc
    exact of_decide_eq_true (List.all_eq_true.1 hw c hc)
  unfold toText at h
  split at h
  · exact hword _ (by decide) h
  · simp only [String.toList_ofList, hx, Bool.false_eq_true, ↓reduceIte] at h
    split_ifs at h
    · exact hword _ (by decide) h
    · exact hword _ (by decide) h
    · exact isPlain_of_mem_positional h

end Binary64

/-! ## Timeouts -/

namespace Timespan

variable {t : Timespan} {x : Binary64}

/-- A double that gives a span is finite. -/
theorem isFinite_of_ofBinary64? (h : ofBinary64? x = some t) : x.isFinite := by
  by_contra hinfinite
  have hfield : x.field = 2047 := by simpa [Binary64.isFinite] using hinfinite
  have hscale : x.scale = 972 := by simp [Binary64.scale, hfield]
  have hratio : UInt64.size * x.ratio.2 ≤ x.ratio.1 := by
    have hpower : Binary64.powerRatio 2 x.scale = (2 ^ x.scale.toNat, 1) := if_pos (by omega)
    have hlead : 0 < x.significand := by
      rw [Binary64.significand, if_neg (by omega)]
      exact Nat.add_pos_left (by decide) _
    simp only [Binary64.ratio, hpower, Nat.mul_one]
    calc UInt64.size = 2 ^ 64 := rfl
      _ ≤ 2 ^ x.scale.toNat := Nat.pow_le_pow_right (by omega) (by omega)
      _ ≤ x.significand * 2 ^ x.scale.toNat := Nat.le_mul_of_pos_left _ hlead
  simp [ofBinary64?, hratio] at h

/-- A double that gives a span of some length is not zero. -/
theorem isZero_of_ofBinary64? (h : ofBinary64? x = some t) (ht : 0 < t.nanoseconds) : x.isZero = false := by
  by_contra hzero
  have hparts : x.field = 0 ∧ x.fraction = 0 := by simpa [Binary64.isZero] using hzero
  have hratio : x.ratio.1 = 0 := by simp [Binary64.ratio, Binary64.significand, hparts]
  simp only [ofBinary64?, hratio, Nat.zero_mul] at h
  split_ifs at h
  have hspan := congrArg nanoseconds (Option.some.inj h)
  simp [roundHalfEven] at hspan
  omega

/-- The decimal text of its seconds gives the span back. -/
def Readable (t : Timespan) : Prop :=
  (Binary64.ofText? (Bytes.ofText t.toBinary64.toText)).bind ofBinary64? = some t

instance (t : Timespan) : Decidable t.Readable := inferInstanceAs (Decidable (_ = _))

end Timespan

/-- Timeouts that are written as they can be read: none, the usual five seconds, or any other positive one that its text
gives back. -/
def Restorable (timeout : Option Timespan) : Prop :=
  ∀ t, timeout = some t → t = .ofSeconds 5 ∨ (0 < t.nanoseconds ∧ t.Readable)

theorem readable_five : (Timespan.ofSeconds 5).Readable := by decide +kernel

theorem Restorable.readable {t : Timespan} (h : Restorable (some t)) : 0 < t.nanoseconds ∧ t.Readable := by
  rcases h t rfl with rfl | h
  · exact ⟨by decide, readable_five⟩
  · exact h

theorem isPlain_of_mem_showTimeout {timeout : Option Timespan} (h : c ∈ (Endpoint.showTimeout timeout).toList) :
    IsPlain c := by
  cases timeout with
  | none =>
    obtain rfl : c = '0' := by simpa [Endpoint.showTimeout] using h
    decide
  | some t => exact Binary64.isPlain_of_mem_toText (Binary64.isNegative_nearest _ _) h

/-- A plain text of a double is read as it stands. -/
theorem Scalar.toBinary64_of_isPlain {s : String} {x : Binary64} (name : String) (hs : ∀ c ∈ s.toList, IsPlain c)
    (hx : Binary64.ofText? (Bytes.ofText s) = some x) : (Scalar.text s).toBinary64 name = .ok x := by
  simp only [Scalar.toBinary64, Scalar.ofList_trimmed hs, hx]

/-- **A timeout that was written is read back.** -/
theorem Scalar.toTimeout_showTimeout {timeout : Option Timespan} (name : String) (h : Restorable timeout) :
    (Scalar.text (Endpoint.showTimeout timeout)).toTimeout name = .ok timeout := by
  have hplain : ∀ c ∈ (Endpoint.showTimeout timeout).toList, IsPlain c := fun _ => isPlain_of_mem_showTimeout
  cases timeout with
  | none =>
    have hzero : Binary64.ofText? (Bytes.ofText (Endpoint.showTimeout none)) = some (.signed false 0) := by
      decide +kernel
    rw [Scalar.toTimeout, Scalar.toBinary64_of_isPlain name hplain hzero]
    rfl
  | some t =>
    obtain ⟨ht, hread⟩ := h.readable
    obtain ⟨x, hx, hspan⟩ := Option.bind_eq_some_iff.1 hread
    have hfinite := Timespan.isFinite_of_ofBinary64? hspan
    have hsign : (45 : UInt8) ∉ Bytes.ofText (Endpoint.showTimeout (some t)) := by
      rw [Bytes.ofText_of_isPlain hplain]
      intro hmem
      obtain ⟨c, hc, heq⟩ := List.mem_map.1 hmem
      exact (hplain c hc).octet_ne_minus heq
    have hpositive : x.isPositive := by
      have hnan : x.isNaN = false := by
        simp only [Binary64.isFinite, bne_iff_ne] at hfinite
        simp [Binary64.isNaN, hfinite]
      simp [Binary64.isPositive, Binary64.isNegative_ofText? hx hsign, Timespan.isZero_of_ofBinary64? hspan ht, hnan]
    rw [Scalar.toTimeout, Scalar.toBinary64_of_isPlain name hplain hx]
    simp only [Except.bind, hfinite, hpositive, Bool.and_self, ↓reduceIte, hspan]

end RespClient
