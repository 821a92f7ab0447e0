/-
Keys in a namespace. Octets are put before the arguments at some places, and which places those are can depend on one of the
arguments, the one that counts the keys.

- `KeyLayout.positions_sorted`, `KeyLayout.lt_of_mem_positions`: the places come in order, each once, and are places of
  arguments, whatever the count says.
- `KeyLayout.CountsApart`: the count is not itself a key, as in the catalogue. Then `positions_congr` keeps the places, since
  nothing else of the arguments matters but their number.
- `KeyPrefix.getElem?_extend`: what stands where afterwards; `apply_eq`: a command without keys is no exception.
- `KeyPrefix.namespace_law`: all that, and two namespaces are one.
-/
import Mathlib.Data.List.Nodup
import RespClient.Catalogue
import RespClient.KeyPrefix

namespace RespClient

/-! ## Places of keys -/

namespace KeyLayout

variable {layout : KeyLayout} {args args' : List Bytes} {i : Nat}

theorem positions_sorted (layout : KeyLayout) (args : List Bytes) :
    (layout.positions args).Pairwise (· < ·) := by
  cases layout with
  | keyless => exact .nil
  | first | every | butLast count => exact List.pairwise_lt_range
  | alternate =>
    refine List.pairwise_map.2 (List.pairwise_lt_range.imp fun {i j} hij => ?_)
    omega
  | counted countAt leading =>
    refine List.pairwise_append.2 ⟨?_, List.pairwise_lt_range', ?_⟩
    · split_ifs
      · exact List.pairwise_singleton _ _
      · exact .nil
    · -- the leading key is before the count, and the others are behind it
      intro i hi j hj
      have hzero : i = 0 := List.mem_singleton.1 (List.mem_ite_nil_right.1 hi).2
      have hbehind := (List.mem_range'_1.1 hj).1
      omega

/-- The keys of a counted layout: the leading one, and those behind the count. -/
theorem mem_positions_counted {countAt : Nat} {leading : Bool} :
    i ∈ (counted countAt leading).positions args ↔ (leading = true ∧ 0 < args.length ∧ i = 0) ∨
      countAt < i ∧ i ≤ countAt + declared countAt args ∧ i < args.length := by
  simp only [positions, List.mem_append, List.mem_ite_nil_right, List.mem_singleton, List.mem_range'_1,
    Bool.and_eq_true, Bool.not_eq_true', List.isEmpty_eq_false_iff, ← List.length_pos_iff, and_assoc]
  refine or_congr_right ?_
  omega

theorem lt_of_mem_positions (h : i ∈ layout.positions args) : i < args.length := by
  cases layout with
  | keyless => exact absurd h List.not_mem_nil
  | first | every | butLast count =>
    have hlt := List.mem_range.1 h
    omega
  | alternate =>
    obtain ⟨j, hj, rfl⟩ := List.mem_map.1 h
    have hlt := List.mem_range.1 hj
    omega
  | counted countAt leading =>
    rcases mem_positions_counted.1 h with ⟨-, hpos, rfl⟩ | ⟨-, -, hlt⟩
    · exact hpos
    · exact hlt

/-- The argument that counts the keys is not itself the leading key. -/
def CountsApart (layout : KeyLayout) : Prop := layout ≠ .counted 0 true

instance (layout : KeyLayout) : Decidable layout.CountsApart := inferInstanceAs (Decidable (¬_))

/-- The count is at no place of a key. -/
theorem CountsApart.not_mem {countAt : Nat} {leading : Bool} (h : (counted countAt leading).CountsApart)
    (args : List Bytes) : countAt ∉ (counted countAt leading).positions args := by
  intro hmem
  rcases mem_positions_counted.1 hmem with ⟨rfl, -, rfl⟩ | ⟨hlt, -⟩
  · exact h rfl
  · exact absurd hlt (Nat.lt_irrefl countAt)

/-- Only the number of arguments and the count matter. -/
theorem positions_congr (hlength : args'.length = args.length)
    (hcount : ∀ countAt leading, layout = .counted countAt leading → args'[countAt]? = args[countAt]?) :
    layout.positions args' = layout.positions args := by
  cases layout with
  | keyless => rfl
  | first | every | alternate | butLast count => simp only [positions, hlength]
  | counted countAt leading =>
    have hempty : args'.isEmpty = args.isEmpty := by
      rw [Bool.eq_iff_iff, List.isEmpty_iff_length_eq_zero, List.isEmpty_iff_length_eq_zero, hlength]
    simp only [positions, declared, hlength, hempty, hcount countAt leading rfl]

end KeyLayout

theorem Catalogue.countsApart_standard : ∀ spec ∈ standard.specs, spec.keys.CountsApart := by decide

/-! ## Octets before keys -/

namespace KeyPrefix

variable {p : KeyPrefix} {places : List Nat} {c : Command}

/-- **What stands where afterwards:** the octets are before the arguments at the places, once, and the others are the same. -/
theorem getElem?_extend (p : KeyPrefix) (h : places.Nodup) (args : List Bytes) (i : Nat) :
    (p.extend places args)[i]? = if i ∈ places then args[i]?.map (p.octets ++ ·) else args[i]? := by
  induction places generalizing args with
  | nil => rfl
  | cons j places ih =>
    obtain ⟨hj, hplaces⟩ := List.nodup_cons.1 h
    have hcons : p.extend (j :: places) args = p.extend places (args.modify j (p.octets ++ ·)) := rfl
    rw [hcons, ih hplaces, List.getElem?_modify]
    by_cases hij : j = i
    · subst hij
      simp [hj]
    · have hne : i ≠ j := Ne.symm hij
      simp [hij, hne]

theorem length_extend (p : KeyPrefix) (places : List Nat) (args : List Bytes) :
    (p.extend places args).length = args.length := by
  induction places generalizing args with
  | nil => rfl
  | cons j places ih => exact (ih _).trans (List.length_modify ..)

/-- No octets change nothing. -/
theorem extend_of_isEmpty (h : p.octets = []) (hplaces : places.Nodup) (args : List Bytes) :
    p.extend places args = args := by
  refine List.ext_getElem? fun i => ?_
  rw [getElem?_extend p hplaces, h]
  simp

theorem positions_nodup (c : Command) : (c.spec.keys.positions c.arguments).Nodup :=
  (c.spec.keys.positions_sorted c.arguments).imp Nat.ne_of_lt

/-- A command with nothing to extend is no exception. -/
theorem apply_eq (p : KeyPrefix) (c : Command) :
    p.apply c = c.setArguments (p.extend (c.spec.keys.positions c.arguments) c.arguments) := by
  unfold apply arguments?
  by_cases hnone : (p.octets.isEmpty || (c.spec.keys.positions c.arguments).isEmpty) = true
  · have hsame : p.extend (c.spec.keys.positions c.arguments) c.arguments = c.arguments := by
      rw [Bool.or_eq_true, List.isEmpty_iff, List.isEmpty_iff] at hnone
      rcases hnone with hoctets | hkeys
      · exact extend_of_isEmpty hoctets (positions_nodup c) c.arguments
      · rw [hkeys]
        rfl
    simp only [hnone, ↓reduceIte, hsame]
    rfl
  · simp only [hnone, Bool.false_eq_true, ↓reduceIte]

/-- What a namespace makes of a command. -/
structure Extends (p : KeyPrefix) (c c' : Command) : Prop where
  spec : c'.spec = c.spec
  script : c'.script = c.script
  length : c'.arguments.length = c.arguments.length
  keys : ∀ i ∈ c.spec.keys.positions c.arguments, c'.arguments[i]? = c.arguments[i]?.map (p.octets ++ ·)
  others : ∀ i ∉ c.spec.keys.positions c.arguments, c'.arguments[i]? = c.arguments[i]?
  positions : c'.spec.keys.positions c'.arguments = c.spec.keys.positions c.arguments

theorem extends_apply (p : KeyPrefix) (hc : c.spec.keys.CountsApart) : p.Extends c (p.apply c) := by
  have hplace := getElem?_extend p (positions_nodup c) c.arguments
  have hlength := length_extend p (c.spec.keys.positions c.arguments) c.arguments
  rw [apply_eq]
  refine ⟨rfl, rfl, hlength, ?_, ?_, ?_⟩
  · intro i hi
    exact (hplace i).trans (if_pos hi)
  · intro i hi
    exact (hplace i).trans (if_neg hi)
  · refine KeyLayout.positions_congr hlength fun countAt leading hlayout => ?_
    have hcount : countAt ∉ c.spec.keys.positions c.arguments := by
      have hspec : c.spec.keys = .counted countAt leading := hlayout
      rw [hspec] at hc ⊢
      exact hc.not_mem c.arguments
    exact (hplace countAt).trans (if_neg hcount)

/-- The octets of one namespace before those of another. -/
theorem apply_apply (p q : KeyPrefix) (hc : c.spec.keys.CountsApart) :
    q.apply (p.apply c) = (⟨q.octets ++ p.octets⟩ : KeyPrefix).apply c := by
  have hpositions := (extends_apply p hc).positions
  rw [apply_eq q, hpositions, apply_eq, apply_eq]
  refine congrArg (Command.mk c.spec · c.script) (List.ext_getElem? fun i => ?_)
  show (q.extend _ (p.extend _ c.arguments))[i]? = _
  rw [getElem?_extend q (positions_nodup c), getElem?_extend p (positions_nodup c), getElem?_extend _ (positions_nodup c)]
  split_ifs
  · rw [Option.map_map]
    simp only [Function.comp_def, List.append_assoc]
  · rfl

/-- **The law of namespaces.** The places of a command's keys come in order and are places of arguments. A namespace puts its
octets before the arguments there, once, and changes nothing else, not even the places; one namespace in another is one. -/
theorem namespace_law (c : Command) (hc : c.spec.keys.CountsApart) :
    (c.spec.keys.positions c.arguments).Pairwise (· < ·) ∧
    (∀ i ∈ c.spec.keys.positions c.arguments, i < c.arguments.length) ∧
    (∀ p : KeyPrefix, p.Extends c (p.apply c)) ∧
    ∀ p q : KeyPrefix, q.apply (p.apply c) = (⟨q.octets ++ p.octets⟩ : KeyPrefix).apply c :=
  ⟨c.spec.keys.positions_sorted c.arguments, fun _ => KeyLayout.lt_of_mem_positions, fun p => extends_apply p hc,
    fun p q => apply_apply p q hc⟩

/-- The law for a union of two sets: the destination leads, then come the count and the keys. -/
theorem namespace_law_union :
    let c : Command :=
      { spec := .named "ZUNIONSTORE" (.counted 1 true) .write, arguments := [[100], [50], [97], [98], [65]] }
    c.spec.keys.CountsApart ∧ c.spec.keys.positions c.arguments = [0, 2, 3] ∧
      ((⟨[112]⟩ : KeyPrefix).apply c).arguments = [[112, 100], [50], [112, 97], [112, 98], [65]] ∧
      (⟨[112]⟩ : KeyPrefix).Extends c ((⟨[112]⟩ : KeyPrefix).apply c) := by
  intro c
  have hc : c.spec.keys.CountsApart := by decide
  exact ⟨hc, by decide, by decide, (namespace_law c hc).2.2.1 ⟨[112]⟩⟩

end KeyPrefix

end RespClient
