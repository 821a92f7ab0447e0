/-
Cutting at separators what was joined with them.

- `cutFirst?_eq_none_iff`, `cutLast?_of_not_mem`: without the separator there is nothing to cut.
- `cutLast?_append`: the last separator is the one with none after it.
- `fields_intercalate`: joining pieces and taking the pieces apart again, where no piece has the separator in it.
-/
import RespClient.Proofs.Framing

namespace RespClient

variable {α : Type} [BEq α] {x : α} {l after : List α}

theorem fields_eq_splitOn (x : α) (l : List α) : fields x l = l.splitOn x := by
  induction l with
  | nil => rfl
  | cons a l ih =>
    rw [fields, ih, List.splitOn, List.splitOn, List.splitOnP_cons_eq_if_modifyHead]
    split_ifs with ha
    · rfl
    · cases hl : l.splitOnP (· == x) with
      | nil => exact absurd hl (List.splitOnP_ne_nil _ _)
      | cons f fs => rfl

variable [LawfulBEq α]

theorem cutFirst?_eq_none_iff : cutFirst? x l = none ↔ x ∉ l := by
  constructor
  · intro hcut hmem
    obtain ⟨before, after, rfl, hbefore⟩ := List.eq_append_cons_of_mem hmem
    rw [cutFirst?_append hbefore] at hcut
    contradiction
  · intro hmem
    cases hcut : cutFirst? x l with
    | none => rfl
    | some parts =>
      obtain ⟨rfl, -⟩ := cutFirst?_eq_some_iff.1 hcut
      exact absurd (List.mem_append_right _ List.mem_cons_self) hmem

theorem cutFirst?_of_not_mem (h : x ∉ l) : cutFirst? x l = none := cutFirst?_eq_none_iff.2 h

theorem cutLast?_of_not_mem (h : x ∉ l) : cutLast? x l = none := by
  rw [cutLast?, cutFirst?_of_not_mem (by rwa [List.mem_reverse]), Option.map_none]

theorem cutLast?_append (before : List α) (h : x ∉ after) :
    cutLast? x (before ++ x :: after) = some (before, after) := by
  have hreverse : (before ++ x :: after).reverse = after.reverse ++ x :: before.reverse := by simp
  rw [cutLast?, hreverse, cutFirst?_append (by rwa [List.mem_reverse])]
  simp

/-- **The pieces that were joined.** -/
theorem fields_intercalate {pieces : List (List α)} (hne : pieces ≠ []) (h : ∀ p ∈ pieces, x ∉ p) :
    fields x ([x].intercalate pieces) = pieces := by
  rw [fields_eq_splitOn, List.splitOn_intercalate x h hne]

end RespClient
