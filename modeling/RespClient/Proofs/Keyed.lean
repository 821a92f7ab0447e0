/-
Lists whose items have distinct keys, such as members by node id: an item's place and its key say the same.

- `place_unique`, `eraseIdx_eq_filter`, `set_eq_map`: places and keys.
- `collect`: items join one after the other, each in place of the one with its key. `mem_collect`: the last one of every key
  is there in the end.
- `Seats`: where the items have come to in the end. `exists_seats`: items share a seat iff they share the key.
-/
import Mathlib.Data.List.Induction
import Mathlib.Data.List.Nodup

namespace RespClient.Keyed

variable {α κ : Type} {key : α → κ} {l : List α} {i j : Nat}

/-- Distinct keys, one key: one place. -/
theorem place_unique (h : (l.map key).Nodup) (hi : i < l.length) (hj : j < l.length) (hkey : key l[i] = key l[j]) :
    i = j := by
  have hitem : l[i] = l[j] := List.inj_on_of_nodup_map h (List.getElem_mem hi) (List.getElem_mem hj) hkey
  exact h.of_map.getElem_inj_iff.1 hitem

variable [DecidableEq κ]

/-- To take out the item at a place is to take out the key. -/
theorem eraseIdx_eq_filter (h : (l.map key).Nodup) (hi : i < l.length) :
    l.eraseIdx i = l.filter fun a => key a ≠ key l[i] := by
  induction l generalizing i with
  | nil => contradiction
  | cons a l ih =>
    obtain ⟨hnew, hl⟩ := List.nodup_cons.1 h
    cases i with
    | zero =>
      have hkeep : l.filter (fun b => key b ≠ key a) = l := by
        refine List.filter_eq_self.2 fun b hb => ?_
        have hne : key b ≠ key a := fun heq => hnew (heq ▸ List.mem_map_of_mem hb)
        exact decide_eq_true hne
      rw [List.eraseIdx_cons_zero, List.getElem_cons_zero, List.filter_cons_of_neg (by simp), hkeep]
    | succ i =>
      have hlt : i < l.length := Nat.lt_of_succ_lt_succ hi
      have hne : key a ≠ key l[i] := by
        intro heq
        exact hnew (heq ▸ List.mem_map_of_mem (List.getElem_mem hlt))
      rw [List.eraseIdx_cons_succ, List.getElem_cons_succ, List.filter_cons_of_pos (by simpa using hne), ih hl hlt]

/-- To replace the item at a place is to replace the one with the key. -/
theorem set_eq_map (h : (l.map key).Nodup) (hi : i < l.length) (b : α) :
    l.set i b = l.map fun a => if key a = key l[i] then b else a := by
  refine List.ext_getElem (by simp) fun j hj _ => ?_
  rw [List.length_set] at hj
  rw [List.getElem_set, List.getElem_map]
  by_cases hij : i = j
  · subst hij
    simp
  · have hne : key l[j] ≠ key l[i] := fun hkey => hij (place_unique h hj hi hkey).symm
    rw [if_neg hij, if_neg hne]

/-! ## Joining one after the other -/

/-- An item joins, in place of the one with its key, or else after the others. -/
def put (key : α → κ) (l : List α) (a : α) : List α :=
  if key a ∈ l.map key then l.map fun b => if key b = key a then a else b else l ++ [a]

theorem mem_put {a b : α} : b ∈ put key l a ↔ b = a ∨ b ∈ l ∧ key b ≠ key a := by
  unfold put
  split_ifs with hmem
  · obtain ⟨old, hold, hkey⟩ := List.mem_map.1 hmem
    rw [List.mem_map]
    constructor
    · rintro ⟨c, hc, rfl⟩
      split_ifs with heq
      · exact .inl rfl
      · exact .inr ⟨hc, heq⟩
    · rintro (rfl | ⟨hb, hne⟩)
      · exact ⟨old, hold, if_pos hkey⟩
      · exact ⟨b, hb, if_neg hne⟩
  · rw [List.mem_append, List.mem_singleton, or_comm]
    refine or_congr_right (and_iff_left_of_imp fun hb heq => hmem ?_).symm
    exact heq ▸ List.mem_map_of_mem hb

theorem nodup_put (h : (l.map key).Nodup) (a : α) : ((put key l a).map key).Nodup := by
  unfold put
  split_ifs with hmem
  · have hsame : (l.map fun b => if key b = key a then a else b).map key = l.map key := by
      rw [List.map_map]
      refine List.map_congr_left fun b _ => ?_
      by_cases heq : key b = key a <;> simp [heq]
    rw [hsame]
    exact h
  · rw [List.map_append]
    exact List.nodup_append_comm.1 (List.nodup_cons.2 ⟨hmem, h⟩)

/-- Items join one after the other. -/
def collect (key : α → κ) (items : List α) : List α := items.foldl (put key) []

theorem collect_concat (key : α → κ) (items : List α) (a : α) :
    collect key (items ++ [a]) = put key (collect key items) a := List.foldl_concat ..

theorem nodup_collect (key : α → κ) (items : List α) : ((collect key items).map key).Nodup := by
  induction items using List.reverseRecOn with
  | nil => exact List.nodup_nil
  | append_singleton items a ih =>
    rw [collect_concat]
    exact nodup_put ih a

/-- **Who is there in the end:** the items with no later one of the same key. -/
theorem mem_collect {items : List α} {a : α} :
    a ∈ collect key items ↔ ∃ before after, items = before ++ a :: after ∧ ∀ b ∈ after, key b ≠ key a := by
  induction items using List.reverseRecOn with
  | nil => simp [collect]
  | append_singleton items x ih =>
    rw [collect_concat, mem_put, ih]
    constructor
    · rintro (rfl | ⟨⟨before, after, rfl, hafter⟩, hne⟩)
      · exact ⟨items, [], rfl, List.forall_mem_nil _⟩
      · refine ⟨before, after ++ [x], by simp, ?_⟩
        intro b hb
        rcases List.mem_append.1 hb with hb | hb
        · exact hafter b hb
        · rw [List.mem_singleton.1 hb]
          exact hne.symm
    · rintro ⟨before, after, heq, hafter⟩
      rcases List.eq_nil_or_concat after with rfl | ⟨after, y, rfl⟩
      · obtain ⟨-, hx⟩ := List.append_inj' heq rfl
        exact .inl (List.singleton_inj.1 hx).symm
      · rw [List.concat_eq_append] at heq hafter
        obtain ⟨rfl, hx⟩ := List.append_inj' (heq.trans (List.append_assoc before (a :: after) [y]).symm) rfl
        obtain rfl := List.singleton_inj.1 hx
        refine .inr ⟨⟨before, after, rfl, fun b hb => hafter b (List.mem_append_left _ hb)⟩, ?_⟩
        exact (hafter x List.mem_concat_self).symm

/-- Where items that joined have come to: every one has a seat among those there in the end, two share a seat iff they are
the same, and on every seat is the last one that came to it. -/
structure Seats (Same : α → α → Prop) (items l : List α) (seat : Nat → Nat) : Prop where
  lt : ∀ i < items.length, seat i < l.length
  shared : ∀ i j (hi : i < items.length) (hj : j < items.length), seat i = seat j ↔ Same items[i] items[j]
  latest : ∀ k (hk : k < l.length), ∃ i, ∃ hi : i < items.length,
    seat i = k ∧ l[k] = items[i] ∧ ∀ j < items.length, seat j = k → j ≤ i

theorem mem_keys_collect {items : List α} {k : κ} : k ∈ (collect key items).map key ↔ k ∈ items.map key := by
  induction items using List.reverseRecOn with
  | nil => exact Iff.rfl
  | append_singleton items a ih =>
    rw [collect_concat, List.map_append, List.mem_append, ← ih, List.map_singleton, List.mem_singleton]
    simp only [List.mem_map, mem_put]
    constructor
    · rintro ⟨b, rfl | ⟨hb, -⟩, rfl⟩
      · exact .inr rfl
      · exact .inl ⟨b, hb, rfl⟩
    · rintro (⟨b, hb, rfl⟩ | rfl)
      · by_cases heq : key b = key a
        · exact ⟨a, .inl rfl, heq.symm⟩
        · exact ⟨b, .inr ⟨hb, heq⟩, rfl⟩
      · exact ⟨a, .inl rfl, rfl⟩

/-- **Items share a seat iff they share the key.** -/
theorem exists_seats (key : α → κ) (items : List α) :
    ∃ seat, Seats (fun a b => key a = key b) items (collect key items) seat := by
  let keys : List κ := (collect key items).map key
  let seat (i : Nat) : Nat := (items[i]?.map fun a => keys.idxOf (key a)).getD 0
  have hseat : ∀ i (hi : i < items.length), seat i = keys.idxOf (key items[i]) := by
    intro i hi
    simp only [seat, List.getElem?_eq_getElem hi, Option.map_some, Option.getD_some]
  have hkey : ∀ i (hi : i < items.length), key items[i] ∈ keys := fun i hi =>
    mem_keys_collect.2 (List.mem_map_of_mem (List.getElem_mem hi))
  refine ⟨seat, ?_, ?_, ?_⟩
  · intro i hi
    rw [hseat i hi, ← List.length_map key]
    exact List.idxOf_lt_length_of_mem (hkey i hi)
  · intro i j hi hj
    rw [hseat i hi, hseat j hj]
    exact List.idxOf_inj (hkey i hi)
  · intro k hk
    -- the item on the seat is the last one of its key
    obtain ⟨a, ha⟩ : ∃ a, (collect key items)[k] = a := ⟨_, rfl⟩
    have hplace : keys.idxOf (key a) = k := by
      have hk' : k < keys.length := by rwa [List.length_map]
      have hget : keys[k] = key a := (List.getElem_map key).trans (congrArg key ha)
      rw [← hget]
      exact (nodup_collect key items).idxOf_getElem k hk'
    obtain ⟨before, after, hitems, hafter⟩ := mem_collect.1 (ha ▸ List.getElem_mem hk)
    have hitem : items[before.length]? = some a := by
      rw [hitems, List.getElem?_append_right (Nat.le_refl _), Nat.sub_self, List.getElem?_cons_zero]
    obtain ⟨hlt, hget⟩ := List.getElem?_eq_some_iff.1 hitem
    refine ⟨before.length, hlt, ?_, ha.trans hget.symm, ?_⟩
    · rw [hseat _ hlt, hget, hplace]
    · intro j hj hjk
      by_contra hgt
      have hlater : items[j] ∈ after := by
        have hj' : items[j]? = after[j - (before.length + 1)]? := by
          rw [hitems, List.getElem?_append_right (by omega), List.getElem?_cons, if_neg (by omega)]
          congr 1
        exact List.mem_of_getElem? (hj'.symm.trans (List.getElem?_eq_getElem hj))
      refine hafter _ hlater (List.idxOf_inj (hkey j hj) |>.1 ?_)
      rw [← hseat j hj, hjk, hplace]

end RespClient.Keyed
