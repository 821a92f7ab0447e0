/-
What a ring answers, said without a search: the node of the least mark at or after a place, or of the least of all marks if
there is none. And which marks there are: as many of each node as its weight asks for.

- `Mark.Next`: the mark that the answer comes from, as a least element. `next_iff_first`: it is the first one going up.
- `points_unique`: the points can be put in order in one way only, so it does not matter how they are sorted.
- `exists_cut`: the points below a place come before the others, and whoever cuts there finds the owner.
- `marks_after`: the marks are those that the weights ask for.
- `lookup_law`: all that of every ring that a program reaches by changes, and which changes keep it from reaching one.
- `product_stops`: a weight whose product does not fit a word, and what its points would be.
-/
import Mathlib
import RespClient.Proofs.Keyed
import RespClient.Proofs.RingHistory

namespace RespClient

namespace Mark

variable {marks : List Mark} {h : UInt32} {p : Mark}

/-- The least mark at or after a place, or the least of all if there is none. -/
def Next (marks : List Mark) (h : UInt32) (p : Mark) : Prop :=
  p ∈ marks ∧ (h ≤ p.1 ∧ (∀ q ∈ marks, h ≤ q.1 → p.Le q) ∨ (∀ q ∈ marks, q.1 < h) ∧ ∀ q ∈ marks, p.Le q)

theorem next_iff_first : Next marks h p ↔ First marks h p := by
  refine and_congr_right fun hp => ?_
  constructor
  · rintro (⟨hup, hleast⟩ | ⟨hbelow, hleast⟩)
    · intro q hq
      by_cases hqup : h ≤ q.1
      · exact .inr ⟨iff_of_true hup hqup, hleast q hq hqup⟩
      · exact .inl ⟨hup, UInt32.not_le.1 hqup⟩
    · intro q hq
      exact .inr ⟨iff_of_false (UInt32.not_le.2 (hbelow p hp)) (UInt32.not_le.2 (hbelow q hq)), hleast q hq⟩
  · intro hfirst
    by_cases hup : h ≤ p.1
    · refine .inl ⟨hup, fun q hq hqup => ?_⟩
      rcases hfirst q hq with ⟨-, hqbelow⟩ | ⟨-, hle⟩
      · exact absurd hqup (UInt32.not_le.2 hqbelow)
      · exact hle
    · have hrest : ∀ q ∈ marks, (h ≤ p.1 ↔ h ≤ q.1) ∧ p.Le q := fun q hq =>
        (hfirst q hq).resolve_left fun hsooner => hup hsooner.1
      refine .inr ⟨fun q hq => ?_, fun q hq => (hrest q hq).2⟩
      exact UInt32.not_le.1 fun hqup => hup ((hrest q hq).1.2 hqup)

end Mark

namespace Ring

variable {r : Ring} {h : UInt32} {replicas weight : Nat} {hash : Bytes → UInt32} {changes : List Change}

/-! ## Searching -/

namespace Sound

/-- Points that stand level are the same: equal numbers, equal node ids, and so the same place. -/
theorem before_antisymm (hr : r.Sound) {a b : UInt32 × Fin r.nodes.length} (hab : before r.nodes a b = true)
    (hba : before r.nodes b a = true) : a = b := by
  have hmark := ((before_iff a b).1 hab).antisymm ((before_iff b a).1 hba)
  obtain ⟨hnumber, hname⟩ := Prod.mk.inj hmark
  exact Prod.ext hnumber (Fin.ext (Keyed.place_unique hr.distinct a.2.2 b.2.2 hname))

/-- **There is one order of the points.** However equal ones are treated, sorting comes to the same. -/
theorem points_unique (hr : r.Sound) {points : List (UInt32 × Fin r.nodes.length)} (hperm : points.Perm r.points)
    (hsorted : points.Pairwise fun a b => before r.nodes a b = true) : points = r.points := by
  have hpoints : r.points.Pairwise fun a b => before r.nodes a b = true :=
    (List.pairwise_map.1 hr.sorted).imp fun {a b} hab => (before_iff a b).2 hab
  exact hperm.eq_of_pairwise (fun _ _ _ _ => hr.before_antisymm) hsorted hpoints

theorem numbers_sorted (hr : r.Sound) : r.points.Pairwise fun a b => a.1 ≤ b.1 :=
  (List.pairwise_map.1 hr.sorted).imp fun {_ _} hab => hab.elim UInt32.le_of_lt fun heq => UInt32.le_of_eq heq.1

/-- **Where a search ends.** The points below a place stand before the others, and the owner of the place is the node of the
point after them, or else of the very first one. -/
theorem exists_cut (hr : r.Sound) (h : UInt32) : ∃ slot ≤ r.points.length,
    (∀ i (hi : i < r.points.length), r.points[i].1 < h ↔ i < slot) ∧
    r.owner h = r.points[if slot = r.points.length then 0 else slot]?.map fun p => nameAt r.nodes p.2 := by
  have hslot : r.points.findIdx (h ≤ ·.1) ≤ r.points.length := List.findIdx_le_length
  refine ⟨_, hslot, ?_, ?_⟩
  · intro i hi
    constructor
    · intro hbelow
      by_contra hge
      have hcut : r.points.findIdx (h ≤ ·.1) < r.points.length := by omega
      have hup : h ≤ r.points[r.points.findIdx (h ≤ ·.1)].1 := of_decide_eq_true (List.findIdx_getElem (w := hcut))
      have hle : r.points[r.points.findIdx (h ≤ ·.1)].1 ≤ r.points[i].1 := by
        rcases Nat.eq_or_lt_of_le (Nat.not_lt.1 hge) with heq | hlt
        · simp only [heq, UInt32.le_refl]
        · exact List.pairwise_iff_getElem.1 hr.numbers_sorted _ i hcut hi hlt
      exact UInt32.not_lt.2 (UInt32.le_trans hup hle) hbelow
    · intro hlt
      have hnot := List.not_of_lt_findIdx hlt
      exact UInt32.not_le.1 (of_decide_eq_false hnot)
  · unfold owner
    rw [List.find?_eq_getElem?_findIdx]
    split_ifs with hend
    · rw [hend, List.getElem?_eq_none (Nat.le_refl _), List.head?_eq_getElem?]
    · have hcut : r.points.findIdx (h ≤ ·.1) < r.points.length := by omega
      rw [List.getElem?_eq_getElem hcut]
      rfl

end Sound

/-! ## How many points -/

/-- How many points a weight asks for. -/
def quota (replicas weight : Nat) : Nat := max replicas 1 * weight / defaultWeight

/-- The marks that nodes ask for. -/
def marksFor (replicas : Nat) (hash : Bytes → UInt32) (nodes : List (String × Nat)) : List Mark :=
  nodes.flatMap fun n => (List.range (quota replicas n.2)).map fun i => (hash (Bytes.ofText s!"{n.1}:{i}"), n.1)

theorem share_after (weight : Nat) : ((empty replicas hash).after changes).share weight = quota replicas weight := by
  unfold share quota
  rw [replicas_after]
  rfl

/-- **Every node has the points that its weight asks for.** -/
theorem marks_after (replicas : Nat) (hash : Bytes → UInt32) (changes : List Change) :
    ((empty replicas hash).after changes).marks.Perm
      (marksFor replicas hash ((empty replicas hash).after changes).nodes) := by
  have hmarksOf : ((empty replicas hash).after changes).marksOf =
      fun n => (List.range (quota replicas n.2)).map fun i => (hash (Bytes.ofText s!"{n.1}:{i}"), n.1) := by
    funext n
    unfold marksOf point
    rw [share_after, hash_after]
    rfl
  have hmarks := (sound_after replicas hash changes).marks
  rw [hmarksOf] at hmarks
  exact hmarks

theorem marksFor_eq_nil_iff {nodes : List (String × Nat)} :
    marksFor replicas hash nodes = [] ↔ ∀ n ∈ nodes, quota replicas n.2 = 0 := by
  simp only [marksFor, List.flatMap_eq_nil_iff, List.map_eq_nil_iff, List.range_eq_nil]

/-! ## The law -/

/-- What holds of a ring of so many replicas after some changes. That every point has a place among the nodes is part of
its type. -/
structure LookupLaw (replicas : Nat) (hash : Bytes → UInt32) (changes : List Change) (r : Ring) : Prop where
  distinct : (r.nodes.map Prod.fst).Nodup
  nodes : ∀ name w, (name, w) ∈ r.nodes ↔ weights changes name = some w
  sorted : r.marks.Pairwise Mark.Le
  /-- no other way to sort the points leads elsewhere -/
  arranged : ∀ points : List (UInt32 × Fin r.nodes.length), points.Perm r.points →
    points.Pairwise (fun a b => before r.nodes a b = true) → points = r.points
  marks : r.marks.Perm (marksFor replicas hash r.nodes)
  owner : ∀ h node, r.owner h = some node ↔ ∃ p, Mark.Next r.marks h p ∧ p.2 = node
  cut : ∀ h, ∃ slot ≤ r.points.length, (∀ i (hi : i < r.points.length), r.points[i].1 < h ↔ i < slot) ∧
    r.owner h = r.points[if slot = r.points.length then 0 else slot]?.map fun p => nameAt r.nodes p.2
  nobody : ∀ h, r.owner h = none ↔ ∀ n ∈ r.nodes, quota replicas n.2 = 0

theorem lookupLaw_after (replicas : Nat) (hash : Bytes → UInt32) (changes : List Change) :
    LookupLaw replicas hash changes ((empty replicas hash).after changes) := by
  have hr := sound_after replicas hash changes
  have hmarks := marks_after replicas hash changes
  exact {
    distinct := hr.distinct
    nodes := fun name w => mem_nodes_after
    sorted := hr.sorted
    arranged := fun points => hr.points_unique
    marks := hmarks
    owner := by
      intro h node
      rw [hr.owner_eq_some_iff]
      simp only [Mark.next_iff_first]
    cut := hr.exists_cut
    nobody := by
      intro h
      rw [hr.owner_eq_none_iff, ← marksFor_eq_nil_iff]
      constructor
      · intro hnil
        exact (hnil ▸ hmarks).nil_eq.symm
      · intro hnil
        exact (hnil ▸ hmarks).eq_nil }

/-- **The lookup law.** As long as the product of replicas and weight fits a word for every node that joins, changes lead to
a ring, whatever the hash: its node ids are distinct and those that the changes leave, its marks stand in order and are those
of `replicas * weight / 100` points for each node, and the owner of a place is the node of the least mark at or after it, or
of the least of all if there is none. The first product that does not fit stops the program, and there is no ring. -/
theorem lookup_law (replicas : Nat) (hash : Bytes → UInt32) (changes : List Change) :
    ((∀ c ∈ changes, c.Fits (max replicas 1)) →
      ∃ r, (empty replicas hash).after? changes = some r ∧ LookupLaw replicas hash changes r) ∧
    ((∃ c ∈ changes, ¬ c.Fits (max replicas 1)) → (empty replicas hash).after? changes = none) := by
  have hafter : (empty replicas hash).after? changes =
      if ∀ c ∈ changes, c.Fits (max replicas 1) then some ((empty replicas hash).after changes) else none :=
    (fitting_empty replicas hash).after?_eq changes
  constructor
  · intro hfits
    exact ⟨_, hafter.trans (if_pos hfits), lookupLaw_after replicas hash changes⟩
  · rintro ⟨c, hc, hnot⟩
    exact hafter.trans (if_neg fun hfits => hnot (hfits c hc))

/-- Two nodes on a circle of two replicas, where the hash is the first octet: all points of a node fall together. -/
theorem lookup_law_letters :
    let letter : Bytes → UInt32 := fun octets => (octets.headD 0).toUInt32
    let changes : List Change := [.add "b" none, .add "c" (some 300), .add "a" (some 150), .remove "c"]
    (∀ c ∈ changes, c.Fits (max 2 1)) ∧ ∃ r, (empty 2 letter).after? changes = some r ∧
      LookupLaw 2 letter changes r ∧ r.owner 98 = some "b" ∧ r.owner 99 = some "a" := by
  intro letter changes
  have hfits : ∀ c ∈ changes, c.Fits (max 2 1) := by decide
  obtain ⟨r, hr, hlaw⟩ := (lookup_law 2 letter changes).1 hfits
  have howners : ((empty 2 letter).after? changes).map (fun r => (r.owner 98, r.owner 99)) = some (some "b", some "a") := by
    cbv
  rw [hr, Option.map_some, Option.some_inj, Prod.mk.injEq] at howners
  exact ⟨hfits, r, hr, hlaw, howners⟩

/-- **A product that does not fit.** A node of weight 2 joins a ring of `2 ^ 63` replicas and asks for 184467440737095516
points, so that it would own the whole circle. The product is `2 ^ 64`, and the program stops. -/
theorem product_stops :
    (empty 9223372036854775808 Crc32.checksum).after? [.add "a" (some 2)] = none ∧
      quota 9223372036854775808 2 = 184467440737095516 ∧
      ∀ r, LookupLaw 9223372036854775808 Crc32.checksum [.add "a" (some 2)] r → ∀ h, r.owner h = some "a" := by
  refine ⟨?_, rfl, ?_⟩
  · rw [(fitting_empty 9223372036854775808 Crc32.checksum).after?_eq]
    exact if_neg (by decide)
  · intro r hlaw h
    have hnodes : ∀ n ∈ r.nodes, n = ("a", 2) := by
      rintro ⟨name, w⟩ hmem
      have hw := (hlaw.nodes name w).1 hmem
      by_cases hname : name = "a"
      · subst hname
        exact Prod.ext rfl (Option.some.inj hw.symm)
      · simp [weights, Change.apply, hname] at hw
    have ha : ("a", 2) ∈ r.nodes := (hlaw.nodes "a" 2).2 rfl
    cases howner : r.owner h with
    | none => exact absurd ((hlaw.nobody h).1 howner _ ha) (by decide)
    | some node =>
      obtain ⟨p, hp, rfl⟩ := (hlaw.owner h node).1 howner
      obtain ⟨n, hn, hmem⟩ := List.mem_flatMap.1 (hlaw.marks.mem_iff.1 hp.1)
      obtain ⟨i, -, rfl⟩ := List.mem_map.1 hmem
      rw [hnodes n hn]

end Ring

end RespClient
