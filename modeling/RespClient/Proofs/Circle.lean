/-
A ring seen as its marks: the points on the circle, each with the name of its node. On marks the places of the nodes do
not show, and two rings with the same marks give the same answers.

- `Mark.First`: the mark that comes first for someone who stands at a place and goes up, round the circle.
- `owner_eq_some_iff`: the node that owns a place is the node of the first mark from there.
- `Sound`: node ids are distinct, and the marks stand in order and are those that the nodes ask for. `sound_after`: that is
  so in every ring that changes of its nodes lead to.
- `mem_marks`, `pointCount_eq_share`: which marks there are, and how many of one node.
- `Fitting.after?_eq`: which changes lead to a ring, and which stop the program.
-/
import Mathlib.Data.List.Nodup
import Mathlib.Data.List.FinRange
import Mathlib.Data.List.Induction
import RespClient.Ring

namespace RespClient

/-! ## Marks -/

/-- A point on the circle with the name of its node. -/
abbrev Mark := UInt32 × String

namespace Mark

/-- The order round the circle: by number, equal numbers by node. -/
def Le (p q : Mark) : Prop := p.1 < q.1 ∨ p.1 = q.1 ∧ p.2 ≤ q.2

/-- Someone at `h` who goes up comes to `p` no later than to `q`: first to what is not below him, then to the rest. -/
def Sooner (h : UInt32) (p q : Mark) : Prop := h ≤ p.1 ∧ q.1 < h ∨ (h ≤ p.1 ↔ h ≤ q.1) ∧ p.Le q

/-- The mark of a set that someone at `h` who goes up comes to first. -/
def First (marks : List Mark) (h : UInt32) (p : Mark) : Prop := p ∈ marks ∧ ∀ q ∈ marks, Sooner h p q

variable {marks more : List Mark} {h : UInt32} {p q : Mark}

theorem Le.refl (p : Mark) : p.Le p := .inr ⟨rfl, String.le_refl _⟩

theorem Le.trans {r : Mark} (hpq : p.Le q) (hqr : q.Le r) : p.Le r := by
  rcases hpq with hpq | ⟨hpq, hpq'⟩
  · rcases hqr with hqr | ⟨hqr, -⟩
    · exact .inl (UInt32.lt_trans hpq hqr)
    · exact .inl (hqr ▸ hpq)
  · rcases hqr with hqr | ⟨hqr, hqr'⟩
    · exact .inl (hpq ▸ hqr)
    · exact .inr ⟨hpq.trans hqr, String.le_trans hpq' hqr'⟩

theorem Le.antisymm (hpq : p.Le q) (hqp : q.Le p) : p = q := by
  rcases hpq with hpq | ⟨hpq, hpq'⟩
  · rcases hqp with hqp | ⟨hqp, -⟩
    · exact absurd hqp (UInt32.lt_asymm hpq)
    · exact absurd (hqp ▸ hpq) (UInt32.lt_irrefl _)
  · rcases hqp with hqp | ⟨-, hqp'⟩
    · exact absurd (hpq ▸ hqp) (UInt32.lt_irrefl _)
    · exact Prod.ext hpq (String.le_antisymm hpq' hqp')

theorem Le.total (p q : Mark) : p.Le q ∨ q.Le p := by
  by_cases heq : p.1 = q.1
  · exact (String.le_total p.2 q.2).imp (fun hle => .inr ⟨heq, hle⟩) fun hle => .inr ⟨heq.symm, hle⟩
  · exact (UInt32.lt_or_lt_of_ne heq).imp .inl .inl

theorem Sooner.refl (h : UInt32) (p : Mark) : Sooner h p p := .inr ⟨Iff.rfl, .refl p⟩

theorem Sooner.antisymm (hpq : Sooner h p q) (hqp : Sooner h q p) : p = q := by
  rcases hpq with ⟨hp, hq⟩ | ⟨hiff, hpq⟩
  · rcases hqp with ⟨hq', -⟩ | ⟨hiff, -⟩
    · exact absurd hq' (UInt32.not_le.2 hq)
    · exact absurd (hiff.2 hp) (UInt32.not_le.2 hq)
  · rcases hqp with ⟨hq, hp⟩ | ⟨-, hqp⟩
    · exact absurd (hiff.2 hq) (UInt32.not_le.2 hp)
    · exact hpq.antisymm hqp

theorem First.unique (hp : First marks h p) (hq : First marks h q) : p = q := (hp.2 q hq.1).antisymm (hq.2 p hp.1)

/-- With fewer marks the first one stays the first, unless it is gone. -/
theorem First.mono (hp : First more h p) (hmem : p ∈ marks) (hsub : marks ⊆ more) : First marks h p :=
  ⟨hmem, fun q hq => hp.2 q (hsub hq)⟩

/-- In order round the circle, the first mark is the first that is not below, or else the very first. -/
theorem first_of_sorted (hsorted : marks.Pairwise Le) (hne : marks ≠ []) :
    ∃ p, First marks h p ∧ (marks.find? (h ≤ ·.1)).or marks.head? = some p := by
  cases hfind : marks.find? (h ≤ ·.1) with
  | some p =>
    refine ⟨p, ⟨List.mem_of_find?_eq_some hfind, ?_⟩, rfl⟩
    obtain ⟨hp, as, bs, rfl, has⟩ := List.find?_eq_some_iff_append.1 hfind
    have hp : h ≤ p.1 := of_decide_eq_true hp
    obtain ⟨-, hbs, -⟩ := List.pairwise_append.1 hsorted
    intro q hq
    rcases List.mem_append.1 hq with hq | hq
    · have hbelow : ¬ h ≤ q.1 := by simpa using has q hq
      exact .inl ⟨hp, UInt32.not_le.1 hbelow⟩
    · have hle : p.Le q := by
        rcases List.mem_cons.1 hq with rfl | hq
        · exact .refl q
        · exact (List.pairwise_cons.1 hbs).1 q hq
      have hnum : p.1 ≤ q.1 := hle.elim UInt32.le_of_lt fun heq => UInt32.le_of_eq heq.1
      exact .inr ⟨⟨fun _ => UInt32.le_trans hp hnum, fun _ => hp⟩, hle⟩
  | none =>
    have hbelow : ∀ q ∈ marks, ¬ h ≤ q.1 := by simpa using hfind
    obtain ⟨p, rest, rfl⟩ := List.exists_cons_of_ne_nil hne
    refine ⟨p, ⟨List.mem_cons_self, ?_⟩, rfl⟩
    intro q hq
    have hiff : h ≤ p.1 ↔ h ≤ q.1 := iff_of_false (hbelow p List.mem_cons_self) (hbelow q hq)
    rcases List.mem_cons.1 hq with rfl | hq
    · exact .refl h q
    · exact .inr ⟨hiff, (List.pairwise_cons.1 hsorted).1 q hq⟩

end Mark

/-! ## The marks of a ring -/

namespace Ring

/-- The points in order, under the names of their nodes. -/
def marks (r : Ring) : List Mark := r.points.map fun p => (p.1, nameAt r.nodes p.2)

/-- The marks that a node asks for. -/
def marksOf (r : Ring) (node : String × Nat) : List Mark :=
  (List.range (r.share node.2)).map fun i => (r.point node.1 i, node.1)

/-- How many points a node has. -/
def pointCount (r : Ring) (node : String) : Nat := r.points.countP fun p => nameAt r.nodes p.2 == node

/-- Node ids are distinct; the marks stand in order and are those that the nodes ask for. -/
structure Sound (r : Ring) : Prop where
  distinct : (r.nodes.map Prod.fst).Nodup
  sorted : r.marks.Pairwise Mark.Le
  marks : r.marks.Perm (r.nodes.flatMap r.marksOf)

variable {r : Ring} {nodes : List (String × Nat)} {node : String} {weight : Option Nat} {h : UInt32}

theorem sound_empty (replicas : Nat) (hash : Bytes → UInt32) : (empty replicas hash).Sound where
  distinct := List.nodup_nil
  sorted := List.Pairwise.nil
  marks := List.Perm.nil

/-- The order of points is the order of their marks. -/
theorem before_iff (a b : UInt32 × Fin nodes.length) :
    before nodes a b = true ↔ Mark.Le (a.1, nameAt nodes a.2) (b.1, nameAt nodes b.2) := by
  simp [before, Mark.Le]

theorem map_pointsAt (r : Ring) (nodes : List (String × Nat)) (place : Fin nodes.length) :
    (r.pointsAt nodes place).map (fun p => (p.1, nameAt nodes p.2)) = r.marksOf (nodes.get place) := by
  rw [pointsAt, marksOf, List.map_map]
  rfl

/-- Laying the points out makes a ring sound, if the node ids are distinct. -/
theorem sound_withNodes (r : Ring) (hdistinct : (nodes.map Prod.fst).Nodup) : (r.withNodes nodes).Sound where
  distinct := hdistinct
  sorted := by
    have htrans : ∀ a b c, before nodes a b = true → before nodes b c = true → before nodes a c = true := by
      intro a b c hab hbc
      exact (before_iff a c).2 (((before_iff a b).1 hab).trans ((before_iff b c).1 hbc))
    have htotal : ∀ a b, (before nodes a b || before nodes b a) = true := by
      intro a b
      rw [Bool.or_eq_true, before_iff, before_iff]
      exact Mark.Le.total _ _
    have hsorted := List.pairwise_mergeSort htrans htotal ((List.finRange nodes.length).flatMap (r.pointsAt nodes))
    exact List.pairwise_map.2 (hsorted.imp fun {a b} hab => (before_iff a b).1 hab)
  marks := by
    have hperm := List.mergeSort_perm ((List.finRange nodes.length).flatMap (r.pointsAt nodes)) (before nodes)
    refine (hperm.map fun p => (p.1, nameAt nodes p.2)).trans (.of_eq ?_)
    calc ((List.finRange nodes.length).flatMap (r.pointsAt nodes)).map (fun p => (p.1, nameAt nodes p.2))
        = (List.finRange nodes.length).flatMap fun place => r.marksOf (nodes.get place) := by
          rw [List.map_flatMap]
          simp only [map_pointsAt]
      _ = ((List.finRange nodes.length).map nodes.get).flatMap r.marksOf := by
          rw [List.flatMap_map]
      _ = nodes.flatMap r.marksOf := by
          rw [List.map_get_finRange]

/-! ## Owners -/

namespace Sound

/-- **The owner of a place is the node of the first mark from there.** -/
theorem owner_eq_some_iff (hr : r.Sound) : r.owner h = some node ↔ ∃ p, Mark.First r.marks h p ∧ p.2 = node := by
  have howner : r.owner h = ((r.marks.find? (h ≤ ·.1)).or r.marks.head?).map Prod.snd := by
    simp only [owner, Ring.marks, List.find?_map, List.head?_map, Function.comp_def]
    cases r.points.find? (h ≤ ·.1) with
    | some p => rfl
    | none => cases r.points.head? <;> rfl
  by_cases hne : r.marks = []
  · rw [howner, hne]
    simp [Mark.First]
  · obtain ⟨p, hp, hfirst⟩ := Mark.first_of_sorted (h := h) hr.sorted hne
    rw [howner, hfirst]
    constructor
    · intro heq
      exact ⟨p, hp, Option.some.inj heq⟩
    · rintro ⟨q, hq, rfl⟩
      rw [hp.unique hq]
      rfl

theorem owner_eq_none_iff (hr : r.Sound) : r.owner h = none ↔ r.marks = [] := by
  constructor
  · intro hnone
    by_contra hne
    obtain ⟨p, hp, -⟩ := Mark.first_of_sorted (h := h) hr.sorted hne
    have hsome := hr.owner_eq_some_iff.2 ⟨p, hp, rfl⟩
    rw [hnone] at hsome
    contradiction
  · intro hempty
    have hpoints : r.points = [] := List.map_eq_nil_iff.1 hempty
    unfold owner
    rw [hpoints]
    rfl

end Sound

theorem isEmpty_iff : r.isEmpty = true ↔ r.marks = [] := by
  simp [isEmpty, Ring.marks]

/-! ## Which marks there are -/

namespace Sound

theorem mem_marks (hr : r.Sound) {p : Mark} :
    p ∈ r.marks ↔ ∃ w, (p.2, w) ∈ r.nodes ∧ ∃ i < r.share w, p.1 = r.point p.2 i := by
  obtain ⟨number, name⟩ := p
  rw [hr.marks.mem_iff]
  simp only [marksOf, List.mem_flatMap, List.mem_map, List.mem_range, Prod.mk.injEq]
  constructor
  · rintro ⟨⟨name', w⟩, hmem, i, hi, rfl, rfl⟩
    exact ⟨w, hmem, i, hi, rfl⟩
  · rintro ⟨w, hmem, i, hi, hnumber⟩
    exact ⟨(name, w), hmem, i, hi, hnumber.symm, rfl⟩

end Sound

theorem pointCount_eq_count (r : Ring) (node : String) : r.pointCount node = r.marks.countP (·.2 == node) := by
  rw [marks, List.countP_map]
  rfl

theorem pointCount_pos_iff : 0 < r.pointCount node ↔ ∃ p ∈ r.marks, p.2 = node := by
  simp [pointCount_eq_count, List.countP_pos_iff]

theorem snd_of_mem_marksOf {n : String × Nat} {p : Mark} (hp : p ∈ r.marksOf n) : p.2 = n.1 := by
  obtain ⟨i, -, rfl⟩ := List.mem_map.1 hp
  rfl

/-- Where every node brings marks of its own, those of a node are the ones that it brings, if node ids are distinct. -/
theorem countP_flatMap (hdistinct : (nodes.map Prod.fst).Nodup) {w : Nat} (hw : (node, w) ∈ nodes)
    {bring : String × Nat → List Mark} (hown : ∀ n, ∀ p ∈ bring n, p.2 = n.1) :
    (nodes.flatMap bring).countP (·.2 == node) = (bring (node, w)).length := by
  obtain ⟨before, after, rfl⟩ := List.append_of_mem hw
  rw [List.map_append, List.map_cons] at hdistinct
  have hothers : ∀ ns ⊆ before ++ after, (ns.flatMap bring).countP (·.2 == node) = 0 := by
    intro ns hns
    rw [List.countP_eq_zero]
    intro p hp
    obtain ⟨n, hn, hp⟩ := List.mem_flatMap.1 hp
    rw [hown n p hp, beq_iff_eq]
    have hmem : n ∈ before ++ after := hns hn
    grind
  have hall : (bring (node, w)).countP (·.2 == node) = (bring (node, w)).length :=
    List.countP_eq_length.2 fun p hp => beq_iff_eq.2 (hown _ p hp)
  calc ((before ++ (node, w) :: after).flatMap bring).countP (·.2 == node)
      = (before.flatMap bring).countP (·.2 == node) + ((bring (node, w)).countP (·.2 == node) +
          (after.flatMap bring).countP (·.2 == node)) := by
        rw [List.flatMap_append, List.flatMap_cons, List.countP_append, List.countP_append]
    _ = (bring (node, w)).length := by
        rw [hothers before (List.subset_append_left _ _), hothers after (List.subset_append_right _ _), hall,
          Nat.zero_add, Nat.add_zero]

/-- A node of the ring has the points that its weight gives. -/
theorem Sound.pointCount_eq_share (hr : r.Sound) {w : Nat} (hw : (node, w) ∈ r.nodes) :
    r.pointCount node = r.share w := by
  calc r.pointCount node
      = (r.nodes.flatMap r.marksOf).countP (·.2 == node) := by
        rw [pointCount_eq_count, hr.marks.countP_eq]
    _ = (r.marksOf (node, w)).length := countP_flatMap hr.distinct hw fun _ _ => snd_of_mem_marksOf
    _ = r.share w := by
        rw [marksOf, List.length_map, List.length_range]

/-! ## Changes -/

/-- What can happen to the nodes of a ring. -/
inductive Change where
  | add (node : String) (weight : Option Nat)
  | remove (node : String)

def change (r : Ring) : Change → Ring
  | .add node weight => r.add node weight
  | .remove node => r.remove node

/-- The ring after some changes. -/
def after (r : Ring) (changes : List Change) : Ring := changes.foldl change r

theorem after_append (r : Ring) (changes others : List Change) :
    r.after (changes ++ others) = (r.after changes).after others := List.foldl_append

@[simp]
theorem hash_change (r : Ring) (c : Change) : (r.change c).hash = r.hash := by
  cases c with
  | add node weight => rfl
  | remove node =>
    simp only [change, remove]
    split <;> rfl

@[simp]
theorem replicas_change (r : Ring) (c : Change) : (r.change c).replicas = r.replicas := by
  cases c with
  | add node weight => rfl
  | remove node =>
    simp only [change, remove]
    split <;> rfl

theorem contains_iff : r.contains node = true ↔ node ∈ r.nodes.map Prod.fst := by
  simp [contains]

/-- The nodes after one joined: the others stay as they are. -/
theorem mem_joined {n : String × Nat} : n ∈ r.joined node weight ↔
    n.1 = node ∧ n.2 = weight.getD defaultWeight ∨ n.1 ≠ node ∧ n ∈ r.nodes := by
  obtain ⟨name, w⟩ := n
  unfold joined
  split_ifs with hc
  · obtain ⟨old, hold, hname⟩ := List.mem_map.1 (contains_iff.1 hc)
    simp only [List.mem_map]
    constructor
    · rintro ⟨n, hmem, heq⟩
      by_cases hn : n.1 = node
      · simp_all
      · simp_all
    · rintro (⟨rfl, rfl⟩ | ⟨hne, hmem⟩)
      · exact ⟨old, hold, by simp [hname]⟩
      · exact ⟨_, hmem, by simp [hne]⟩
  · have hnew : ∀ w', (node, w') ∉ r.nodes := by simpa [contains] using hc
    by_cases hname : name = node <;> simp_all

theorem mem_nodes_add {n : String × Nat} : n ∈ (r.add node weight).nodes ↔
    n.1 = node ∧ n.2 = weight.getD defaultWeight ∨ n.1 ≠ node ∧ n ∈ r.nodes := mem_joined

theorem mem_nodes_remove {n : String × Nat} : n ∈ (r.remove node).nodes ↔ n.1 ≠ node ∧ n ∈ r.nodes := by
  unfold remove
  split_ifs with hc
  · simp [withNodes, and_comm]
  · have hnew : ∀ w', (node, w') ∉ r.nodes := by simpa [contains] using hc
    constructor
    · intro hmem
      exact ⟨fun hname => hnew n.2 (hname ▸ hmem), hmem⟩
    · exact And.right

theorem distinct_joined (hdistinct : (r.nodes.map Prod.fst).Nodup) (node : String) (weight : Option Nat) :
    ((r.joined node weight).map Prod.fst).Nodup := by
  unfold joined
  split_ifs with hc
  · have hsame : (r.nodes.map fun n => if n.1 == node then (node, weight.getD defaultWeight) else n).map Prod.fst =
        r.nodes.map Prod.fst := by
      rw [List.map_map]
      refine List.map_congr_left fun n _ => ?_
      by_cases hname : n.1 = node <;> simp [hname]
    rw [hsame]
    exact hdistinct
  · rw [List.map_append]
    exact List.nodup_append.2 ⟨hdistinct, List.nodup_singleton _, by grind [contains_iff]⟩

theorem Sound.add (hr : r.Sound) (node : String) (weight : Option Nat) : (r.add node weight).Sound :=
  sound_withNodes r (distinct_joined hr.distinct node weight)

theorem Sound.remove (hr : r.Sound) (node : String) : (r.remove node).Sound := by
  unfold Ring.remove
  split_ifs with hc
  · exact sound_withNodes r (hr.distinct.sublist (List.filter_sublist.map Prod.fst))
  · exact hr

theorem Sound.change (hr : r.Sound) (c : Change) : (r.change c).Sound := by
  cases c with
  | add node weight => exact hr.add node weight
  | remove node => exact hr.remove node

/-- **Every ring that changes lead to is sound.** -/
theorem sound_after (replicas : Nat) (hash : Bytes → UInt32) (changes : List Change) :
    ((empty replicas hash).after changes).Sound := by
  induction changes using List.reverseRecOn with
  | nil => exact sound_empty replicas hash
  | append_singleton changes c ih =>
    rw [after_append]
    exact ih.change c

/-! ## Changes that stop the program -/

/-- A change as a program runs it. -/
def change? (r : Ring) : Change → Option Ring
  | .add node weight => r.add? node weight
  | .remove node => r.remove? node

/-- The ring after some changes, unless one of them stops the program. -/
def after? (r : Ring) (changes : List Change) : Option Ring := changes.foldlM change? r

/-- The product for the weight of a node that joins fits a word. -/
def Change.Fits (replicas : Nat) : Change → Prop
  | .add _ weight => replicas * weight.getD defaultWeight < UInt64.size
  | .remove _ => True

instance (replicas : Nat) : (c : Change) → Decidable (c.Fits replicas)
  | .add _ weight => inferInstanceAs (Decidable (replicas * weight.getD defaultWeight < UInt64.size))
  | .remove _ => inferInstanceAs (Decidable True)

/-- The products for all weights fit. -/
def Fitting (r : Ring) : Prop := ∀ n ∈ r.nodes, r.replicas * n.2 < UInt64.size

theorem fitting_empty (replicas : Nat) (hash : Bytes → UInt32) : (empty replicas hash).Fitting := List.forall_mem_nil _

theorem withNodes?_eq_some (h : ∀ n ∈ nodes, r.replicas * n.2 < UInt64.size) :
    r.withNodes? nodes = some (r.withNodes nodes) := by
  unfold withNodes?
  exact if_pos (List.all_eq_true.2 fun n hn => decide_eq_true (h n hn))

theorem withNodes?_eq_none {n : String × Nat} (hn : n ∈ nodes) (h : ¬ r.replicas * n.2 < UInt64.size) :
    r.withNodes? nodes = none := by
  unfold withNodes?
  exact if_neg fun hall => h (of_decide_eq_true (List.all_eq_true.1 hall n hn))

namespace Fitting

/-- After a change that fits, all products fit. -/
theorem change (hr : r.Fitting) {c : Change} (hc : c.Fits r.replicas) : (r.change c).Fitting := by
  intro n hn
  rw [replicas_change]
  cases c with
  | add node weight =>
    rcases mem_nodes_add.1 hn with ⟨-, hw⟩ | ⟨-, hold⟩
    · rw [hw]
      exact hc
    · exact hr n hold
  | remove node => exact hr n (mem_nodes_remove.1 hn).2

/-- **Which changes stop the program:** those that do not fit. Nobody is stopped by a node that leaves. -/
theorem change?_eq (hr : r.Fitting) (c : Change) :
    r.change? c = if c.Fits r.replicas then some (r.change c) else none := by
  split_ifs with hc
  · have hnodes := hr.change hc
    rw [Fitting, replicas_change] at hnodes
    cases c with
    | add node weight => exact withNodes?_eq_some hnodes
    | remove node =>
      simp only [change?, remove?, Ring.change, remove] at hnodes ⊢
      split_ifs at hnodes ⊢
      · exact withNodes?_eq_some hnodes
      · rfl
  · cases c with
    | add node weight =>
      have hmem : (node, weight.getD defaultWeight) ∈ r.joined node weight := mem_joined.2 (.inl ⟨rfl, rfl⟩)
      exact withNodes?_eq_none hmem hc
    | remove node => exact absurd trivial hc

/-- Changes lead to a ring as long as all of them fit. -/
theorem after?_eq (hr : r.Fitting) (changes : List Change) :
    r.after? changes = if ∀ c ∈ changes, c.Fits r.replicas then some (r.after changes) else none := by
  induction changes generalizing r with
  | nil => rfl
  | cons c changes ih =>
    rw [after?, List.foldlM_cons, hr.change?_eq c]
    by_cases hc : c.Fits r.replicas
    · have hrest := ih (hr.change hc)
      rw [replicas_change] at hrest
      simp only [List.forall_mem_cons, hc, true_and]
      exact hrest
    · simp only [List.forall_mem_cons, hc, false_and]
      rfl

end Fitting

end Ring

end RespClient
