/-
Which places change their owner when one node joins a ring, changes its weight or leaves: only those that the node takes
over or gives up.

- `Beside`: two rings that differ in one node at most.
- `Beside.owner_cases`: as the node's points get more, a place keeps its owner or goes over to the node. Everything else
  follows, since fewer points are the same read backwards.
- `minimal_disruption`: what that says of joining, of a change of weight and of leaving, in every ring that changes lead
  to.
-/
import Mathlib
import RespClient.Proofs.Circle

namespace RespClient.Ring

/-! ## Rings that differ in one node -/

/-- Two sound rings with the same points for the same names and weights, and the same nodes but for one. -/
structure Beside (node : String) (r r' : Ring) : Prop where
  left : r.Sound
  right : r'.Sound
  hash : r'.hash = r.hash
  replicas : r'.replicas = r.replicas
  others : ∀ n, n.1 ≠ node → (n ∈ r'.nodes ↔ n ∈ r.nodes)

namespace Beside

variable {node : String} {r r' : Ring} {h : UInt32}

theorem symm (hb : Beside node r r') : Beside node r' r :=
  ⟨hb.right, hb.left, hb.hash.symm, hb.replicas.symm, fun n hn => (hb.others n hn).symm⟩

theorem share_eq (hb : Beside node r r') : r'.share = r.share := by
  funext weight
  simp only [share, hb.replicas]

theorem point_eq (hb : Beside node r r') : r'.point = r.point := by
  funext name i
  simp only [point, hb.hash]

/-- The other nodes keep their marks. -/
theorem mem_marks_iff (hb : Beside node r r') {p : Mark} (hp : p.2 ≠ node) : p ∈ r'.marks ↔ p ∈ r.marks := by
  rw [hb.right.mem_marks, hb.left.mem_marks, hb.share_eq, hb.point_eq]
  exact exists_congr fun w => and_congr_left' (hb.others (p.2, w) hp)

/-- A node with no fewer points keeps those it had. -/
theorem marks_subset (hb : Beside node r r') (hle : r.pointCount node ≤ r'.pointCount node) : r.marks ⊆ r'.marks := by
  intro p hp
  by_cases hnode : p.2 = node
  · obtain ⟨w, hw, i, hi, hnumber⟩ := hb.left.mem_marks.1 hp
    rw [hnode] at hw hnumber
    have hcount : i < r'.pointCount node := by
      rw [hb.left.pointCount_eq_share hw] at hle
      omega
    obtain ⟨q, hq, hq'⟩ := pointCount_pos_iff.1 (Nat.zero_lt_of_lt hcount)
    obtain ⟨w', hw', -⟩ := hb.right.mem_marks.1 hq
    rw [hq'] at hw'
    rw [hb.right.pointCount_eq_share hw'] at hcount
    refine hb.right.mem_marks.2 ⟨w', by rw [hnode]; exact hw', i, hcount, ?_⟩
    rw [hnumber, hb.point_eq, hnode]
  · exact (hb.mem_marks_iff hnode).2 hp

/-- **More points of a node.** A place keeps its owner or goes over to the node. -/
theorem owner_cases (hb : Beside node r r') (hle : r.pointCount node ≤ r'.pointCount node) (h : UInt32) :
    r'.owner h = r.owner h ∨ r'.owner h = some node := by
  have hsub := hb.marks_subset hle
  cases howner : r'.owner h with
  | none =>
    left
    have hempty : r.marks = [] := List.subset_nil.1 (hb.right.owner_eq_none_iff.1 howner ▸ hsub)
    exact (hb.left.owner_eq_none_iff.2 hempty).symm
  | some name =>
    obtain ⟨p, hp, rfl⟩ := hb.right.owner_eq_some_iff.1 howner
    by_cases hnode : p.2 = node
    · exact .inr (by rw [hnode])
    · have hmem : p ∈ r.marks := (hb.mem_marks_iff hnode).1 hp.1
      exact .inl (hb.left.owner_eq_some_iff.2 ⟨p, hp.mono hmem hsub, rfl⟩).symm

/-- The node keeps the places it owned. -/
theorem owner_kept (hb : Beside node r r') (hle : r.pointCount node ≤ r'.pointCount node)
    (howner : r.owner h = some node) : r'.owner h = some node :=
  (hb.owner_cases hle h).elim (fun heq => heq.trans howner) id

/-- As many points as before: nothing changes. -/
theorem owner_eq (hb : Beside node r r') (heq : r'.pointCount node = r.pointCount node) (h : UInt32) :
    r'.owner h = r.owner h := by
  rcases hb.owner_cases heq.ge h with hsame | howner
  · exact hsame
  · rw [howner, hb.symm.owner_kept heq.le howner]

end Beside

/-! ## One change -/

variable {r : Ring}

theorem Sound.beside_add (hr : r.Sound) (node : String) (weight : Option Nat) : Beside node r (r.add node weight) where
  left := hr
  right := hr.add node weight
  hash := r.hash_change (.add node weight)
  replicas := r.replicas_change (.add node weight)
  others n hn := by simp [mem_nodes_add, hn]

theorem Sound.beside_remove (hr : r.Sound) (node : String) : Beside node r (r.remove node) where
  left := hr
  right := hr.remove node
  hash := r.hash_change (.remove node)
  replicas := r.replicas_change (.remove node)
  others n hn := by simp [mem_nodes_remove, hn]

/-- Who is not in the ring has no points. -/
theorem Sound.pointCount_eq_zero (hr : r.Sound) {node : String} (hnode : r.contains node = false) :
    r.pointCount node = 0 := by
  by_contra hpos
  obtain ⟨p, hp, rfl⟩ := pointCount_pos_iff.1 (Nat.pos_of_ne_zero hpos)
  obtain ⟨w, hw, -⟩ := hr.mem_marks.1 hp
  have hcontains : r.contains p.2 = true := contains_iff.2 (List.mem_map_of_mem hw)
  rw [hnode] at hcontains
  contradiction

theorem contains_remove (r : Ring) (node : String) : (r.remove node).contains node = false := by
  by_contra hne
  obtain ⟨n, hn, hname⟩ := List.mem_map.1 (contains_iff.1 (Bool.eq_true_of_not_eq_false hne))
  exact (mem_nodes_remove.1 hn).1 hname

/-- Who owns a place has a point. -/
theorem Sound.pointCount_pos (hr : r.Sound) {node : String} {h : UInt32} (howner : r.owner h = some node) :
    0 < r.pointCount node := by
  obtain ⟨p, hp, hnode⟩ := hr.owner_eq_some_iff.1 howner
  exact pointCount_pos_iff.2 ⟨p, hp.1, hnode⟩

/-- **Minimal disruption.** In every ring that changes lead to, whatever the hash and wherever points fall together: a node
that joins or gets more points takes places over and loses none; one that gets fewer gives places up and takes none; one
that keeps as many moves nothing; and when a node leaves, the places of the others stay, and it has none left. -/
theorem minimal_disruption (replicas : Nat) (hash : Bytes → UInt32) (changes : List Change) (node : String)
    (weight : Option Nat) (h : UInt32) :
    let r := (empty replicas hash).after changes
    let r' := r.add node weight
    (r.contains node = false ∨ r.pointCount node < r'.pointCount node →
      (r'.owner h = r.owner h ∨ r'.owner h = some node) ∧ (r.owner h = some node → r'.owner h = some node)) ∧
    (r'.pointCount node < r.pointCount node →
      (r.owner h ≠ some node → r'.owner h = r.owner h) ∧ (r'.owner h = some node → r.owner h = some node)) ∧
    (r'.pointCount node = r.pointCount node → r'.owner h = r.owner h) ∧
    (r.owner h ≠ some node → (r.remove node).owner h = r.owner h) ∧
    (r.remove node).owner h ≠ some node := by
  intro r r'
  have hr : r.Sound := sound_after replicas hash changes
  have hadd : Beside node r r' := hr.beside_add node weight
  have hremove : Beside node r (r.remove node) := hr.beside_remove node
  have hgone : (r.remove node).pointCount node = 0 := (hr.remove node).pointCount_eq_zero (r.contains_remove node)
  refine ⟨?_, ?_, ?_, ?_, ?_⟩
  · intro hgrown
    have hle : r.pointCount node ≤ r'.pointCount node := by
      rcases hgrown with hnew | hmore
      · rw [hr.pointCount_eq_zero hnew]
        exact Nat.zero_le _
      · exact Nat.le_of_lt hmore
    exact ⟨hadd.owner_cases hle h, hadd.owner_kept hle⟩
  · intro hfewer
    have hback := hadd.symm.owner_cases (Nat.le_of_lt hfewer) h
    refine ⟨?_, hadd.symm.owner_kept (Nat.le_of_lt hfewer)⟩
    intro hother
    exact (hback.resolve_right hother).symm
  · intro hsame
    exact hadd.owner_eq hsame h
  · intro hother
    have hback := hremove.symm.owner_cases (hgone ▸ Nat.zero_le _) h
    exact (hback.resolve_right hother).symm
  · intro howner
    have hpos := (hr.remove node).pointCount_pos howner
    rw [hgone] at hpos
    exact Nat.lt_irrefl 0 hpos

/-- All points fall together, and the node of the lesser name takes the whole circle over. -/
theorem minimal_disruption_collision :
    let r := (empty 1 fun _ => 7).after [.add "b" none]
    r.contains "a" = false ∧ r.owner 9 = some "b" ∧
      ((r.add "a" none).owner 9 = r.owner 9 ∨ (r.add "a" none).owner 9 = some "a") ∧
      (r.add "a" none).owner 9 = some "a" := by
  intro r
  have hnew : r.contains "a" = false := by decide
  have hmoved := minimal_disruption 1 (fun _ => 7) [.add "b" none] "a" none 9
  exact ⟨hnew, by cbv, (hmoved.1 (.inl hnew)).1, by cbv⟩

end RespClient.Ring
