/-
A ring forgets how it came about: what it answers depends on the nodes it has in the end and on their weights, not on the
order in which they came, nor on what was changed and taken back in between.

- `weights`: the weight of every node after some changes, told from the changes alone.
- `mem_nodes_after`: the nodes of the ring are those.
- `history_independent`: equal weights in the end, equal answers.
-/
import RespClient.Proofs.Circle
import Mathlib.Logic.Function.Basic

namespace RespClient.Ring

/-! ## The weights in the end -/

/-- The weights after one more change; a node that is not there has none. -/
def Change.apply (weights : String → Option Nat) : Change → String → Option Nat
  | .add node weight => Function.update weights node (some (weight.getD defaultWeight))
  | .remove node => Function.update weights node none

def weights (changes : List Change) : String → Option Nat := changes.foldl Change.apply fun _ => none

theorem weights_concat (changes : List Change) (c : Change) : weights (changes ++ [c]) = c.apply (weights changes) :=
  List.foldl_concat ..

variable {replicas : Nat} {hash : Bytes → UInt32} {changes others : List Change} {r r' : Ring}

/-- The nodes of a ring are those that the changes leave, with the weights they leave. -/
theorem mem_nodes_after {name : String} {w : Nat} :
    (name, w) ∈ ((empty replicas hash).after changes).nodes ↔ weights changes name = some w := by
  induction changes using List.reverseRecOn with
  | nil => simp [after, empty, weights]
  | append_singleton changes c ih =>
    rw [after_append, weights_concat]
    cases c with
    | add node weight =>
      show (name, w) ∈ (Ring.add _ node weight).nodes ↔ _
      rw [mem_nodes_add, ih]
      by_cases hname : name = node
      · simp [Change.apply, hname, eq_comm]
      · simp [Change.apply, hname]
    | remove node =>
      show (name, w) ∈ (Ring.remove _ node).nodes ↔ _
      rw [mem_nodes_remove, ih]
      by_cases hname : name = node
      · simp [Change.apply, hname]
      · simp [Change.apply, hname]

theorem hash_after (r : Ring) (changes : List Change) : (r.after changes).hash = r.hash := by
  induction changes generalizing r with
  | nil => rfl
  | cons c changes ih => exact (ih (r.change c)).trans (r.hash_change c)

theorem replicas_after (r : Ring) (changes : List Change) : (r.after changes).replicas = r.replicas := by
  induction changes generalizing r with
  | nil => rfl
  | cons c changes ih => exact (ih (r.change c)).trans (r.replicas_change c)

/-! ## Equal answers -/

/-- Rings with the same marks give the same answers, in whatever order their nodes stand. -/
theorem Sound.owner_congr (hr : r.Sound) (hr' : r'.Sound) (hmarks : ∀ p, p ∈ r.marks ↔ p ∈ r'.marks) (h : UInt32) :
    r.owner h = r'.owner h := by
  have hfirst : ∀ p, Mark.First r.marks h p ↔ Mark.First r'.marks h p := by
    intro p
    simp only [Mark.First, hmarks]
  refine Option.ext fun node => ?_
  rw [hr.owner_eq_some_iff, hr'.owner_eq_some_iff]
  simp only [hfirst]

theorem isEmpty_congr (hmarks : ∀ p, p ∈ r.marks ↔ p ∈ r'.marks) : r.isEmpty = r'.isEmpty := by
  rw [Bool.eq_iff_iff, isEmpty_iff, isEmpty_iff, List.eq_nil_iff_forall_not_mem, List.eq_nil_iff_forall_not_mem]
  exact forall_congr' fun p => not_congr (hmarks p)

/-- Rings with the same hash, the same replicas and the same nodes have the same marks. -/
theorem Sound.mem_marks_congr (hr : r.Sound) (hr' : r'.Sound) (hhash : r.hash = r'.hash)
    (hreplicas : r.replicas = r'.replicas) (hnodes : ∀ n, n ∈ r.nodes ↔ n ∈ r'.nodes) (p : Mark) :
    p ∈ r.marks ↔ p ∈ r'.marks := by
  rw [hr.mem_marks, hr'.mem_marks]
  simp only [hnodes, share, point, hhash, hreplicas]

theorem mem_marks_of_weights (replicas : Nat) (hash : Bytes → UInt32)
    (hsame : ∀ node, weights changes node = weights others node) (p : Mark) :
    p ∈ ((empty replicas hash).after changes).marks ↔ p ∈ ((empty replicas hash).after others).marks := by
  refine (sound_after replicas hash changes).mem_marks_congr (sound_after replicas hash others) ?_ ?_ ?_ p
  · rw [hash_after, hash_after]
  · rw [replicas_after, replicas_after]
  · rintro ⟨name, w⟩
    rw [mem_nodes_after, mem_nodes_after, hsame]

/-- A node that joins anew and leaves again leaves every owner as it was. -/
theorem Sound.owner_add_remove (hr : r.Sound) {node : String} (hnew : r.contains node = false) (weight : Option Nat)
    (h : UInt32) : ((r.add node weight).remove node).owner h = r.owner h := by
  have hmarks : ∀ p, p ∈ ((r.add node weight).remove node).marks ↔ p ∈ r.marks := by
    refine ((hr.add node weight).remove node).mem_marks_congr hr ?_ ?_ ?_
    · exact (hash_change _ (.remove node)).trans (r.hash_change (.add node weight))
    · exact (replicas_change _ (.remove node)).trans (r.replicas_change (.add node weight))
    · intro n
      have hne : n ∈ r.nodes → n.1 ≠ node := by
        rintro hn rfl
        rw [contains_iff.2 (List.mem_map_of_mem hn)] at hnew
        contradiction
      rw [mem_nodes_remove, mem_nodes_add]
      grind
  exact ((hr.add node weight).remove node).owner_congr hr hmarks h

/-- **History independence.** Two rings of the same replicas whose changes leave the same weights give every place the
same owner and are empty together, whatever the hash and however they came about. In particular, a node that joins anew
and leaves again leaves every owner as it was. -/
theorem history_independent (replicas : Nat) (hash : Bytes → UInt32) (changes others : List Change)
    (hsame : ∀ node, weights changes node = weights others node) :
    let r := (empty replicas hash).after changes
    let r' := (empty replicas hash).after others
    (∀ h, r.owner h = r'.owner h) ∧ r.isEmpty = r'.isEmpty ∧
      ∀ node weight, r.contains node = false → ∀ h, ((r.add node weight).remove node).owner h = r.owner h := by
  intro r r'
  have hr : r.Sound := sound_after replicas hash changes
  have hr' : r'.Sound := sound_after replicas hash others
  have hmarks : ∀ p, p ∈ r.marks ↔ p ∈ r'.marks := mem_marks_of_weights replicas hash hsame
  refine ⟨fun h => hr.owner_congr hr' hmarks h, isEmpty_congr hmarks, ?_⟩
  intro node weight hnew h
  exact hr.owner_add_remove hnew weight h

/-- Two ways to the weights 100 and 50: in the other order, with a node that comes and goes and one weighed anew. -/
theorem history_independent_detour :
    let changes : List Change := [.add "a" none, .add "b" (some 50)]
    let others : List Change :=
      [.add "b" none, .add "c" (some 300), .add "a" none, .remove "b", .remove "c", .add "b" (some 50)]
    (∀ node, weights changes node = weights others node) ∧
      ∀ h, ((empty 128 Crc32.checksum).after changes).owner h = ((empty 128 Crc32.checksum).after others).owner h := by
  intro changes others
  have hsame : ∀ node, weights changes node = weights others node := by
    intro node
    by_cases ha : node = "a"
    · subst ha
      decide
    · by_cases hb : node = "b"
      · subst hb
        decide
      · simp [changes, others, weights, Change.apply, Function.update_apply, ha, hb]
  exact ⟨hsame, (history_independent 128 Crc32.checksum changes others hsame).1⟩

end RespClient.Ring
