/-
The generator of the workload never degenerates. Its step is a bijection of the 64-bit words that keeps zero apart from all
others, so from any other seed the states go round in a circle that never meets zero; and what is drawn are indexes of the
keys that the plan prepares.

- `xor_shiftLeft_injective`, `xor_ushiftRight_injective`: to add a word shifted to the word itself loses nothing. Bit by bit
  from the end that the shift leaves alone.
- `next_bijective`, `circles`: a step of the generator, and all steps from a seed.
- `forDrawn_eq`: a phase over drawn indexes is a phase over the list of them; `keys_ofArguments`: the number they are drawn
  below is a word other than zero, whatever the command line.
- `generator_law`: the generator, and the draws of every plan that a command line gives.
-/
import Mathlib
import RespClient.Proofs.Framing
import RespClient.Workload

namespace RespClient

theorem Numeral.unsigned?_lt {s : Bytes} {n : Nat} (h : unsigned? s = some n) : n < UInt64.size := by
  unfold unsigned? at h
  split at h
  · exact (digits?_eq_some (by decide) h).2.2.2
  · exact (digits?_eq_some (by decide) h).2.2.2

namespace Workload

open Function (Injective Bijective)

/-! ## One step -/

section

variable {w k : Nat}

/-- Words are equal when their bits can be found equal one after the other, in whatever order. -/
theorem eq_of_bits {x y : BitVec w} (rank : Nat → Nat)
    (h : ∀ i < w, (∀ j < w, rank j < rank i → x.getLsbD j = y.getLsbD j) → x.getLsbD i = y.getLsbD i) : x = y := by
  have hbit : ∀ r, ∀ i < w, rank i = r → x.getLsbD i = y.getLsbD i := by
    intro r
    induction r using Nat.strong_induction_on with
    | _ r ih =>
      rintro i hi rfl
      exact h i hi fun j hj hlt => ih (rank j) hlt j hj rfl
  exact BitVec.eq_of_getLsbD_eq fun i hi => hbit (rank i) i hi rfl

/-- The lowest `k` bits stand as they are, and any other is found from the one `k` places below it. -/
theorem xor_shiftLeft_injective (hk : 0 < k) : Injective fun x : BitVec w => x ^^^ (x <<< k) := by
  intro x y h
  refine eq_of_bits id fun i hi hfound => ?_
  have hsum := congrArg (fun z : BitVec w => z.getLsbD i) h
  simp only [BitVec.getLsbD_xor, BitVec.getLsbD_shiftLeft, hi, decide_true, Bool.true_and] at hsum
  by_cases hlow : i < k
  · simpa [hlow] using hsum
  · have hbelow : x.getLsbD (i - k) = y.getLsbD (i - k) := hfound _ (by omega) (by simp only [id]; omega)
    simpa [hlow, hbelow] using hsum

/-- The highest `k` bits stand as they are, and any other is found from the one `k` places above it. -/
theorem xor_ushiftRight_injective (hk : 0 < k) : Injective fun x : BitVec w => x ^^^ (x >>> k) := by
  intro x y h
  refine eq_of_bits (fun i => w - i) fun i hi hfound => ?_
  have hsum := congrArg (fun z : BitVec w => z.getLsbD i) h
  simp only [BitVec.getLsbD_xor, BitVec.getLsbD_ushiftRight] at hsum
  by_cases hhigh : w ≤ k + i
  · simpa [BitVec.getLsbD_of_ge _ _ hhigh] using hsum
  · have habove : x.getLsbD (k + i) = y.getLsbD (k + i) := hfound _ (by omega) (by omega)
    simpa [habove] using hsum

end

/-- **The step is a bijection.** -/
theorem next_bijective : Bijective next := by
  refine Finite.injective_iff_bijective.1 ?_
  intro x y h
  have hwords : (next x).toBitVec = (next y).toBitVec := congrArg UInt64.toBitVec h
  simp only [next, UInt64.toBitVec_xor, UInt64.toBitVec_shiftLeft, UInt64.toBitVec_shiftRight] at hwords
  exact UInt64.toBitVec_inj.1 (xor_shiftLeft_injective (by decide) (xor_ushiftRight_injective (by decide)
    (xor_shiftLeft_injective (by decide) hwords)))

theorem next_zero : next 0 = 0 := by decide

theorem next_ne_zero {x : UInt64} (h : x ≠ 0) : next x ≠ 0 := by
  rw [← next_zero]
  exact fun heq => h (next_bijective.injective heq)

/-! ## All steps from a seed -/

/-- The states from a seed on: none is zero, and they come back to the seed after some number of steps, before any other
of them is met again. -/
structure Circles (seed : UInt64) : Prop where
  ne_zero : ∀ k, next^[k] seed ≠ 0
  returns : ∃ p, 0 < p ∧ next^[p] seed = seed ∧ ∀ i j, i < j → j < p → next^[i] seed ≠ next^[j] seed

theorem circles {seed : UInt64} (h : seed ≠ 0) : Circles seed where
  ne_zero k := by
    induction k with
    | zero => exact h
    | succ k ih =>
      rw [Function.iterate_succ_apply']
      exact next_ne_zero ih
  returns := by
    have hperiodic : seed ∈ Function.periodicPts next := next_bijective.injective.mem_periodicPts seed
    refine ⟨Function.minimalPeriod next seed, Function.minimalPeriod_pos_of_mem_periodicPts hperiodic,
      Function.isPeriodicPt_minimalPeriod next seed, ?_⟩
    intro i j hij hj heq
    have hsame : i = j := Function.iterate_injOn_Iio_minimalPeriod (hij.trans hj) hj heq
    omega

/-! ## What a plan draws -/

/-- The indexes drawn from a seed, in order. -/
def drawn (keys count : Nat) (seed : UInt64) : List Nat :=
  (List.iterate next (next seed) count).map fun x => index x keys

/-- An operation on drawn indexes is the operation on the list of them. -/
theorem forDrawn_eq {α : Type} (keys : Nat) (op : Nat → Client → Network → Outcome Client α) (count : Nat)
    (seed : UInt64) : forDrawn keys op count seed = forEachIndex op (drawn keys count seed) := by
  induction count generalizing seed with
  | zero => rfl
  | succ count ih =>
    funext c net
    show forDrawn keys op (count + 1) seed c net =
      forEachIndex op (index (next seed) keys :: drawn keys count (next seed)) c net
    rw [forDrawn, forEachIndex, ih]

theorem lt_of_mem_drawn {keys count i : Nat} {seed : UInt64} (h : 0 < keys) (hi : i ∈ drawn keys count seed) :
    i < keys := by
  obtain ⟨x, -, rfl⟩ := List.mem_map.1 hi
  exact Nat.mod_lt _ h

/-- A count that a command line gives, or fails to give, is a word. -/
theorem countOr_lt {otherwise : Nat} (h : otherwise < UInt64.size) (arg : Option String) :
    countOr otherwise arg < UInt64.size := by
  unfold countOr
  cases hn : arg.bind fun s => Numeral.unsigned? (Bytes.ofText s) with
  | none => exact h
  | some n =>
    obtain ⟨s, -, hs⟩ := Option.bind_eq_some_iff.1 hn
    exact Numeral.unsigned?_lt hs

/-- A plan has one key at least, and no more than a word can say. -/
theorem keys_ofArguments {args : List String} {plan : Plan} (h : Plan.ofArguments args = .ok plan) :
    0 < plan.keys ∧ plan.keys < UInt64.size := by
  unfold Plan.ofArguments at h
  obtain ⟨endpoints, -, h⟩ := exists_of_bind_eq_ok h
  split_ifs at h
  · contradiction
  · obtain rfl := Except.ok.inj h
    exact ⟨Nat.lt_of_lt_of_le Nat.one_pos (Nat.le_max_right _ _),
      Nat.max_lt.2 ⟨countOr_lt (by decide) _, by decide⟩⟩

/-! ## The law -/

namespace Plan

/-- The keys that a plan sets first. -/
def prepared (plan : Plan) : List Bytes := (List.range plan.keys).map keyName

/-- Sets the key of an index. -/
def put (plan : Plan) (i : Nat) : Client → Network → Outcome Client Unit :=
  Client.set (keyName i) (List.replicate plan.valueSize 120)

/-- What a plan draws. The number of prepared keys is no zero as a word, and what is left of a word divided by it, as words
are, is the index drawn from that word; each index drawn is that of a prepared key; and the phases are runs over all the
indexes and over those drawn from their seeds. -/
structure DrawsPrepared (plan : Plan) : Prop where
  divisor : UInt64.ofNat plan.prepared.length ≠ 0
  remainder : ∀ x, index x plan.prepared.length = (x % UInt64.ofNat plan.prepared.length).toNat
  below : ∀ count seed, ∀ i ∈ drawn plan.prepared.length count seed, i < plan.prepared.length
  named : ∀ i < plan.prepared.length, plan.prepared[i]? = some (keyName i)
  phases : phases plan =
    [("SET (load)", plan.prepared.length, forEachIndex plan.put (List.range plan.prepared.length)),
      ("GET", plan.operations,
        forEachIndex (fun i => Client.get (keyName i)) (drawn plan.prepared.length plan.operations readSeed)),
      ("SET", plan.operations, forEachIndex plan.put (drawn plan.prepared.length plan.operations writeSeed))]

theorem length_prepared (plan : Plan) : plan.prepared.length = plan.keys := by
  rw [prepared, List.length_map, List.length_range]

theorem drawsPrepared {plan : Plan} (hpos : 0 < plan.keys) (hlt : plan.keys < UInt64.size) : DrawsPrepared plan := by
  have hword : (UInt64.ofNat plan.keys).toNat = plan.keys := UInt64.toNat_ofNat_of_lt hlt
  constructor <;> rw [length_prepared]
  case divisor =>
    intro hzero
    have hkeys : plan.keys = 0 := calc
      plan.keys = (UInt64.ofNat plan.keys).toNat := hword.symm
      _ = (0 : UInt64).toNat := by rw [hzero]
      _ = 0 := rfl
    omega
  case remainder =>
    intro x
    rw [UInt64.toNat_mod, hword, index]
  case below =>
    intro count seed i hi
    exact lt_of_mem_drawn hpos hi
  case named =>
    intro i hi
    rw [prepared, List.getElem?_map, List.getElem?_range hi, Option.map_some]
  case phases =>
    rw [Workload.phases, forDrawn_eq, forDrawn_eq]
    rfl

end Plan

/-- **The generator never degenerates.** Its step is a bijection of the words that keeps zero apart, so the states from any
other seed circle. Every plan that a command line gives draws indexes of the keys that it prepares. -/
theorem generator_law :
    (Bijective next ∧ next 0 = 0 ∧ ∀ x, x ≠ 0 → next x ≠ 0) ∧
    (∀ seed, seed ≠ 0 → Circles seed) ∧
    ∀ args plan, Plan.ofArguments args = .ok plan → plan.DrawsPrepared := by
  refine ⟨⟨next_bijective, next_zero, fun x => next_ne_zero⟩, fun seed => circles, ?_⟩
  intro args plan h
  obtain ⟨hpos, hlt⟩ := keys_ofArguments h
  exact Plan.drawsPrepared hpos hlt

/-- No keys asked for: one is prepared, and drawn each time. -/
theorem generator_law_keyless :
    let plan : Plan :=
      { endpoints := [{ host := "h" }], keys := 1, operations := 7, valueSize := 128, replication := false }
    Plan.ofArguments ["tcp://h", "0", "7"] = .ok plan ∧ plan.DrawsPrepared ∧
      Circles readSeed ∧ Circles writeSeed := by
  intro plan
  have hplan : Plan.ofArguments ["tcp://h", "0", "7"] = .ok plan := by cbv
  obtain ⟨-, hcircles, hdraws⟩ := generator_law
  exact ⟨hplan, hdraws _ plan hplan, hcircles readSeed (by decide), hcircles writeSeed (by decide)⟩

end Workload

end RespClient
