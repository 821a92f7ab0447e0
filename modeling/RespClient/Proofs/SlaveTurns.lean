/-
How the slaves of a replicated set take turns, over any run of the set in which nobody joins or leaves: it is opened and
closed, members are switched to, handed out and used, and any of that may fail.

- `Elects`: which slave is selected next, and all that a selection does.
- `asksSlave`, `occasions`: the steps in which a slave has to be selected, and the set as each of them finds it.
- `turn_of_asked`, `turn_of_unasked`: a selection passes the turn on to the slave after the one selected, whether or not that
  one could be opened; nothing else touches it.
- `InTurn`: how the turn tells the number of selections; one step keeps it, so a run does.
- `turn_law`: the slaves are selected one after the other, over and over.
-/
import Mathlib.Order.Interval.Finset.Nat
import RespClient.Proofs.ReplicaPromotion

namespace RespClient.Replication

variable {r r' : Replication} {command : Command} {net : Network} {i j : Nat} {c d : Connection}

/-! ## The slave that is selected next -/

/-- The slave at a place is the next to be selected: what is routed to a slave is carried out by it, and opening opens it.
It is in use afterwards unless it could not be opened, and the turn is that of the place behind it; no other member is
changed. -/
structure Elects (r : Replication) (i : Nat) (c : Connection) : Prop where
  slave : r.slaves[i]? = some c
  routed : ∀ command, r.reads command = .ok true → ∀ {α : Type} (op : Connection → Network → Outcome Connection α) net,
    r.route command op net = (op c net).within fun c' =>
      { r with slaves := r.slaves.set i c', current := some (.slave i), turn := i + 1 }
  opened : ∀ net, r.connect net =
    { result := (c.ensure net).result
      state := { r with
        slaves := r.slaves.set i (c.ensure net).state
        current := (c.ensure net).result.toOption.map fun _ => .slave i
        turn := i + 1 }
      network := (c.ensure net).network }

/-- There are no two slaves to be selected. -/
theorem Elects.place_unique (h : r.Elects i c) (h' : r.Elects j d) : i = j := by
  have hturn : i + 1 = j + 1 := congrArg (·.state.turn) ((h.opened ⟨[]⟩).symm.trans (h'.opened ⟨[]⟩))
  exact Nat.succ.inj hturn

/-- While nobody is in use, it is the slave whose turn it is. -/
theorem elects_of_none (hc : r.isComplete = true) (hcur : r.current = none) : ∃ c, r.Elects r.pickSlave.1 c := by
  obtain ⟨c, hslave⟩ := Option.isSome_iff_exists.1 (isSome_pickSlave hc)
  have hmember : ∀ current, ({ r with current, turn := r.pickSlave.1 + 1 } : Replication).member?
      (.slave r.pickSlave.1) = some c := fun _ => hslave
  refine ⟨c, hslave, ?_, ?_⟩
  · intro command hreads α op net
    have hchoose : r.choose command = (.ok (.slave r.pickSlave.1),
        { r with current := some (.slave r.pickSlave.1), turn := r.pickSlave.1 + 1 }) := by
      unfold choose
      rw [if_neg (by simp [hc])]
      simp only [hreads, hcur]
      rfl
    unfold route
    rw [hchoose]
    simp only [onMember, hmember]
    rfl
  · intro net
    obtain ⟨master, slaves, current, turn, rules⟩ := r
    obtain rfl : current = none := hcur
    unfold connect
    rw [if_neg (by simp [hc])]
    simp only [onMember, pickSlave] at hmember ⊢
    rw [hmember]
    unfold Outcome.andThen Outcome.within
    cases (c.ensure net).result <;> rfl

/-! ## What leaves the turn alone -/

@[simp] theorem turn_add (r : Replication) (conn : Connection) : (r.add conn).turn = r.turn := by
  unfold add
  by_cases hm : conn.nodeId = masterId
  · rw [if_pos hm]
  · rw [if_neg hm]
    split <;> rfl

@[simp] theorem turn_remove (r : Replication) (name : String) : (r.remove name).2.turn = r.turn := by
  rcases r.remove_cases name with h | ⟨c, -, h⟩ | ⟨i, hi, h⟩ <;> rw [h]

@[simp] theorem turn_switchTo (r : Replication) (name : String) : (r.switchTo name).2.turn = r.turn := by
  unfold switchTo
  cases r.find? name <;> rfl

section Operations

variable {α : Type} (op : Connection → Network → Outcome Connection α)

@[simp] theorem turn_onMember (r : Replication) (ρ : Role) (net : Network) : (r.onMember ρ op net).state.turn = r.turn := by
  unfold onMember
  cases r.member? ρ with
  | none => rfl
  | some c => cases ρ <;> rfl

@[simp] theorem turn_executeOn (r : Replication) (name : String) (command : Command) (net : Network) :
    (r.executeOn name command net).state.turn = r.turn := by
  unfold executeOn
  cases r.find? name with
  | none => rfl
  | some ρ => exact turn_onMember _ r ρ net

/-- Routing what is not to be read from a slave who has yet to be selected. -/
theorem turn_route (h : r.isComplete = true → r.current = none → r.reads command ≠ .ok true) :
    (r.route command op net).state.turn = r.turn := by
  unfold route
  rcases r.choose_cases command with ⟨e, he⟩ | ⟨ρ, turn, hρ, hc, ⟨hreads, -⟩ | ⟨hreads, hcur | ⟨i, -⟩⟩⟩
  · rw [he]
  · rw [choose_of_write hc hreads]
    exact turn_onMember op _ _ net
  · rw [choose_of_read hc hreads hcur]
    exact turn_onMember op _ _ net
  · obtain ⟨ρ', hcur⟩ := Option.ne_none_iff_exists'.1 fun hcur => h hc hcur hreads
    rw [choose_of_read hc hreads hcur]
    exact turn_onMember op _ _ net

end Operations

/-- Opening the member in use, or no member. -/
theorem turn_connect (h : r.isComplete = true → r.current ≠ none) : (r.connect net).state.turn = r.turn := by
  by_cases hc : r.isComplete = true
  · obtain ⟨ρ, turn, -, hturn, hconnect⟩ := r.connect_takes net hc
    obtain rfl : turn = r.turn := hturn.resolve_right fun hcur => h hc hcur.1
    have hstate : ∀ o : Outcome Replication Unit,
        (o.andThen fun _ r net => ⟨.ok (), { r with current := some ρ }, net⟩).state.turn = o.state.turn := by
      intro o
      unfold Outcome.andThen
      cases o.result <;> rfl
    rw [hconnect, hstate, turn_onMember]
  · unfold connect
    rw [if_pos (by simpa using hc)]

/-! ## Sets with the same members -/

theorem Kept.isComplete (h : Kept r r') : r'.isComplete = r.isComplete := by
  have hmaster : r'.master.isSome = r.master.isSome := h.isSome .master
  have hslaves : r'.slaves.isEmpty = r.slaves.isEmpty := by
    simpa [slaveIds] using congrArg List.isEmpty h.slaveIds_eq
  unfold Replication.isComplete
  rw [hmaster, hslaves]

end RespClient.Replication

namespace RespClient.ReplicaRegistry

open Replication (Elects Kept)

/-! ## Selections -/

/-- A slave has to be selected: nobody is in use, and the set is opened or a command that only reads is routed. -/
def asksSlave (r : Replication) (op : Op) : Bool :=
  r.isComplete && r.current.isNone && match op with
    | .connect => true
    | op => op.routed?.any fun command => r.reads command matches .ok true

/-- The set each time that a slave has to be selected in the course of some steps, which follow those of `before`. -/
def occasions (before : List (Network × Op)) : List (Network × Op) → List Replication
  | [] => []
  | s :: steps =>
    if asksSlave (run before) s.2 then run before :: occasions (before ++ [s]) steps else occasions (before ++ [s]) steps

variable {r : Replication} {net : Network} {op : Op} {ids : List String} {j : Nat} {before steps : List (Network × Op)}

theorem asksSlave_iff : asksSlave r op = true ↔ r.isComplete = true ∧ r.current = none ∧
    (op = .connect ∨ ∃ command, op.routed? = some command ∧ r.reads command = .ok true) := by
  have hreads : ∀ command, (r.reads command matches .ok true) = true ↔ r.reads command = .ok true := by
    intro command
    rcases r.reads command with e | _ | _ <;> simp
  unfold asksSlave
  rw [Bool.and_eq_true, Bool.and_eq_true, Option.isNone_iff_eq_none, and_assoc]
  cases op <;> simp [Op.routed?, hreads]

/-- A selection passes the turn on. -/
theorem turn_of_asked (net : Network) (h : asksSlave r op = true) : (step r net op).turn = r.pickSlave.1 + 1 := by
  obtain ⟨hc, hcur, hop⟩ := asksSlave_iff.1 h
  obtain ⟨c, helects⟩ := Replication.elects_of_none hc hcur
  rcases hop with rfl | ⟨command, hop, hreads⟩
  · exact congrArg (·.state.turn) (helects.opened net)
  · obtain ⟨α, use, -, huse⟩ := exists_route r net hop
    rw [huse, helects.routed command hreads use net]
    rfl

/-- Nothing else does. -/
theorem turn_of_unasked (net : Network) (h : asksSlave r op = false) : (step r net op).turn = r.turn := by
  have hask : ¬ (r.isComplete = true ∧ r.current = none ∧
      (op = .connect ∨ ∃ command, op.routed? = some command ∧ r.reads command = .ok true)) := by
    rw [← asksSlave_iff, h]
    exact Bool.false_ne_true
  have hrouted : ∀ {command}, op.routed? = some command →
      r.isComplete = true → r.current = none → r.reads command ≠ .ok true :=
    fun hop hc hcur hreads => hask ⟨hc, hcur, .inr ⟨_, hop, hreads⟩⟩
  cases op with
  | add conn => exact r.turn_add conn
  | remove name => exact r.turn_remove name
  | switchTo name => exact r.turn_switchTo name
  | setRule id rule => rfl
  | choose command uses => exact Replication.turn_route _ (hrouted rfl)
  | connect => exact Replication.turn_connect fun hc hcur => hask ⟨hc, hcur, .inl rfl⟩
  | disconnect => rfl
  | write command => exact Replication.turn_route _ (hrouted rfl)
  | read command => exact Replication.turn_route _ (hrouted rfl)
  | execute command => exact Replication.turn_route _ (hrouted rfl)
  | executeOn name command => exact r.turn_executeOn name command net

/-- As long as no slave was selected, it is the first one's turn. -/
theorem turn_of_no_occasion (h : occasions before steps = []) : (run (before ++ steps)).turn = (run before).turn := by
  induction steps generalizing before with
  | nil => rw [List.append_nil]
  | cons s steps ih =>
    unfold occasions at h
    cases hask : asksSlave (run before) s.2 with
    | true => simp [hask] at h
    | false =>
      have hlater : occasions (before ++ [s]) steps = [] := by simpa [hask] using h
      rw [List.append_cons, ih hlater, run_snoc]
      exact turn_of_unasked s.1 hask

/-! ## Taking turns -/

/-- A complete set of slaves with these node ids, of whom one was selected `j` times. -/
structure InTurn (ids : List String) (j : Nat) (r : Replication) : Prop where
  complete : r.isComplete = true
  slaveIds : r.slaveIds = ids
  turn_le : r.turn ≤ ids.length
  turn_mod : r.turn % ids.length = j % ids.length

namespace InTurn

theorem length_slaves (h : InTurn ids j r) : r.slaves.length = ids.length := by
  rw [← h.slaveIds, Replication.slaveIds, List.length_map]

theorem length_pos (h : InTurn ids j r) : 0 < ids.length := by
  rw [← h.length_slaves]
  exact List.length_pos_iff.2 (Replication.isComplete_iff.1 h.complete).2

theorem pickSlave_eq (h : InTurn ids j r) : r.pickSlave.1 = j % ids.length := by
  rw [← h.turn_mod]
  show r.turn % max r.slaves.length 1 = r.turn % ids.length
  rw [h.length_slaves, Nat.max_eq_left h.length_pos]

theorem elects (h : InTurn ids j r) (hcur : r.current = none) :
    ∃ c, r.Elects (j % ids.length) c ∧ ids[j % ids.length]? = some c.nodeId := by
  obtain ⟨c, helects⟩ := Replication.elects_of_none h.complete hcur
  rw [h.pickSlave_eq] at helects
  refine ⟨c, helects, ?_⟩
  have hid : r.slaveIds[j % ids.length]? = some c.nodeId := by
    rw [Replication.slaveIds, List.getElem?_map, helects.slave, Option.map_some]
  rwa [h.slaveIds] at hid

/-- **One step keeps the turn in step with the selections.** -/
theorem step (h : InTurn ids j r) (hr : Replication.Registered r) (net : Network) (hop : ¬ op.Moves) :
    InTurn ids (if asksSlave r op then j + 1 else j) (step r net op) := by
  obtain ⟨hkept, -⟩ := kept_step hr net hop
  have hcomplete := hkept.isComplete.trans h.complete
  have hids := hkept.slaveIds_eq.trans h.slaveIds
  cases hask : asksSlave r op with
  | true =>
    -- the turn is left one past the slave selected, which may be past the last; it is reduced only when it is read
    have hturn := turn_of_asked net hask
    rw [h.pickSlave_eq] at hturn
    refine ⟨hcomplete, hids, ?_, ?_⟩
    · rw [hturn]
      exact Nat.mod_lt j h.length_pos
    · rw [hturn, if_pos rfl, Nat.mod_add_mod]
  | false =>
    have hturn := turn_of_unasked net hask
    exact ⟨hcomplete, hids, hturn ▸ h.turn_le, hturn ▸ h.turn_mod⟩

/-- **A run does,** and finds the set in turn at each selection. -/
theorem run (h : InTurn ids j (run before)) (hsteps : ∀ s ∈ steps, ¬ s.2.Moves) :
    InTurn ids (j + (occasions before steps).length) (run (before ++ steps)) ∧
    ∀ k r, (occasions before steps)[k]? = some r → InTurn ids (j + k) r ∧ r.current = none := by
  induction steps generalizing before j with
  | nil =>
    rw [List.append_nil]
    exact ⟨h, fun k r hk => nomatch hk⟩
  | cons s steps ih =>
    -- the first step belongs to what went before the others, with one selection more if it asks for a slave
    have hstep := h.step (registered_run before) s.1 (hsteps s List.mem_cons_self)
    rw [← run_snoc] at hstep
    obtain ⟨hrun, hoccasions⟩ := ih hstep fun t ht => hsteps t (List.mem_cons_of_mem s ht)
    rw [List.append_cons]
    unfold occasions
    cases hask : asksSlave (ReplicaRegistry.run before) s.2 with
    | false =>
      simp only [hask, Bool.false_eq_true, ↓reduceIte] at hrun hoccasions ⊢
      exact ⟨hrun, hoccasions⟩
    | true =>
      simp only [hask, ↓reduceIte] at hrun hoccasions ⊢
      refine ⟨?_, ?_⟩
      · rwa [List.length_cons, Nat.add_comm _ 1, ← Nat.add_assoc]
      · intro k r hk
        cases k with
        | zero =>
          obtain rfl := Option.some.inj hk
          exact ⟨h, (asksSlave_iff.1 hask).2.1⟩
        | succ k =>
          rw [Nat.add_comm k 1, ← Nat.add_assoc]
          exact hoccasions k r hk

end InTurn

/-! ## The law -/

/-- Among consecutive numbers there is one for every place. -/
theorem existsUnique_mod_eq {n i : Nat} (k : Nat) (hi : i < n) : ∃! j, (k ≤ j ∧ j < k + n) ∧ j % n = i := by
  have hmem : i ∈ (Finset.Ico k (k + n)).image (· % n) := by
    rw [Nat.image_Ico_mod]
    exact Finset.mem_range.2 hi
  obtain ⟨j, hj, rfl⟩ := Finset.mem_image.1 hmem
  refine ⟨j, ⟨Finset.mem_Ico.1 hj, rfl⟩, ?_⟩
  rintro j' ⟨hj', hmod⟩
  exact Nat.mod_injOn_Ico k n (Finset.mem_coe.2 (Finset.mem_Ico.2 hj')) (Finset.mem_coe.2 hj) hmod

/-- What holds of the selections in the course of some steps, which follow those of `before`, in a set of `n` slaves. -/
structure TurnLaw (before steps : List (Network × Op)) (n : Nat) : Prop where
  /-- a step that has to select a slave after `j` selections takes the one at the place `j` modulo their number -/
  asked : ∀ part s, part ++ [s] <+: steps → asksSlave (run (before ++ part)) s.2 = true →
    ∃ c, (run (before ++ part)).Elects ((occasions before part).length % n) c
  /-- these are the occasions in order, and the slaves at the places are always the same -/
  selected : ∀ j r, (occasions before steps)[j]? = some r →
    ∃ c, r.Elects (j % n) c ∧ (run before).slaveIds[j % n]? = some c.nodeId
  /-- in `n` selections that follow each other, every slave is selected once -/
  once : ∀ k, k + n ≤ (occasions before steps).length → ∀ i < n,
    ∃! j, (k ≤ j ∧ j < k + n) ∧ ∃ r ∈ (occasions before steps)[j]?, ∃ c, r.Elects i c
  turn : ∀ part, part <+: steps → (run (before ++ part)).turn ≤ n

/-- **The slaves take turns.** In a complete set in which no slave was selected yet, and while nobody joins or leaves, the
slaves are selected one after the other in the order of their places, the first after the last; and the turn stays within
their number. -/
theorem turn_law (hfresh : occasions [] before = []) (hcomplete : (run before).isComplete = true)
    (hsteps : ∀ s ∈ steps, ¬ s.2.Moves) : TurnLaw before steps (run before).slaves.length := by
  have hturn : (run before).turn = 0 := turn_of_no_occasion hfresh
  have hstart : InTurn (run before).slaveIds 0 (run before) :=
    ⟨hcomplete, rfl, hturn ▸ Nat.zero_le _, congrArg (· % _) hturn⟩
  have helects : ∀ j r, (occasions before steps)[j]? = some r →
      ∃ c, r.Elects (j % (run before).slaves.length) c ∧
        (run before).slaveIds[j % (run before).slaves.length]? = some c.nodeId := by
    intro j r hj
    obtain ⟨hr, hcur⟩ := (hstart.run hsteps).2 j r hj
    rw [Nat.zero_add] at hr
    rw [hstart.length_slaves]
    exact hr.elects hcur
  have hpart : ∀ part, part <+: steps →
      InTurn (run before).slaveIds (occasions before part).length (run (before ++ part)) := by
    rintro part ⟨rest, rfl⟩
    have hrun := (hstart.run fun s hs => hsteps s (List.mem_append_left rest hs)).1
    rwa [Nat.zero_add] at hrun
  refine ⟨?_, helects, ?_, ?_⟩
  · intro part s hprefix hask
    have hturn := hpart part ((List.prefix_append part [s]).trans hprefix)
    obtain ⟨c, hc, -⟩ := hturn.elects (asksSlave_iff.1 hask).2.1
    rw [← hstart.length_slaves] at hc
    exact ⟨c, hc⟩
  · intro k hk i hi
    obtain ⟨j, ⟨hj, rfl⟩, hunique⟩ := existsUnique_mod_eq k hi
    have hplace := List.getElem?_eq_getElem (hj.2.trans_le hk)
    obtain ⟨c, hc, -⟩ := helects j _ hplace
    refine ⟨j, ⟨hj, _, hplace, c, hc⟩, ?_⟩
    rintro j' ⟨hj', r, hr, d, hd⟩
    obtain ⟨d', hd', -⟩ := helects j' r hr
    exact hunique j' ⟨hj', hd'.place_unique hd⟩
  · intro part hprefix
    rw [hstart.length_slaves]
    exact (hpart part hprefix).turn_le

/-- Two slaves that cannot be reached: either is selected by an opening that fails, and again by reading from it. -/
theorem turn_law_unreachable :
    let named (name : String) : Connection := { endpoint := { label := some name } }
    let get : Command := { spec := .named "get" .first .read, arguments := [[107]] }
    let set : Command := { spec := .named "set" .first .write, arguments := [[107], [118]] }
    let before : List (Network × Op) :=
      [(⟨[]⟩, .add (named "one")), (⟨[]⟩, .add (named "master")), (⟨[]⟩, .add (named "two"))]
    let steps : List (Network × Op) := [(⟨[]⟩, .connect), (⟨[]⟩, .connect), (⟨[]⟩, .execute get), (⟨[]⟩, .connect),
      (⟨[]⟩, .write set), (⟨[]⟩, .switchTo "one"), (⟨[]⟩, .disconnect), (⟨[]⟩, .choose get [])]
    occasions [] before = [] ∧ (run before).isComplete = true ∧ (∀ s ∈ steps, ¬ s.2.Moves) ∧
    (occasions before steps).length = 4 ∧ (∃ r ∈ (occasions before steps)[3]?, ∃ c, r.Elects 1 c) ∧
    (run (before ++ steps)).turn ≤ 2 := by
  intro named get set before steps
  have hfresh : occasions [] before = [] := rfl
  have hcomplete : (run before).isComplete = true := rfl
  have hsteps : ∀ s ∈ steps, ¬ s.2.Moves := by simp [steps, Op.Moves]
  have hlength : (occasions before steps).length = 4 := by decide
  have hlaw : TurnLaw before steps 2 := turn_law hfresh hcomplete hsteps
  obtain ⟨c, hc, -⟩ := hlaw.selected 3 _ (List.getElem?_eq_getElem (hlength ▸ Nat.lt_succ_self 3))
  exact ⟨hfresh, hcomplete, hsteps, hlength, ⟨_, List.getElem?_eq_getElem _, c, hc⟩,
    hlaw.turn steps List.prefix_rfl⟩

end RespClient.ReplicaRegistry
