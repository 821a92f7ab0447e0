/-
Who belongs to a replicated set, over any run of it: any operations in any order, each on whatever network it finds.

- `registered_run`: the members are registered at any time.
- `Law`: what holds then of the member in use and of every step.
- `Tenure`: since when a slave's node id is in the set, and which connection came last under it.
- `registry_law`: all that, and the slaves stand in the order in which their node ids came.
-/
import RespClient.Proofs.ReplicaMembers

namespace RespClient

open ReplicaRouting (Use)
open Connection (Became)

namespace Replication

variable {r r' : Replication} {ρ : Role} {name : String} {net : Network}

/-! ## Other operations -/

theorem isSome_of_find {ρ : Role} (h : r.find? name = some ρ) : (r.member? ρ).isSome := by
  obtain ⟨c, hc, -⟩ := answersTo_of_find h
  exact Option.isSome_iff_exists.2 ⟨c, hc⟩

theorem isSome_pickSlave (hc : r.isComplete = true) : (r.member? (.slave r.pickSlave.1)).isSome := by
  have hpos : 0 < r.slaves.length := List.length_pos_iff.2 (isComplete_iff.1 hc).2
  have hlt : r.turn % max r.slaves.length 1 < r.slaves.length := by
    rw [Nat.max_eq_left hpos]
    exact Nat.mod_lt _ hpos
  simpa [member?, pickSlave] using hlt

/-- Who is chosen is a member. -/
theorem isSome_of_choose (hseated : Seated r) {command : Command} {ρ : Role} (h : (r.choose command).1 = .ok ρ) :
    (r.member? ρ).isSome := by
  unfold choose at h
  by_cases hc : r.isComplete = true
  · rw [if_neg (by simp [hc])] at h
    cases hreads : r.reads command with
    | error e => simp [hreads] at h
    | ok reads =>
      cases reads with
      | false =>
        simp only [hreads, Except.ok.injEq] at h
        subst h
        exact (isComplete_iff.1 hc).1
      | true =>
        cases hcur : r.current with
        | some ρ' =>
          simp only [hreads, hcur, Except.ok.injEq] at h
          exact hseated ρ (hcur.trans (congrArg some h))
        | none =>
          simp only [hreads, hcur, Except.ok.injEq] at h
          subst h
          exact isSome_pickSlave hc
  · rw [if_pos (by simpa using hc)] at h
    contradiction

/-- The member that connecting opens is there. -/
theorem isSome_of_opened (hseated : Seated r) (hc : r.isComplete = true) {ρ : Role}
    (hρ : r.current.getD (.slave r.pickSlave.1) = ρ) : (r.member? ρ).isSome := by
  cases hcur : r.current with
  | none =>
    rw [hcur, Option.getD_none] at hρ
    exact hρ ▸ isSome_pickSlave hc
  | some ρ' =>
    rw [hcur, Option.getD_some] at hρ
    exact hseated ρ (hcur.trans (congrArg some hρ))

section Operations

variable {α : Type} {op : Connection → Network → Outcome Connection α}

theorem kept_route (hseated : Seated r) (hop : ∀ c net, Became c (op c net).state) (command : Command)
    (net : Network) : Kept r (route command op r net).state ∧ Seated (route command op r net).state := by
  unfold route
  rcases r.choose_cases command with ⟨e, he⟩ | ⟨ρ, turn, hρ, -, -⟩
  · rw [he]
    exact ⟨.refl r, hseated⟩
  · have hmember := isSome_of_choose hseated (congrArg Prod.fst hρ)
    rw [hρ]
    obtain ⟨hkept, hcur⟩ := kept_onMember hop { r with current := some ρ, turn } ρ net
    have hkept := (Kept.of_settings r (some ρ) turn r.rules).trans hkept
    refine ⟨hkept, hkept.seated fun ρ' hρ' => ?_⟩
    obtain rfl := Option.some.inj (hcur.symm.trans hρ')
    exact hmember

/-- Connecting keeps the members, and the one in use as well unless it puts the member that it opened in use. -/
theorem kept_opened (r : Replication) (net : Network) : Kept r (r.connect net).state ∧
    ((r.connect net).state.current = r.current ∨
      r.isComplete = true ∧ (r.connect net).state.current = some (r.current.getD (.slave r.pickSlave.1))) := by
  by_cases hc : r.isComplete = true
  · obtain ⟨ρ, turn, rfl, h⟩ := r.connect_eq net hc
    obtain ⟨hkept, hcur⟩ := kept_onMember Connection.became_ensure { r with current := r.current, turn } _ net
    have hkept := (Kept.of_settings r r.current turn r.rules).trans hkept
    rw [h]
    unfold Outcome.andThen
    split
    · exact ⟨hkept.trans (.of_settings _ _ _ _), .inr ⟨hc, rfl⟩⟩
    · exact ⟨hkept, .inl hcur⟩
  · have h : r.connect net = ⟨.error membersMissing, r, net⟩ := by
      unfold connect
      rw [if_pos (by simpa using hc)]
    rw [h]
    exact ⟨.refl r, .inl rfl⟩

theorem kept_connect (hseated : Seated r) (net : Network) :
    Kept r (r.connect net).state ∧ Seated (r.connect net).state := by
  obtain ⟨hkept, hcur⟩ := r.kept_opened net
  refine ⟨hkept, hkept.seated fun ρ hρ => ?_⟩
  rcases hcur with hcur | ⟨hc, hcur⟩
  · exact hseated ρ (hcur.symm.trans hρ)
  · exact isSome_of_opened hseated hc (Option.some.inj (hcur.symm.trans hρ))

theorem kept_executeOn (hseated : Seated r) (name : String) (command : Command) (net : Network) :
    Kept r (r.executeOn name command net).state ∧ Seated (r.executeOn name command net).state := by
  unfold executeOn
  cases hname : r.find? name with
  | none => exact ⟨.refl r, hseated⟩
  | some ρ =>
    obtain ⟨hkept, hcur⟩ := kept_onMember (fun c net => .used (.execute command) net .same) r ρ net
    exact ⟨hkept, hkept.seated fun ρ' hρ' => hseated ρ' (hcur.symm.trans hρ')⟩

theorem kept_switchTo (hseated : Seated r) (name : String) :
    Kept r (r.switchTo name).2 ∧ Seated (r.switchTo name).2 := by
  unfold switchTo
  cases hname : r.find? name with
  | none => exact ⟨.refl r, hseated⟩
  | some ρ =>
    refine ⟨.of_settings r (some ρ) r.turn r.rules, (Kept.of_settings r (some ρ) r.turn r.rules).seated ?_⟩
    intro ρ' hρ'
    obtain rfl := Option.some.inj hρ'
    exact isSome_of_find hname

end Operations

end Replication

namespace ReplicaRegistry

open Replication (Kept Registered Seated)

/-! ## Runs -/

inductive Op where
  | add (conn : Connection)
  | remove (name : String)
  | switchTo (name : String)
  | setRule (id : String) (rule : ReadRule)
  /-- the member that is to serve a command is handed out and used -/
  | choose (command : Command) (uses : List (Use × Network))
  | connect
  | disconnect
  | write (command : Command)
  | read (command : Command)
  | execute (command : Command)
  | executeOn (name : String) (command : Command)

/-- A connection joins or leaves. -/
def Op.Moves : Op → Prop
  | .add _ | .remove _ => True
  | _ => False

/-- The connection after some uses of it. -/
def used (uses : List (Use × Network)) (c : Connection) : Connection := uses.foldl (fun c u => (u.1.apply c u.2).1) c

theorem became_used (uses : List (Use × Network)) (c : Connection) : c.Became (used uses c) := by
  induction uses using List.reverseRecOn with
  | nil => exact .same
  | append_singleton uses u ih =>
    unfold used
    rw [List.foldl_append]
    exact .used u.1 u.2 ih

/-- The set after an operation on some network. -/
def step (r : Replication) (net : Network) : Op → Replication
  | .add conn => r.add conn
  | .remove name => (r.remove name).2
  | .switchTo name => (r.switchTo name).2
  | .setRule id rule => r.setRule id rule
  | .choose command uses => (r.route command (fun c net => ⟨.ok (), used uses c, net⟩) net).state
  | .connect => (r.connect net).state
  | .disconnect => r.disconnect
  | .write command => (r.write command net).state
  | .read command => (r.read command net).state
  | .execute command => (r.execute command net).state
  | .executeOn name command => (r.executeOn name command net).state

/-- An empty set after some operations, each on the network it finds. -/
def run (steps : List (Network × Op)) : Replication := steps.foldl (fun r s => step r s.1 s.2) {}

theorem run_snoc (steps : List (Network × Op)) (net : Network) (op : Op) :
    run (steps ++ [(net, op)]) = step (run steps) net op := by
  unfold run
  rw [List.foldl_append, List.foldl_cons, List.foldl_nil]

variable {r : Replication} {net : Network} {op : Op}

/-- If nobody joins or leaves, the members stay. -/
theorem kept_step (hr : Registered r) (net : Network) (hop : ¬ op.Moves) :
    Kept r (step r net op) ∧ Seated (step r net op) := by
  cases op with
  | add conn => exact absurd trivial hop
  | remove name => exact absurd trivial hop
  | switchTo name => exact Replication.kept_switchTo hr.seated name
  | setRule id rule => exact ⟨.of_settings r r.current r.turn _, hr.seated⟩
  | choose command uses => exact Replication.kept_route hr.seated (fun c _ => became_used uses c) command net
  | connect => exact Replication.kept_connect hr.seated net
  | disconnect => exact ⟨Replication.kept_disconnect r, fun _ hρ => nomatch hρ⟩
  | write command =>
    exact Replication.kept_route hr.seated (fun c net => .used (.write command) net .same) command net
  | read command => exact Replication.kept_route hr.seated (fun c net => .used .read net .same) command net
  | execute command =>
    exact Replication.kept_route hr.seated (fun c net => .used (.execute command) net .same) command net
  | executeOn name command => exact Replication.kept_executeOn hr.seated name command net

theorem registered_step (hr : Registered r) (net : Network) (op : Op) : Registered (step r net op) := by
  by_cases hop : op.Moves
  · cases op with
    | add conn => exact hr.add conn
    | remove name => exact hr.remove name
    | _ => contradiction
  · obtain ⟨hkept, hseated⟩ := kept_step hr net hop
    exact hr.kept hkept hseated

theorem registered_run (steps : List (Network × Op)) : Registered (run steps) := by
  induction steps using List.reverseRecOn with
  | nil => exact ⟨List.nodup_nil, List.forall_mem_nil _, fun _ hc => (nomatch hc), .inl rfl⟩
  | append_singleton steps s ih =>
    rw [run_snoc]
    exact registered_step ih s.1 s.2

/-! ## What one step obeys -/

/-- What holds of the members at any time, and of the steps they can take. -/
structure Law (r : Replication) : Prop where
  registered : Registered r
  chosen : ∀ command ρ, (r.choose command).1 = .ok ρ → (r.member? ρ).isSome
  added : ∀ conn, (r.add conn).inUse = r.inUse.filter (·.nodeId != conn.nodeId)
  answers : ∀ name c, (r.remove name).1 = some c → c.answersTo name = true
  /-- of several who answer to a name the first one leaves, and somebody leaves if there is one -/
  leaves : ∀ name, (r.remove name).1 = (r.master.toList ++ r.slaves).find? (·.answersTo name)
  removed : ∀ name,
    (r.remove name).2.inUse = r.inUse.filter fun c => (r.remove name).1.map Connection.nodeId != some c.nodeId
  master_added : ∀ conn, (r.add conn).master = if conn.nodeId = Replication.masterId then some conn else r.master
  master_removed : ∀ name, (r.remove name).2.master =
    r.master.filter fun c => (r.remove name).1.map Connection.nodeId != some c.nodeId
  slaves_added : ∀ conn, (r.add conn).slaves =
    if conn.nodeId = Replication.masterId then r.slaves
    else if conn.nodeId ∈ r.slaveIds then r.slaves.map fun c => if c.nodeId = conn.nodeId then conn else c
    else r.slaves ++ [conn]
  slaves_removed : ∀ name, (r.remove name).2.slaves =
    r.slaves.filter fun c => (r.remove name).1.map Connection.nodeId != some c.nodeId
  /-- when nobody joins or leaves, every place keeps its member -/
  others : ∀ net op, ¬ op.Moves → Kept r (step r net op)

theorem law (hr : Registered r) : Law r where
  registered := hr
  chosen _ _ := Replication.isSome_of_choose hr.seated
  added := Replication.inUse_add hr
  answers _ _ := Replication.answersTo_of_remove
  leaves := r.fst_remove
  removed := Replication.inUse_remove hr
  master_added := r.master_add
  master_removed := Replication.master_remove hr
  slaves_added := Replication.slaves_add hr
  slaves_removed := Replication.slaves_remove hr
  others net _ hop := (kept_step hr net hop).1

/-! ## Tenure -/

/-- The node id of a slave came into the set at the step `first` and stayed, and at the step `last` the last connection
joined under it: the slave is that connection, as its uses left it. -/
structure Tenure (steps : List (Network × Op)) (c : Connection) (first last : Nat) : Prop where
  absent : c.nodeId ∉ (run (steps.take first)).slaveIds
  present : ∀ n, first < n → c.nodeId ∈ (run (steps.take n)).slaveIds
  ordered : first ≤ last
  joined : ∃ net conn, steps[last]? = some (net, .add conn) ∧ conn.Became c
  latest : ∀ n net conn, last < n → steps[n]? = some (net, .add conn) → conn.nodeId ≠ c.nodeId

namespace Tenure

variable {steps : List (Network × Op)} {s : Network × Op} {c c' conn : Connection} {first last : Nat}

theorem last_lt (h : Tenure steps c first last) : last < steps.length := by
  obtain ⟨net, conn, hjoined, -⟩ := h.joined
  exact (List.getElem?_eq_some_iff.1 hjoined).1

theorem absent_snoc (h : Tenure steps c first last) : c.nodeId ∉ (run ((steps ++ [s]).take first)).slaveIds := by
  rw [List.take_append_of_le_length (h.ordered.trans h.last_lt.le)]
  exact h.absent

theorem present_snoc (h : Tenure steps c first last) (hstays : c.nodeId ∈ (run (steps ++ [s])).slaveIds) (n : Nat)
    (hn : first < n) : c.nodeId ∈ (run ((steps ++ [s]).take n)).slaveIds := by
  by_cases hlt : n ≤ steps.length
  · rw [List.take_append_of_le_length hlt]
    exact h.present n hn
  · rw [List.take_of_length_le]
    · exact hstays
    · rw [List.length_append, List.length_singleton]
      omega

/-- One more step, in which no connection joins under the node id. -/
theorem keep (h : Tenure steps c first last) (hbecame : c.Became c') (hstays : c.nodeId ∈ (run (steps ++ [s])).slaveIds)
    (hother : ∀ net conn, s = (net, .add conn) → conn.nodeId ≠ c.nodeId) : Tenure (steps ++ [s]) c' first last where
  absent := by
    rw [hbecame.nodeId]
    exact h.absent_snoc
  present := by
    rw [hbecame.nodeId]
    exact h.present_snoc hstays
  ordered := h.ordered
  joined := by
    obtain ⟨net, conn, hjoined, hconn⟩ := h.joined
    exact ⟨net, conn, (List.getElem?_append_left h.last_lt).trans hjoined, hconn.trans hbecame⟩
  latest n net conn hn hadd := by
    rw [hbecame.nodeId]
    rcases Nat.lt_trichotomy n steps.length with hlt | rfl | hgt
    · rw [List.getElem?_append_left hlt] at hadd
      exact h.latest n net conn hn hadd
    · rw [List.getElem?_concat_length] at hadd
      exact hother net conn (Option.some.inj hadd)
    · rw [List.getElem?_eq_none (by rw [List.length_append, List.length_singleton]; omega)] at hadd
      contradiction

/-- Nothing is later than the last step. -/
theorem latest_snoc (n : Nat) (net' : Network) (other : Connection) (hn : steps.length < n)
    (hadd : (steps ++ [(net, .add conn)])[n]? = some (net', .add other)) : other.nodeId ≠ conn.nodeId := by
  rw [List.getElem?_eq_none (by rw [List.length_append, List.length_singleton]; omega)] at hadd
  contradiction

/-- Another connection joins under the node id. -/
theorem replace (h : Tenure steps c first last) (hid : conn.nodeId = c.nodeId)
    (hstays : c.nodeId ∈ (run (steps ++ [(net, .add conn)])).slaveIds) :
    Tenure (steps ++ [(net, .add conn)]) conn first steps.length where
  absent := by
    rw [hid]
    exact h.absent_snoc
  present := by
    rw [hid]
    exact h.present_snoc hstays
  ordered := h.ordered.trans h.last_lt.le
  joined := ⟨net, conn, List.getElem?_concat_length, .same⟩
  latest := latest_snoc

/-- The first connection joins under a node id. -/
theorem start (hnew : conn.nodeId ∉ (run steps).slaveIds)
    (hmem : conn.nodeId ∈ (run (steps ++ [(net, .add conn)])).slaveIds) :
    Tenure (steps ++ [(net, .add conn)]) conn steps.length steps.length where
  absent := by
    rw [List.take_left]
    exact hnew
  present n hn := by
    rw [List.take_of_length_le]
    · exact hmem
    · rw [List.length_append, List.length_singleton]
      exact hn
  ordered := Nat.le_refl _
  joined := ⟨net, conn, List.getElem?_concat_length, .same⟩
  latest := latest_snoc

end Tenure

/-- Every slave has its tenure, and the slaves stand in the order in which their node ids came. -/
structure InOrder (steps : List (Network × Op)) (first last : String → Nat) : Prop where
  tenure : ∀ c ∈ (run steps).slaves, Tenure steps c (first c.nodeId) (last c.nodeId)
  increasing : (run steps).slaveIds.Pairwise fun id id' => first id < first id'

namespace InOrder

variable {steps : List (Network × Op)} {first last : String → Nat}

theorem first_lt (h : InOrder steps first last) {id : String} (hid : id ∈ (run steps).slaveIds) :
    first id < steps.length := by
  obtain ⟨c, hc, rfl⟩ := List.mem_map.1 hid
  exact Nat.lt_of_le_of_lt (h.tenure c hc).ordered (h.tenure c hc).last_lt

theorem add_master (h : InOrder steps first last) (net : Network) {conn : Connection}
    (hm : conn.nodeId = Replication.masterId) : InOrder (steps ++ [(net, .add conn)]) first last := by
  have hr := registered_run steps
  have hslaves : (run (steps ++ [(net, .add conn)])).slaves = (run steps).slaves := by
    rw [run_snoc, step, Replication.slaves_add hr, if_pos hm]
  refine ⟨?_, by rw [Replication.slaveIds, hslaves]; exact h.increasing⟩
  intro c hc
  rw [hslaves] at hc
  refine (h.tenure c hc).keep .same ?_ ?_
  · rw [Replication.slaveIds, hslaves]
    exact List.mem_map_of_mem hc
  · rintro _ _ ⟨⟩ heq
    exact hr.slaves c hc (heq.symm.trans hm)

theorem add_again (h : InOrder steps first last) (net : Network) {conn : Connection}
    (hm : conn.nodeId ≠ Replication.masterId) (hmem : conn.nodeId ∈ (run steps).slaveIds) :
    InOrder (steps ++ [(net, .add conn)]) first (Function.update last conn.nodeId steps.length) := by
  have hr := registered_run steps
  have hids : (run (steps ++ [(net, .add conn)])).slaveIds = (run steps).slaveIds := by
    rw [run_snoc, step, Replication.slaveIds_add hr, if_pos (.inr hmem)]
  refine ⟨?_, by rw [hids]; exact h.increasing⟩
  intro c' hc'
  rw [run_snoc, step, Replication.slaves_add hr, if_neg hm, if_pos hmem] at hc'
  obtain ⟨c, hc, rfl⟩ := List.mem_map.1 hc'
  have hstays : c.nodeId ∈ (run (steps ++ [(net, .add conn)])).slaveIds := by
    rw [hids]
    exact List.mem_map_of_mem hc
  split_ifs with heq
  · rw [Function.update_self, ← heq]
    exact (h.tenure c hc).replace heq.symm hstays
  · rw [Function.update_of_ne heq]
    refine (h.tenure c hc).keep .same hstays ?_
    rintro _ _ ⟨⟩ heq'
    exact heq heq'.symm

theorem add_new (h : InOrder steps first last) (net : Network) {conn : Connection}
    (hm : conn.nodeId ≠ Replication.masterId) (hnew : conn.nodeId ∉ (run steps).slaveIds) :
    InOrder (steps ++ [(net, .add conn)]) (Function.update first conn.nodeId steps.length)
      (Function.update last conn.nodeId steps.length) := by
  have hr := registered_run steps
  have hids : (run (steps ++ [(net, .add conn)])).slaveIds = (run steps).slaveIds ++ [conn.nodeId] := by
    rw [run_snoc, step, Replication.slaveIds_add hr, if_neg (by simp [hm, hnew])]
  have hold : ∀ id ∈ (run steps).slaveIds, id ≠ conn.nodeId := fun id hid heq => hnew (heq ▸ hid)
  refine ⟨?_, ?_⟩
  · intro c hc
    rw [run_snoc, step, Replication.slaves_add hr, if_neg hm, if_neg hnew] at hc
    rcases List.mem_append.1 hc with hc | hc
    · have hid : c.nodeId ∈ (run steps).slaveIds := List.mem_map_of_mem hc
      rw [Function.update_of_ne (hold _ hid), Function.update_of_ne (hold _ hid)]
      refine (h.tenure c hc).keep .same ?_ ?_
      · rw [hids]
        exact List.mem_append_left _ hid
      · rintro _ _ ⟨⟩ heq
        exact hold _ hid heq.symm
    · obtain rfl := List.mem_singleton.1 hc
      rw [Function.update_self, Function.update_self]
      refine .start hnew ?_
      rw [hids]
      exact List.mem_concat_self
  · rw [hids]
    refine List.pairwise_append.2 ⟨?_, List.pairwise_singleton _ _, ?_⟩
    · refine h.increasing.imp_of_mem fun hid hid' hlt => ?_
      rw [Function.update_of_ne (hold _ hid), Function.update_of_ne (hold _ hid')]
      exact hlt
    · intro id hid id' hid'
      rw [List.mem_singleton.1 hid', Function.update_self, Function.update_of_ne (hold _ hid)]
      exact h.first_lt hid

theorem remove (h : InOrder steps first last) (net : Network) (name : String) :
    InOrder (steps ++ [(net, .remove name)]) first last := by
  have hr := registered_run steps
  refine ⟨?_, ?_⟩
  · intro c hc
    have hstays : c.nodeId ∈ (run (steps ++ [(net, .remove name)])).slaveIds := List.mem_map_of_mem hc
    rw [run_snoc, step, Replication.slaves_remove hr] at hc
    exact (h.tenure c (List.mem_of_mem_filter hc)).keep .same hstays (fun _ _ heq => nomatch heq)
  · rw [run_snoc, step, Replication.slaveIds_remove hr]
    exact h.increasing.filter _

theorem kept (h : InOrder steps first last) (net : Network) {op : Op} (hop : ¬ op.Moves) :
    InOrder (steps ++ [(net, op)]) first last := by
  have hkept := (kept_step (registered_run steps) net hop).1
  have hids : (run (steps ++ [(net, op)])).slaveIds = (run steps).slaveIds := by
    rw [run_snoc]
    exact hkept.slaveIds_eq
  refine ⟨?_, by rw [hids]; exact h.increasing⟩
  intro c' hc'
  rw [run_snoc] at hc'
  obtain ⟨i, hi⟩ := List.mem_iff_getElem?.1 hc'
  obtain ⟨c, hc, hbecame⟩ := hkept.member? (ρ := .slave i) hi
  have hmem : c ∈ (run steps).slaves := List.mem_of_getElem? hc
  rw [hbecame.nodeId]
  refine (h.tenure c hmem).keep hbecame ?_ ?_
  · rw [hids]
    exact List.mem_map_of_mem hmem
  · rintro _ _ ⟨⟩
    exact absurd trivial hop

end InOrder

theorem inOrder_run (steps : List (Network × Op)) : ∃ first last, InOrder steps first last := by
  induction steps using List.reverseRecOn with
  | nil => exact ⟨fun _ => 0, fun _ => 0, List.forall_mem_nil _, .nil⟩
  | append_singleton steps s ih =>
    obtain ⟨first, last, h⟩ := ih
    obtain ⟨net, op⟩ := s
    by_cases hop : op.Moves
    · cases op with
      | add conn =>
        by_cases hm : conn.nodeId = Replication.masterId
        · exact ⟨_, _, h.add_master net hm⟩
        · by_cases hmem : conn.nodeId ∈ (run steps).slaveIds
          · exact ⟨_, _, h.add_again net hm hmem⟩
          · exact ⟨_, _, h.add_new net hm hmem⟩
      | remove name => exact ⟨_, _, h.remove net name⟩
      | _ => contradiction
    · exact ⟨_, _, h.kept net hop⟩

/-- **The registry law.** At any time of any run: node ids are distinct, the master has his own, there is a member at the
place in use, and it is the same one before and after another one joins or leaves; the slaves stand in the order in
which their node ids came into the set, each with the last connection that joined under it. -/
theorem registry_law (steps : List (Network × Op)) :
    Law (run steps) ∧ ∃ first last, InOrder steps first last :=
  ⟨law (registered_run steps), inOrder_run steps⟩

end ReplicaRegistry

end RespClient
