/-
How long the master of a replicated set stays in use after a command that does not only read was routed, over any run of the
set: members join and leave, rules change, channels fail, and members are handed out and used.

- `Promotes`, `Unseats`, `Op.Turns`: what puts the master in use, what replaces or removes him, and what turns away from him
  on purpose.
- `master_inUse_step`: one step puts him in use, or he was in use and it does none of the others.
- `master_inUse_run`: so it is over a run, by induction from its end.
- `served_by_master_iff`: as long as nothing turns away, commands are served by the master iff they do not only read, or he
  was neither replaced nor removed since he was last put in use.
- `promotion_lost`: a master who replaces the one in use is not in use himself, and reading goes to a slave.
-/
import RespClient.Proofs.ReplicaRegistry

namespace RespClient.Replication

open Connection (Became)

variable {r : Replication} {command : Command} {ρ : Role}

/-! ## Choosing -/

theorem choose_of_write (hc : r.isComplete = true) (hreads : r.reads command = .ok false) :
    r.choose command = (.ok .master, { r with current := some .master }) := by
  unfold choose
  rw [if_neg (by simp [hc])]
  simp only [hreads]

theorem choose_of_read (hc : r.isComplete = true) (hreads : r.reads command = .ok true) (hcur : r.current = some ρ) :
    r.choose command = (.ok ρ, r) := by
  unfold choose
  rw [if_neg (by simp [hc])]
  simp only [hreads, hcur]

/-- The master is chosen for what does not only read, and else if he is in use. -/
theorem eq_master_iff (h : (r.choose command).1 = .ok ρ) :
    ρ = .master ↔ r.reads command = .ok false ∨ r.current = some .master := by
  rcases r.choose_cases command with ⟨e, he⟩ | ⟨ρ', turn, hρ', hc, ⟨hreads, rfl⟩ | ⟨hreads, hcur⟩⟩
  · rw [he] at h
    contradiction
  · rw [hρ'] at h
    exact iff_of_true (Except.ok.inj h).symm (.inl hreads)
  · rw [hρ'] at h
    obtain rfl := Except.ok.inj h
    constructor
    · rintro rfl
      rcases hcur with hcur | ⟨i, hi⟩
      · exact .inr hcur
      · contradiction
    · rintro (hwrite | hmaster)
      · rw [hreads] at hwrite
        contradiction
      · rw [choose_of_read hc hreads hmaster] at hρ'
        exact (Except.ok.inj (congrArg Prod.fst hρ')).symm

/-- Choosing the master puts him in use and changes nothing else. -/
theorem choose_eq_of_master (h : (r.choose command).1 = .ok .master) :
    r.master.isSome ∧ r.choose command = (.ok .master, { r with current := some .master }) := by
  rcases r.choose_cases command with ⟨e, he⟩ | ⟨ρ, turn, hρ, hc, hcases⟩
  · rw [he] at h
    contradiction
  · refine ⟨(isComplete_iff.1 hc).1, ?_⟩
    rcases (eq_master_iff h).1 rfl with hwrite | hcur
    · exact choose_of_write hc hwrite
    · rcases hcases with ⟨hwrite, -⟩ | ⟨hread, -⟩
      · exact choose_of_write hc hwrite
      · rw [choose_of_read hc hread hcur, ← hcur]

/-- A command for which the master is chosen is carried out by the connection that is the master at that moment. -/
theorem route_of_master {α : Type} (h : (r.choose command).1 = .ok .master)
    (op : Connection → Network → Outcome Connection α) (net : Network) : ∃ m, r.master = some m ∧
      r.route command op net = (op m net).within fun m' => { r with master := some m', current := some .master } := by
  obtain ⟨hsome, hchoose⟩ := choose_eq_of_master h
  obtain ⟨m, hm⟩ := Option.isSome_iff_exists.1 hsome
  refine ⟨m, hm, ?_⟩
  unfold route
  rw [hchoose]
  simp only [onMember, member?, hm]
  rfl

/-! ## Who is in use afterwards -/

theorem current_route {α : Type} {op : Connection → Network → Outcome Connection α}
    (hop : ∀ c net, Became c (op c net).state) (command : Command) (net : Network) :
    (r.route command op net).state.current = some .master ↔
      r.isComplete = true ∧ r.reads command = .ok false ∨ r.current = some .master := by
  unfold route
  rcases r.choose_cases command with ⟨e, he⟩ | ⟨ρ, turn, hρ, hc, -⟩
  · rw [he]
    refine ⟨.inr, ?_⟩
    rintro (⟨hc, hwrite⟩ | hcur)
    · rw [choose_of_write hc hwrite] at he
      cases he
    · exact hcur
  · have hmaster := eq_master_iff (congrArg Prod.fst hρ)
    rw [hρ]
    simp only [(kept_onMember hop { r with current := some ρ, turn } ρ net).2, Option.some.injEq, hmaster, hc, true_and]

theorem current_connect (net : Network) : (r.connect net).state.current = some .master ↔ r.current = some .master := by
  by_cases hc : r.isComplete = true
  · obtain ⟨ρ, turn, hρ, h⟩ := r.connect_eq net hc
    have hcur := (kept_onMember Connection.became_ensure { r with current := r.current, turn } ρ net).2
    rw [h]
    unfold Outcome.andThen
    split
    · show some ρ = some .master ↔ _
      rw [← hρ]
      cases r.current <;> simp
    · rw [hcur]
  · unfold connect
    rw [if_pos (by simpa using hc)]

theorem current_executeOn (name : String) (command : Command) (net : Network) :
    (r.executeOn name command net).state.current = r.current := by
  unfold executeOn
  cases r.find? name with
  | none => rfl
  | some ρ => exact (kept_onMember (fun c net => .used (.execute command) net .same) r ρ net).2

theorem current_add (conn : Connection) :
    (r.add conn).current = some .master ↔ r.current = some .master ∧ conn.nodeId ≠ masterId := by
  unfold add
  by_cases hm : conn.nodeId = masterId
  · rw [if_pos hm]
    simp only [hm, ne_eq, not_true_eq_false, and_false, iff_false]
    split_ifs with hcur
    · exact nofun
    · exact hcur
  · rw [if_neg hm]
    simp only [ne_eq, hm, not_false_eq_true, and_true]
    split
    · simp only
      split_ifs with hcur
      · simp [hcur]
      · exact Iff.rfl
    · exact Iff.rfl

theorem current_remove (name : String) : (r.remove name).2.current = some .master ↔
    r.current = some .master ∧ r.find? name ≠ some .master := by
  unfold remove
  cases hfind : r.find? name with
  | none => simp
  | some ρ =>
    cases ρ with
    | master =>
      simp only [ne_eq, not_true_eq_false, and_false, iff_false]
      split_ifs with hcur
      · exact nofun
      · exact hcur
    | slave i =>
      simp only [ne_eq, Option.some.injEq, reduceCtorEq, not_false_eq_true, and_true]
      cases r.current with
      | none => rfl
      | some ρ =>
        cases ρ with
        | master => rfl
        | slave j =>
          simp only [withoutSlave]
          split_ifs <;> simp

end RespClient.Replication

namespace RespClient.ReplicaRegistry

open Replication (Registered)

/-! ## What a step does to the master in use -/

/-- The command that an operation routes. -/
def Op.routed? : Op → Option Command
  | .choose command _ | .write command | .read command | .execute command => some command
  | _ => none

/-- An operation that turns away from the member in use, or may do so. -/
def Op.Turns : Op → Prop
  | .switchTo _ | .disconnect => True
  | _ => False

/-- The master comes into use: a command that does not only read is routed to him, or he is switched to. -/
def Promotes (r : Replication) (op : Op) : Prop :=
  (∃ command, op.routed? = some command ∧ r.isComplete = true ∧ r.reads command = .ok false) ∨
  ∃ name, op = .switchTo name ∧ r.find? name = some .master

/-- The master is replaced or leaves. -/
def Unseats (r : Replication) : Op → Prop
  | .add conn => conn.nodeId = Replication.masterId
  | .remove name => r.find? name = some .master
  | _ => False

variable {r : Replication} {op : Op} {command : Command}

theorem promotes_of_routed (hop : op.routed? = some command) :
    Promotes r op ↔ r.isComplete = true ∧ r.reads command = .ok false := by
  constructor
  · rintro (⟨asked, hasked, hwrite⟩ | ⟨name, rfl, -⟩)
    · obtain rfl := Option.some.inj (hop.symm.trans hasked)
      exact hwrite
    · contradiction
  · exact fun hwrite => .inl ⟨command, hop, hwrite⟩

theorem not_unseats_of_routed (hop : op.routed? = some command) : ¬ Unseats r op := by
  cases op with
  | add conn => contradiction
  | remove name => contradiction
  | _ => exact id

/-- Routing a command is an operation of the member that is to serve it, which is the same connection afterwards. -/
theorem exists_route (r : Replication) (net : Network) (hop : op.routed? = some command) :
    ∃ (α : Type) (use : Connection → Network → Outcome Connection α),
      (∀ (c : Connection) net, c.Became (use c net).state) ∧ step r net op = (r.route command use net).state := by
  cases op with
  | choose asked uses =>
    obtain rfl := Option.some.inj hop
    exact ⟨Unit, _, fun c _ => became_used uses c, rfl⟩
  | write sent =>
    obtain rfl := Option.some.inj hop
    exact ⟨Unit, _, fun c net => .used (.write sent) net .same, rfl⟩
  | read asked =>
    obtain rfl := Option.some.inj hop
    exact ⟨Reply, _, fun c net => .used .read net .same, rfl⟩
  | execute sent =>
    obtain rfl := Option.some.inj hop
    exact ⟨Reply, _, fun c net => .used (.execute sent) net .same, rfl⟩
  | _ => contradiction

theorem current_routed (hop : op.routed? = some command) (net : Network) : (step r net op).current = some .master ↔
    r.isComplete = true ∧ r.reads command = .ok false ∨ r.current = some .master := by
  obtain ⟨α, use, huse, hstep⟩ := exists_route r net hop
  rw [hstep]
  exact Replication.current_route huse command net

/-- **What one step does to the master in use,** if it does not turn away from him. -/
theorem master_inUse_step (net : Network) (hop : ¬ op.Turns) : (step r net op).current = some .master ↔
    Promotes r op ∨ r.current = some .master ∧ ¬ Unseats r op := by
  have hrouted : ∀ {command}, op.routed? = some command → ((step r net op).current = some .master ↔
      Promotes r op ∨ r.current = some .master ∧ ¬ Unseats r op) := by
    intro command h
    rw [current_routed h, promotes_of_routed h, and_iff_left (not_unseats_of_routed h)]
  cases op with
  | add conn => simp [step, Replication.current_add, Promotes, Unseats, Op.routed?]
  | remove name => simp [step, Replication.current_remove, Promotes, Unseats, Op.routed?]
  | switchTo name => exact absurd trivial hop
  | disconnect => exact absurd trivial hop
  | setRule id rule => simp [step, Replication.setRule, Promotes, Unseats, Op.routed?]
  | connect => simp [step, Replication.current_connect, Promotes, Unseats, Op.routed?]
  | executeOn name command => simp [step, Replication.current_executeOn, Promotes, Unseats, Op.routed?]
  | choose command uses => exact hrouted rfl
  | write command => exact hrouted rfl
  | read command => exact hrouted rfl
  | execute command => exact hrouted rfl

/-! ## Over a run -/

/-- In the course of the steps, which follow those of `before`, the master came into use, and he was neither replaced nor
removed afterwards. -/
def Reigns (before steps : List (Network × Op)) : Prop :=
  ∃ earlier s later, steps = earlier ++ s :: later ∧ Promotes (run (before ++ earlier)) s.2 ∧
    ∀ part t, part ++ [t] <+: later → ¬ Unseats (run (before ++ earlier ++ s :: part)) t.2

variable {before steps : List (Network × Op)} {s : Network × Op}

theorem reigns_concat : Reigns before (steps ++ [s]) ↔
    Promotes (run (before ++ steps)) s.2 ∨ Reigns before steps ∧ ¬ Unseats (run (before ++ steps)) s.2 := by
  constructor
  · rintro ⟨earlier, t, later, heq, hprom, hkept⟩
    rcases List.eq_nil_or_concat later with rfl | ⟨later, u, rfl⟩
    · obtain ⟨rfl, hs⟩ := List.append_inj' heq rfl
      obtain rfl := List.singleton_inj.1 hs
      exact .inl hprom
    · rw [List.concat_eq_append] at heq hkept
      have heq' : steps ++ [s] = (earlier ++ t :: later) ++ [u] := by simpa using heq
      obtain ⟨rfl, hs⟩ := List.append_inj' heq' rfl
      obtain rfl := List.singleton_inj.1 hs
      refine .inr ⟨⟨earlier, t, later, rfl, hprom, ?_⟩, ?_⟩
      · intro part v hpart
        exact hkept part v (hpart.trans (List.prefix_append _ _))
      · rw [← List.append_assoc]
        exact hkept later s (List.prefix_refl _)
  · rintro (hprom | ⟨⟨earlier, t, later, rfl, hprom, hkept⟩, hlast⟩)
    · exact ⟨steps, s, [], rfl, hprom, fun part t hpart => by simp at hpart⟩
    · refine ⟨earlier, t, later ++ [s], by simp, hprom, ?_⟩
      intro part v hpart
      rcases List.prefix_concat_iff.1 hpart with heq | hpart
      · obtain ⟨rfl, hs⟩ := List.append_inj' heq rfl
        obtain rfl := List.singleton_inj.1 hs
        rw [List.append_assoc]
        exact hlast
      · exact hkept part v hpart

/-- **Once the master came into use,** he is so in the end iff he was not replaced or removed since he last came. -/
theorem master_inUse_run (hprom : Promotes (run before) s.2) (hs : ¬ s.2.Turns) (hsteps : ∀ t ∈ steps, ¬ t.2.Turns) :
    (run (before ++ s :: steps)).current = some .master ↔ Reigns before (s :: steps) := by
  induction steps using List.reverseRecOn with
  | nil =>
    rw [run_snoc, master_inUse_step s.1 hs]
    refine iff_of_true (.inl hprom) ⟨[], s, [], rfl, ?_, fun part t hpart => by simp at hpart⟩
    rwa [List.append_nil]
  | append_singleton steps t ih =>
    have hlast : ¬ t.2.Turns := hsteps t List.mem_concat_self
    have ih := ih fun u hu => hsteps u (List.mem_append_left _ hu)
    rw [← List.cons_append, ← List.append_assoc, run_snoc, master_inUse_step t.1 hlast, ih, ← reigns_concat]

/-! ## Who serves -/

/-- **Promotion lasts until the master is replaced or removed.** After a command that does not only read was routed, and
while nobody is switched to and the set is not closed, a command for which a member is chosen goes to the master iff it does
not only read either, or the master was neither replaced nor removed since he last came into use. It is then carried out by
the connection that is the master at that moment. -/
theorem served_by_master_iff {s : Network × Op} {command asked : Command} {ρ : Role} (hop : s.2.routed? = some command)
    (hcomplete : (run before).isComplete = true) (hwrite : (run before).reads command = .ok false)
    (hlater : ∀ t ∈ steps, ¬ t.2.Turns) (hchosen : ((run (before ++ s :: steps)).choose asked).1 = .ok ρ) :
    (ρ = .master ↔ (run (before ++ s :: steps)).reads asked = .ok false ∨ Reigns before (s :: steps)) ∧
    (ρ = .master → ∃ m, (run (before ++ s :: steps)).master = some m ∧ m.nodeId = Replication.masterId ∧
      ∀ {α : Type} (f : Connection → Network → Outcome Connection α) (net : Network),
        (run (before ++ s :: steps)).route asked f net = (f m net).within fun m' =>
          { run (before ++ s :: steps) with master := some m', current := some .master }) := by
  have hturns : ¬ s.2.Turns := by
    cases hs : s.2 with
    | switchTo name => simp [hs, Op.routed?] at hop
    | disconnect => simp [hs, Op.routed?] at hop
    | _ => exact id
  have hprom : Promotes (run before) s.2 := (promotes_of_routed hop).2 ⟨hcomplete, hwrite⟩
  refine ⟨?_, ?_⟩
  · rw [Replication.eq_master_iff hchosen, master_inUse_run hprom hturns hlater]
  · rintro rfl
    obtain ⟨hsome, -⟩ := Replication.choose_eq_of_master hchosen
    obtain ⟨m, hm⟩ := Option.isSome_iff_exists.1 hsome
    refine ⟨m, hm, (registered_run _).master m hm, ?_⟩
    intro α f net
    obtain ⟨m', hm', hroute⟩ := Replication.route_of_master hchosen f net
    obtain rfl := Option.some.inj (hm.symm.trans hm')
    exact hroute

/-- A slave leaves and another one joins while a master is in use that cannot be reached: he is kept, and read from. -/
theorem served_by_master_unreachable :
    let named (name : String) : Connection := { endpoint := { label := some name } }
    let get : Command := { spec := .named "get" .first .read, arguments := [[107]] }
    let set : Command := { spec := .named "set" .first .write, arguments := [[107], [118]] }
    let before : List (Network × Op) := [(⟨[]⟩, .add (named "master")), (⟨[]⟩, .add (named "slave"))]
    let later : List (Network × Op) := [(⟨[]⟩, .connect), (⟨[]⟩, .remove "slave"), (⟨[]⟩, .add (named "other"))]
    let r := run (before ++ (⟨[]⟩, .write set) :: later)
    (r.choose get).1 = .ok .master ∧ r.reads get = .ok true ∧ Reigns before ((⟨[]⟩, .write set) :: later) := by
  intro named get set before later r
  have hchosen : (r.choose get).1 = .ok .master := by decide
  have hread : r.reads get = .ok true := by decide
  have hlater : ∀ t ∈ later, ¬ t.2.Turns := by simp [later, Op.Turns]
  have hop : Op.routed? (.write set) = some set := rfl
  obtain ⟨hiff, -⟩ := served_by_master_iff (s := (⟨[]⟩, .write set)) hop rfl rfl hlater hchosen
  refine ⟨hchosen, hread, (hiff.1 rfl).resolve_left ?_⟩
  rw [show (run (before ++ (⟨[]⟩, .write set) :: later)).reads get = .ok true from hread]
  exact nofun

/-- **Promotion does not last beyond the master.** A command that does not only read is routed to the master; another
connection becomes the master in his place; nobody was switched to and the set was not closed. Reading then goes to a
slave. So it does when the master leaves and comes back. -/
theorem promotion_lost :
    let named (name : String) : Connection := { endpoint := { label := some name } }
    let get : Command := { spec := .named "get" .first .read, arguments := [[107]] }
    let set : Command := { spec := .named "set" .first .write, arguments := [[107], [118]] }
    let before : List (Network × Op) := [(⟨[]⟩, .add (named "master")), (⟨[]⟩, .add (named "slave"))]
    let write : Network × Op := (⟨[]⟩, .execute set)
    let replaced : List (Network × Op) := [(⟨[]⟩, .add (named "master"))]
    let returned : List (Network × Op) := [(⟨[]⟩, .remove "master"), (⟨[]⟩, .add (named "master"))]
    (run before).isComplete = true ∧ (run before).reads set = .ok false ∧
    (run (before ++ [write])).current = some .master ∧ (∀ t ∈ replaced ++ returned, ¬ t.2.Turns) ∧
    ((run (before ++ write :: replaced)).choose get).1 = .ok (.slave 0) ∧
    ((run (before ++ write :: returned)).choose get).1 = .ok (.slave 0) := by
  intro named get set before write replaced returned
  exact ⟨rfl, rfl, rfl, by simp [replaced, returned, Op.Turns], rfl, by decide⟩

end RespClient.ReplicaRegistry
