/-
Operations of a replicated set that fail, over any run of the set: they leave it as it was.

- `handOut`: the member that is to serve a command; routed operations are operations of that member (`route_eq`).
- `handOut_isOk_iff`: there is one iff the set is complete and the command is not unsupported. A member that was put in use
  is always there to be handed out, so nobody is put in use for nothing.
- `connect_error`: an opening that fails changes nobody in use and opens or closes no member; only the turn may pass on.
- `failure_law`: what holds of every failure in every set that a run leads to.
-/
import RespClient.Proofs.FailedOpening
import RespClient.Proofs.ReplicaPromotion

namespace RespClient

open Connection (Alike)

namespace Replication

variable {r : Replication} {command : Command} {name : String} {net : Network} {e : ClientError}

/-! ## Handing out -/

/-- The member that is to serve a command, and the set with that member in use. -/
def handOut (r : Replication) (command : Command) : Except ClientError Connection × Replication :=
  match r.choose command with
  | (.ok ρ, r) => ((r.member? ρ).elim (.error membersMissing) .ok, r)
  | (.error e, r) => (.error e, r)

/-- A command is supported if there is a rule for its id, or else by its specification. -/
def Supports (r : Replication) (command : Command) : Prop :=
  r.rules.lookup command.id = none → command.spec.access ≠ .unsupported

theorem supports_iff : r.Supports command ↔ ∃ reads, r.reads command = .ok reads := by
  unfold Supports reads
  cases r.rules.lookup command.id with
  | some rule => simp
  | none => cases command.spec.access <;> simp

/-- There is a role to choose in a complete set, for what it supports. -/
theorem choose_isOk_iff : (∃ ρ, (r.choose command).1 = .ok ρ) ↔ r.isComplete = true ∧ r.Supports command := by
  rw [supports_iff]
  rcases r.choose_cases command with ⟨e, he⟩ | ⟨ρ, turn, hρ, hc, hcases⟩
  · refine iff_of_false (by simp [he]) ?_
    rintro ⟨hc, reads, hreads⟩
    unfold choose at he
    rw [if_neg (by simp [hc]), hreads] at he
    cases reads with
    | false => cases he
    | true => cases hcur : r.current <;> simp [hcur] at he
  · refine iff_of_true ⟨ρ, congrArg Prod.fst hρ⟩ ⟨hc, ?_⟩
    rcases hcases with ⟨hreads, -⟩ | ⟨hreads, -⟩ <;> exact ⟨_, hreads⟩

/-- Either nothing changes and nobody is handed out, or the member at the place chosen is. -/
theorem handOut_cases (hseated : Seated r) (command : Command) :
    (∃ e, r.choose command = (.error e, r) ∧ r.handOut command = (.error e, r)) ∨
    ∃ ρ c r', r.choose command = (.ok ρ, r') ∧ r'.member? ρ = some c ∧ r.handOut command = (.ok c, r') := by
  rcases r.choose_cases command with ⟨e, he⟩ | ⟨ρ, turn, hρ, -, -⟩
  · refine .inl ⟨e, he, ?_⟩
    unfold handOut
    rw [he]
  · obtain ⟨c, hc⟩ := Option.isSome_iff_exists.1 (isSome_of_choose hseated (congrArg Prod.fst hρ))
    have hmember : ({ r with current := some ρ, turn } : Replication).member? ρ = some c :=
      (member?_settings r (some ρ) turn r.rules ρ).trans hc
    refine .inr ⟨ρ, c, _, hρ, hmember, ?_⟩
    unfold handOut
    rw [hρ]
    simp only [hmember, Option.elim_some]

theorem handOut_isOk_iff (hseated : Seated r) : (∃ c, (r.handOut command).1 = .ok c) ↔
    r.master.isSome ∧ r.slaves ≠ [] ∧ r.Supports command := by
  rw [← and_assoc, ← isComplete_iff, ← choose_isOk_iff]
  rcases handOut_cases hseated command with ⟨e, he, h⟩ | ⟨ρ, c, r', hρ, -, h⟩
  · simp [he, h]
  · simp [hρ, h]

/-- A command that nobody serves: all its operations fail alike and change nothing. -/
theorem route_of_handOut_error (net : Network) (hseated : Seated r) (h : (r.handOut command).1 = .error e) :
    (r.handOut command).2 = r ∧ ∀ {α : Type} (op : Connection → Network → Outcome Connection α),
      r.route command op net = ⟨.error e, r, net⟩ := by
  rcases handOut_cases hseated command with ⟨e', he', h'⟩ | ⟨ρ, c, r', -, -, h'⟩
  · rw [h'] at h ⊢
    obtain rfl := Except.error.inj h
    refine ⟨rfl, fun op => ?_⟩
    unfold route
    rw [he']
  · rw [h'] at h
    cases h

/-- A command that somebody serves: its operations are his. -/
theorem route_of_handOut_ok (hseated : Seated r) {c : Connection} (h : (r.handOut command).1 = .ok c) :
    ∃ ρ, (r.choose command).1 = .ok ρ ∧ (r.handOut command).2.member? ρ = some c ∧
      ∀ {α : Type} (op : Connection → Network → Outcome Connection α),
        r.route command op net = (op c net).within ((r.handOut command).2.setMember ρ) := by
  rcases handOut_cases hseated command with ⟨e', -, h'⟩ | ⟨ρ, c', r', hρ, hc', h'⟩
  · rw [h'] at h
    cases h
  · rw [h'] at h ⊢
    obtain rfl := Except.ok.inj h
    refine ⟨ρ, congrArg Prod.fst hρ, hc', fun op => ?_⟩
    unfold route
    rw [hρ]
    simp only [onMember, hc']

/-! ## Names that nobody has -/

/-- Nobody answers to a name under which nobody is found. -/
theorem find?_eq_none_iff : r.find? name = none ↔ ∀ ρ c, r.member? ρ = some c → c.answersTo name = false := by
  constructor
  · intro h ρ c hc
    unfold find? at h
    split_ifs at h with hmaster
    cases ρ with
    | master =>
      have hm : r.master = some c := hc
      simpa [hm] using hmaster
    | slave i =>
      rw [Option.map_eq_none_iff, List.findIdx?_eq_none_iff] at h
      exact h c (List.mem_of_getElem? hc)
  · intro h
    by_contra hne
    obtain ⟨ρ, hρ⟩ := Option.ne_none_iff_exists'.1 hne
    obtain ⟨c, hc, hanswers⟩ := answersTo_of_find hρ
    rw [h ρ c hc] at hanswers
    contradiction

theorem switchTo_of_error (h : (r.switchTo name).1 = .error e) : (r.switchTo name).2 = r := by
  unfold switchTo at h ⊢
  cases hname : r.find? name with
  | none => rfl
  | some ρ => simp [hname] at h

theorem remove_of_none (h : (r.remove name).1 = none) : (r.remove name).2 = r := by
  rcases r.remove_cases name with h' | ⟨c, -, h'⟩ | ⟨i, hi, h'⟩
  · rw [h']
  · rw [h'] at h
    cases h
  · rw [h'] at h
    cases h

theorem executeOn_of_unknown (h : r.find? name = none) (command : Command) (net : Network) :
    r.executeOn name command net = ⟨.error (.configuration (.unknownAlias name)), r, net⟩ := by
  unfold executeOn
  rw [h]

/-! ## Openings that fail -/

/-- Nobody joined or left, was opened or closed, or came into use; at most the turn passed on to the next slave, and that
only where nobody is in use. -/
structure Rests (r r' : Replication) : Prop where
  members : ∀ ρ, Option.Rel Alike (r.member? ρ) (r'.member? ρ)
  current : r'.current = r.current
  rules : r'.rules = r.rules
  turn : r'.turn = r.turn ∨ r.current = none ∧ r'.turn = r.pickSlave.2.turn

theorem alike_settings (r : Replication) (turn : Nat) (ρ : Role) :
    Option.Rel Alike (r.member? ρ) (({ r with turn } : Replication).member? ρ) := by
  rw [show ({ r with turn } : Replication).member? ρ = r.member? ρ from member?_settings r r.current turn r.rules ρ]
  cases r.member? ρ with
  | none => exact .none
  | some c => exact .some (.refl c)

namespace Rests

theorem refl (r : Replication) : Rests r r := ⟨alike_settings r r.turn, rfl, rfl, .inl rfl⟩

/-- One member failed to open. -/
theorem setMember {turn : Nat} {ρ : Role} {c d : Connection} (hc : r.member? ρ = some c) (hd : c.Alike d)
    (hturn : turn = r.turn ∨ r.current = none ∧ turn = r.pickSlave.2.turn) :
    Rests r (({ r with turn } : Replication).setMember ρ d) where
  members ρ' := by
    by_cases hρ : ρ' = ρ
    · subst hρ
      have hset : (({ r with turn } : Replication).setMember ρ' d).member? ρ' = some d := by
        cases ρ' with
        | master => rfl
        | slave i => exact List.getElem?_set_self (List.getElem?_eq_some_iff.1 hc).1
      rw [hc, hset]
      exact .some hd
    · rw [member?_setMember_ne _ hρ]
      exact alike_settings r turn ρ'
  current := setMember_current ..
  rules := by cases ρ <;> rfl
  turn := by
    have hsame : (({ r with turn } : Replication).setMember ρ d).turn = turn := by cases ρ <;> rfl
    rw [hsame]
    exact hturn

end Rests

/-- **An opening that fails changes nobody in use, and no member is open that was not.** -/
theorem connect_error (hseated : Seated r) (h : (r.connect net).result = .error e) :
    Rests r (r.connect net).state := by
  by_cases hcomplete : r.isComplete = true
  · obtain ⟨ρ, turn, hρ, hturn, hconnect⟩ := r.connect_takes net hcomplete
    obtain ⟨c, hc⟩ := Option.isSome_iff_exists.1 (isSome_of_opened hseated hcomplete hρ)
    have hopening : ({ r with current := r.current, turn } : Replication).onMember ρ Connection.ensure net =
        (c.ensure net).within (({ r with turn } : Replication).setMember ρ) := by
      unfold onMember
      rw [member?_settings r r.current turn r.rules ρ, hc]
    rw [hconnect, hopening] at h ⊢
    cases hr : (c.ensure net).result with
    | ok _ => simp [Outcome.andThen, Outcome.within, hr] at h
    | error e' =>
      simp only [Outcome.andThen, Outcome.within, hr]
      exact .setMember hc (Connection.alike_of_ensure_error hr) hturn
  · have hfail : r.connect net = ⟨.error membersMissing, r, net⟩ := by
      unfold connect
      rw [if_pos (by simpa using hcomplete)]
    rw [hfail]
    exact .refl r

end Replication

namespace ReplicaRegistry

open Replication (Rests Seated)

/-- What holds of the operations that fail. -/
structure FailureLaw (r : Replication) (net : Network) : Prop where
  /-- there is a member to serve what a complete set supports -/
  served_iff : ∀ command, (∃ c, (r.handOut command).1 = .ok c) ↔
    r.master.isSome ∧ r.slaves ≠ [] ∧ r.Supports command
  /-- he is the one that operations on the command are carried out by -/
  served : ∀ command c, (r.handOut command).1 = .ok c → ∃ ρ, (r.choose command).1 = .ok ρ ∧
    (r.handOut command).2.member? ρ = some c ∧
    ∀ {α : Type} (op : Connection → Network → Outcome Connection α),
      r.route command op net = (op c net).within ((r.handOut command).2.setMember ρ)
  unserved : ∀ command e, (r.handOut command).1 = .error e → (r.handOut command).2 = r
  /-- and then every operation on the command fails so, the network untouched -/
  refused : ∀ command e, (r.handOut command).1 = .error e →
    r.write command net = ⟨.error e, r, net⟩ ∧ r.read command net = ⟨.error e, r, net⟩ ∧
    r.execute command net = ⟨.error e, r, net⟩
  switched : ∀ name e, (r.switchTo name).1 = .error e → (r.switchTo name).2 = r
  unknown : ∀ name, (∀ ρ c, r.member? ρ = some c → c.answersTo name = false) → ∀ command,
    r.executeOn name command net = ⟨.error (.configuration (.unknownAlias name)), r, net⟩
  missed : ∀ name, (r.remove name).1 = none → (r.remove name).2 = r
  unopened : ∀ e, (r.connect net).result = .error e → Rests r (r.connect net).state

/-- **The failure law.** In every set that a run leads to, an operation that fails leaves the members, their channels, the
one in use and the turn as they were; only an opening that fails may take the turn of a slave, if nobody is in use. -/
theorem failure_law (steps : List (Network × Op)) (net : Network) : FailureLaw (run steps) net := by
  have hseated : Seated (run steps) := (registered_run steps).seated
  exact {
    served_iff := fun command => Replication.handOut_isOk_iff hseated
    served := fun command c h => Replication.route_of_handOut_ok hseated h
    unserved := fun command e h => (Replication.route_of_handOut_error net hseated h).1
    refused := by
      intro command e h
      obtain ⟨-, hroute⟩ := Replication.route_of_handOut_error net hseated h
      exact ⟨hroute _, hroute _, hroute _⟩
    switched := fun name e => Replication.switchTo_of_error
    unknown := by
      intro name hnobody command
      exact Replication.executeOn_of_unknown (Replication.find?_eq_none_iff.2 hnobody) command net
    missed := fun name => Replication.remove_of_none
    unopened := fun e => Replication.connect_error hseated }

end ReplicaRegistry

end RespClient
