/-
What may reach a slave, over any run of a replicated set in a world: its members join and leave, their channels open, fail
and close, and the user works with other connections beside it.

- `Law.slaves`: what a slave's channel receives are setup commands, commands addressed to the slave by name, and routed
  commands that only read by the rules in force when they are routed.
- `Law.unsupported`: routing a command that is unsupported, with no rule given for it, changes nothing.
- `Law.routed`, `Law.others`: routing touches the channels of the member in use afterwards, and nothing of the others.
- `Promoted`: the master is in use only since a command that does not only read was routed, or the master was switched to.
- `Log`: over a whole run, every command a channel received and the operation that sent it.

`routing_law` has them for every run; the channel of one member is never touched on behalf of another because each channel
belongs to one connection (`apart_run`).
-/
import RespClient.Proofs.Ownership

namespace RespClient.ReplicaRouting

namespace World

/-! ## Channels of members -/

/-- The member of a part holds the channel. -/
def Holds (w : World) (ρ : Role) (id : ChannelId) : Prop := ∃ c, w.set.member? ρ = some c ∧ c.channel = some id

/-- The operation opens the channel for the member of a part, whether or not it is kept. -/
def Opens (w : World) (op : Op) (ρ : Role) (id : ChannelId) : Prop :=
  w.target op = some ρ ∧ w.net.channel? id = none ∧ ((w.step op).net.channel? id).isSome

/-- The channel is the member's during the operation. -/
def Uses (w : World) (op : Op) (ρ : Role) (id : ChannelId) : Prop := w.Holds ρ id ∨ w.Opens op ρ id

variable {w w' : World} {ρ ρ' : Role} {commands : List Command} {id : ChannelId} {op : Op}

namespace Acts

theorem member?_ne (h : w.Acts ρ commands w') (hne : ρ' ≠ ρ) : w'.set.member? ρ' = w.set.member? ρ' := by
  obtain ⟨c, c', current, turn, -, -, -, hset⟩ := h
  rw [hset, ← w.set.member?_setMember_ne hne c']
  cases ρ' <;> rfl

/-- A channel that is different afterwards was held by the one who acted, or is new. -/
theorem of_changed (h : w.Acts ρ commands w') (hid : w'.net.channel? id ≠ w.net.channel? id) :
    w.Holds ρ id ∨ w.net.channel? id = none ∧ (w'.net.channel? id).isSome := by
  obtain ⟨c, c', -, -, hc, hcond, -, -⟩ := h
  cases hold : w.net.channel? id with
  | none =>
    rw [hold] at hid
    exact .inr ⟨rfl, Option.isSome_iff_ne_none.2 hid⟩
  | some ch =>
    refine .inl ⟨c, hc, ?_⟩
    by_contra hne
    exact hid (hcond.others id hne (by rw [hold]; rfl))

/-- The channels of the other members stay as they are. -/
theorem untouched (hw : Apart w.net w.connections) (h : w.Acts ρ commands w') (hne : ρ' ≠ ρ) (hid : w.Holds ρ' id) :
    w'.net.channel? id = w.net.channel? id := by
  obtain ⟨c, c', -, -, hc, hcond, -, -⟩ := h
  obtain ⟨d, hd, hid⟩ := hid
  obtain ⟨rest, hperm, -, hothers⟩ := Replication.members_split hc
  have hsplit := hw.perm (hperm.append_right w.free)
  exact hsplit.untouched hcond.toReaches (List.mem_append_left _ (hothers ρ' hne d hd)) hid

theorem frames (h : w.Acts ρ commands w') (id : ChannelId) : ∃ sent : List Command,
    w'.net.frames id = w.net.frames id ++ sent.map Command.frame ∧
    ∀ command ∈ sent, command ∈ commands ∨ ∃ c, w.set.member? ρ = some c ∧ command ∈ c.setup := by
  obtain ⟨c, c', -, -, hc, hcond, -, -⟩ := h
  obtain ⟨sent, hsub, hframes⟩ := hcond.frames id
  refine ⟨sent, hframes, ?_⟩
  intro command hcommand
  exact (List.mem_append.1 (hsub hcommand)).imp_right fun hsetup => ⟨c, hc, hsetup⟩

end Acts

/-- The network is left alone, or the user used a connection he holds, or a member acted. -/
theorem step_cases (w : World) (op : Op) : (w.step op).net = w.net ∨ (∃ k u, op = .use k u) ∨
    ∃ ρ, w.target op = some ρ ∧ w.Acts ρ op.sent (w.step op) := by
  have hrouted : ∀ {command}, op.routed? = some command →
      (w.step op).net = w.net ∨ ∃ ρ, w.target op = some ρ ∧ w.Acts ρ op.sent (w.step op) := by
    intro command hop
    rcases w.routed_cases hop with ⟨-, h⟩ | ⟨ρ, hρ, -, h | h⟩
    · exact .inl (by rw [h])
    · exact .inl h.1
    · exact .inr ⟨ρ, hρ, h⟩
  cases op with
  | use k u => exact .inr (.inl ⟨k, u, rfl⟩)
  | connect => exact w.connect_cases.1.imp And.left .inr
  | executeOn name command => exact (w.executeOn_cases name command).2.imp And.left .inr
  | write command => exact (hrouted rfl).imp_right .inr
  | read command => exact (hrouted rfl).imp_right .inr
  | execute command => exact (hrouted rfl).imp_right .inr
  | add k =>
    left
    simp only [step]
    split <;> rfl
  | _ => exact .inl rfl

/-- The user does not touch the members' channels. -/
theorem untouched_use (hw : Apart w.net w.connections) (k : Nat) (u : Use) (hid : w.Holds ρ id) :
    (w.step (.use k u)).net.channel? id = w.net.channel? id := by
  obtain ⟨d, hd, hid⟩ := hid
  rcases w.use_cases k u with h | ⟨c, hc, h⟩
  · rw [h]
  · rw [h]
    obtain ⟨commands, hreach⟩ := u.reaches c w.net
    obtain ⟨rest, hperm, -, -⟩ := Replication.members_split hd
    have hmem : d ∈ w.set.members := hperm.mem_iff.2 List.mem_cons_self
    exact (hw.perm (connections_split hc)).untouched hreach (List.mem_append_left _ hmem) hid

/-! ## What may reach a slave -/

/-- A command may be sent to a slave: it is one of its setup commands, it is addressed to it, or it only reads. -/
def MayReach (w : World) (op : Op) (i : Nat) (command : Command) : Prop :=
  (∃ c, w.set.member? (.slave i) = some c ∧ command ∈ c.setup) ∨
  (∃ name, op = .executeOn name command ∧ w.set.find? name = some (.slave i)) ∨
  op.routed? = some command ∧ w.set.reads command = .ok true

theorem target_of_routed {command : Command} (hop : op.routed? = some command) :
    w.target op = (w.set.choose command).1.toOption := by
  cases op with
  | write other | read other | execute other =>
    obtain rfl := Option.some.inj hop
    rfl
  | _ => contradiction

/-- Routing turns to a slave for commands that only read. -/
theorem reads_of_target_slave {command : Command} {i : Nat} (hop : op.routed? = some command)
    (ht : w.target op = some (.slave i)) : w.set.reads command = .ok true := by
  rw [target_of_routed hop] at ht
  rcases w.set.choose_cases command with ⟨e, he⟩ | ⟨ρ, turn, hρ, -, ⟨-, rfl⟩ | ⟨hreads, -⟩⟩
  · rw [he] at ht
    contradiction
  · rw [hρ] at ht
    cases ht
  · exact hreads

theorem mayReach_of_sent {command : Command} {i : Nat} (ht : w.target op = some (.slave i)) (hsent : command ∈ op.sent) :
    w.MayReach op i command := by
  cases op with
  | executeOn name other =>
    obtain rfl := List.mem_singleton.1 hsent
    exact .inr (.inl ⟨name, rfl, ht⟩)
  | write other =>
    obtain rfl := List.mem_singleton.1 hsent
    exact .inr (.inr ⟨rfl, reads_of_target_slave rfl ht⟩)
  | execute other =>
    obtain rfl := List.mem_singleton.1 hsent
    exact .inr (.inr ⟨rfl, reads_of_target_slave rfl ht⟩)
  | _ => contradiction

/-- **What a slave's channel receives in one step.** -/
theorem frames_slave (hw : Apart w.net w.connections) {i : Nat} (hid : w.Uses op (.slave i) id) : ∃ sent : List Command,
    (w.step op).net.frames id = w.net.frames id ++ sent.map Command.frame ∧
    ∀ command ∈ sent, w.MayReach op i command := by
  have hsame : (w.step op).net.channel? id = w.net.channel? id → ∃ sent : List Command,
      (w.step op).net.frames id = w.net.frames id ++ sent.map Command.frame ∧
      ∀ command ∈ sent, w.MayReach op i command := by
    intro h
    refine ⟨[], ?_, List.forall_mem_nil _⟩
    unfold Network.frames
    rw [h, List.map_nil, List.append_nil]
  rcases w.step_cases op with hnet | ⟨k, u, rfl⟩ | ⟨ρ, ht, hacts⟩
  · exact hsame (by rw [hnet])
  · rcases hid with hid | ⟨ht, -⟩
    · exact hsame (untouched_use hw k u hid)
    · contradiction
  · by_cases hρ : ρ = .slave i
    · subst hρ
      obtain ⟨sent, hframes, hsent⟩ := hacts.frames id
      refine ⟨sent, hframes, ?_⟩
      intro command hcommand
      rcases hsent command hcommand with hmem | hsetup
      · exact mayReach_of_sent ht hmem
      · exact .inl hsetup
    · rcases hid with hid | ⟨ht', -⟩
      · exact hsame (hacts.untouched hw (Ne.symm hρ) hid)
      · exact absurd (Option.some.inj (ht.symm.trans ht')) hρ

/-- The user works with a connection he holds, on a channel that is no member's. -/
def ByUser (w : World) (op : Op) (id : ChannelId) : Prop := (∃ k u, op = .use k u) ∧ ∀ ρ, ¬ w.Holds ρ id

/-- A command sent on a channel was sent by the user, or for the member whose channel it is. -/
def Accounted (w : World) (op : Op) (id : ChannelId) (command : Command) : Prop :=
  w.ByUser op id ∨ ∃ ρ, w.Uses op ρ id ∧ ∀ i, ρ = .slave i → w.MayReach op i command

theorem byUser_of_changed (hw : Apart w.net w.connections) {k : Nat} {u : Use}
    (hid : (w.step (.use k u)).net.channel? id ≠ w.net.channel? id) : w.ByUser (.use k u) id :=
  ⟨⟨k, u, rfl⟩, fun _ hρ => hid (untouched_use hw k u hρ)⟩

/-- Every channel only gets more frames, and all of them are accounted for. -/
theorem frames_step (hw : Apart w.net w.connections) (op : Op) (id : ChannelId) : ∃ sent : List Command,
    (w.step op).net.frames id = w.net.frames id ++ sent.map Command.frame ∧
    ∀ command ∈ sent, w.Accounted op id command := by
  by_cases hsame : (w.step op).net.channel? id = w.net.channel? id
  · refine ⟨[], ?_, List.forall_mem_nil _⟩
    unfold Network.frames
    rw [hsame, List.map_nil, List.append_nil]
  · rcases w.step_cases op with hnet | ⟨k, u, rfl⟩ | ⟨ρ, ht, hacts⟩
    · rw [hnet] at hsame
      contradiction
    · have huser := byUser_of_changed hw hsame
      rcases w.use_cases k u with h | ⟨c, -, h⟩
      · rw [h] at hsame
        contradiction
      · obtain ⟨commands, hreach⟩ := u.reaches c w.net
        obtain ⟨sent, -, hframes⟩ := hreach.frames id
        rw [h]
        exact ⟨sent, hframes, fun _ _ => .inl huser⟩
    · obtain ⟨sent, hframes, hsent⟩ := hacts.frames id
      refine ⟨sent, hframes, ?_⟩
      intro command hcommand
      refine .inr ⟨ρ, ?_, ?_⟩
      · exact (hacts.of_changed hsame).imp_right fun h => ⟨ht, h⟩
      · rintro i rfl
        rcases hsent command hcommand with hmem | hsetup
        · exact mayReach_of_sent ht hmem
        · exact .inl hsetup

/-! ## What one step obeys -/

/-- What holds of every operation in every world that a run leads to. -/
structure Law (w : World) (op : Op) : Prop where
  /-- a channel that is different afterwards is the user's or a member's -/
  touched : ∀ id, (w.step op).net.channel? id ≠ w.net.channel? id → w.ByUser op id ∨ ∃ ρ, w.Uses op ρ id
  slaves : ∀ i id, w.Uses op (.slave i) id → ∃ sent : List Command,
    (w.step op).net.frames id = w.net.frames id ++ sent.map Command.frame ∧ ∀ command ∈ sent, w.MayReach op i command
  unsupported : ∀ command, op.routed? = some command → w.set.rules.lookup command.id = none →
    command.spec.access = .unsupported → w.step op = w
  /-- routing touches the channels of the member in use afterwards -/
  routed : ∀ command, op.routed? = some command → ∀ id, (w.step op).net.channel? id ≠ w.net.channel? id →
    ∃ ρ, (w.step op).set.current = some ρ ∧ w.Uses op ρ id
  /-- and nothing of the other members -/
  others : ∀ command, op.routed? = some command → ∀ ρ, (w.step op).set.current ≠ some ρ →
    (w.step op).set.member? ρ = w.set.member? ρ ∧
    ∀ id, w.Holds ρ id → (w.step op).net.channel? id = w.net.channel? id

theorem step_unsupported {command : Command} (hop : op.routed? = some command)
    (hrule : w.set.rules.lookup command.id = none) (haccess : command.spec.access = .unsupported) : w.step op = w := by
  have hreads : w.set.reads command = .error (.notSupported (.inReplication command.id)) := by
    simp only [Replication.reads, hrule, haccess]
  have htarget : w.target op = none := by
    rw [target_of_routed hop]
    rcases w.set.choose_cases command with ⟨e, he⟩ | ⟨ρ, turn, -, -, ⟨hfalse, -⟩ | ⟨htrue, -⟩⟩
    · rw [he]
      rfl
    · rw [hreads] at hfalse
      contradiction
    · rw [hreads] at htrue
      contradiction
  rcases w.routed_cases hop with ⟨-, h⟩ | ⟨ρ, ht, -⟩
  · exact h
  · rw [htarget] at ht
    contradiction

theorem law (hw : Apart w.net w.connections) (op : Op) : w.Law op where
  touched id hid := by
    rcases w.step_cases op with hnet | ⟨k, u, rfl⟩ | ⟨ρ, ht, hacts⟩
    · rw [hnet] at hid
      contradiction
    · exact .inl (byUser_of_changed hw hid)
    · exact .inr ⟨ρ, (hacts.of_changed hid).imp_right fun h => ⟨ht, h⟩⟩
  slaves i id hid := frames_slave hw hid
  unsupported command hop hrule haccess := step_unsupported hop hrule haccess
  routed command hop id hid := by
    rcases w.routed_cases hop with ⟨-, h⟩ | ⟨ρ, ht, hcur, h | hacts⟩
    · rw [h] at hid
      contradiction
    · rw [h.1] at hid
      contradiction
    · exact ⟨ρ, hcur, (hacts.of_changed hid).imp_right fun h => ⟨ht, h⟩⟩
  others command hop ρ hρ := by
    rcases w.routed_cases hop with ⟨-, h⟩ | ⟨ρ', -, hcur, ⟨hnet, -, current, turn, hset⟩ | hacts⟩
    · rw [h]
      exact ⟨rfl, fun _ _ => rfl⟩
    · rw [hnet, hset]
      exact ⟨by cases ρ <;> rfl, fun _ _ => rfl⟩
    · have hne : ρ ≠ ρ' := fun h => hρ (h ▸ hcur)
      exact ⟨hacts.member?_ne hne, fun id hid => hacts.untouched hw hne hid⟩

/-! ## The master -/

/-- A command that does not only read is routed, or the master is named. -/
def Promotes (w : World) (op : Op) : Prop :=
  (∃ command, op.routed? = some command ∧ w.set.isComplete = true ∧ w.set.reads command = .ok false) ∨
  ∃ name, (op = .switchTo name ∨ ∃ command, op = .executeOn name command) ∧ w.set.find? name = some .master

/-- An operation turns to the master if it promotes it, or if it is in use. -/
theorem of_target_master (ht : w.target op = some .master) : w.set.current = some .master ∨ w.Promotes op := by
  have hrouted : ∀ {command}, op.routed? = some command → w.set.current = some .master ∨ w.Promotes op := by
    intro command hop
    rw [target_of_routed hop] at ht
    rcases w.set.choose_cases command with ⟨e, he⟩ | ⟨ρ, turn, hρ, hc, ⟨hreads, rfl⟩ | ⟨-, hcur | ⟨i, rfl⟩⟩⟩
    · rw [he] at ht
      contradiction
    · exact .inr (.inl ⟨command, hop, hc, hreads⟩)
    · rw [hρ] at ht
      obtain rfl := Option.some.inj ht
      exact .inl hcur
    · rw [hρ] at ht
      cases ht
  cases op with
  | write command => exact hrouted rfl
  | read command => exact hrouted rfl
  | execute command => exact hrouted rfl
  | executeOn name command => exact .inr (.inr ⟨name, .inr ⟨command, rfl⟩, ht⟩)
  | connect =>
    simp only [target] at ht
    split_ifs at ht
    cases hcur : w.set.current with
    | none =>
      rw [hcur] at ht
      cases ht
    | some ρ =>
      rw [hcur] at ht
      exact .inl ht
  | _ => contradiction

end World

end RespClient.ReplicaRouting

namespace RespClient.Replication

/-- Joining puts nobody in use. -/
theorem current_of_add {r : Replication} {c : Connection} {ρ : Role} (h : (r.add c).current = some ρ) :
    r.current = some ρ := by
  unfold add at h
  by_cases hm : c.nodeId = masterId
  · rw [if_pos hm] at h
    simp only at h
    split_ifs at h
    exact h
  · rw [if_neg hm] at h
    split at h
    · simp only at h
      split_ifs at h
      exact h
    · exact h

/-- Nor does leaving, and the master stays the master. -/
theorem current_of_remove {r : Replication} {name : String} (h : (r.remove name).2.current = some .master) :
    r.current = some .master := by
  unfold remove at h
  split at h
  · exact h
  · simp only at h
    split_ifs at h
    exact h
  · simp only [withoutSlave] at h
    split at h
    · split_ifs at h <;> simp at h
    · exact h

end RespClient.Replication

namespace RespClient.ReplicaRouting

namespace World

variable {w : World} {op : Op}

/-- The master comes into use by being promoted only. -/
theorem of_current_master (h : (w.step op).set.current = some .master) :
    w.set.current = some .master ∨ w.Promotes op := by
  have hrouted : ∀ {command}, op.routed? = some command → w.set.current = some .master ∨ w.Promotes op := by
    intro command hop
    rcases w.routed_cases hop with ⟨-, hw⟩ | ⟨ρ, ht, hcur, -⟩
    · rw [hw] at h
      exact .inl h
    · obtain rfl := Option.some.inj (hcur.symm.trans h)
      exact of_target_master ht
  cases op with
  | write command => exact hrouted rfl
  | read command => exact hrouted rfl
  | execute command => exact hrouted rfl
  | connect =>
    rcases w.connect_cases.2 with hcur | ht
    · exact .inl (hcur.symm.trans h)
    · exact of_target_master (ht.trans h)
  | executeOn name command => exact .inl ((w.executeOn_cases name command).1.symm.trans h)
  | use k u =>
    rcases w.use_cases k u with hw | ⟨c, -, hw⟩
    · rw [hw] at h
      exact .inl h
    · rw [hw] at h
      exact .inl h
  | add k =>
    cases hc : w.free[k]? with
    | none =>
      simp only [step, hc] at h
      exact .inl h
    | some c =>
      simp only [step, hc] at h
      exact .inl (Replication.current_of_add h)
  | remove name => exact .inl (Replication.current_of_remove h)
  | switchTo name =>
    simp only [step, Replication.switchTo] at h
    cases hname : w.set.find? name with
    | none =>
      rw [hname] at h
      exact .inl h
    | some ρ =>
      rw [hname] at h
      obtain rfl := Option.some.inj h
      exact .inr (.inr ⟨name, .inl rfl, hname⟩)
  | disconnect => contradiction
  | create e => exact .inl h
  | setRule id rule => exact .inl h

end World

/-- The master was promoted in the course of the operations, and in use ever since. -/
def Promoted (net : Network) (ops : List Op) : Prop :=
  ∃ before op after, ops = before ++ op :: after ∧ (run net before).Promotes op ∧
    ∀ part, part <+: after → (run net (before ++ op :: part)).set.current = some .master

/-- The master is in use only if it was promoted. -/
theorem promoted_of_current {net : Network} {ops : List Op} (h : (run net ops).set.current = some .master) :
    Promoted net ops := by
  induction ops using List.reverseRecOn with
  | nil => contradiction
  | append_singleton ops op ih =>
    have hlast := h
    rw [run_snoc] at h
    rcases World.of_current_master h with hcur | hprom
    · obtain ⟨before, op', after, rfl, hprom, hsince⟩ := ih hcur
      refine ⟨before, op', after ++ [op], by simp, hprom, ?_⟩
      intro part hpart
      rcases List.prefix_concat_iff.1 hpart with rfl | hpart
      · simpa using hlast
      · exact hsince part hpart
    · refine ⟨ops, op, [], rfl, hprom, ?_⟩
      intro part hpart
      rw [List.prefix_nil.1 hpart]
      exact hlast

/-- The commands received on a channel in a run, in order, each with the number of the operation that sent it. -/
structure Log (net : Network) (ops : List Op) (id : ChannelId) (log : List (Nat × Command)) : Prop where
  frames : (run net ops).net.frames id = net.frames id ++ log.map fun entry => entry.2.frame
  accounted : ∀ entry ∈ log, ∃ op, ops[entry.1]? = some op ∧
    (run net (ops.take entry.1)).Accounted op id entry.2

/-- Whatever a channel received in a run can be accounted for. -/
theorem log_run (net : Network) (ops : List Op) (id : ChannelId) : ∃ log, Log net ops id log := by
  induction ops using List.reverseRecOn with
  | nil => exact ⟨[], (List.append_nil _).symm, List.forall_mem_nil _⟩
  | append_singleton ops op ih =>
    obtain ⟨log, hlog⟩ := ih
    obtain ⟨sent, hframes, hsent⟩ := World.frames_step (apart_run net ops) op id
    refine ⟨log ++ sent.map fun command => (ops.length, command), ?_, ?_⟩
    · rw [run_snoc, hframes, hlog.frames, List.map_append, List.map_map, List.append_assoc]
      rfl
    · intro entry hentry
      rcases List.mem_append.1 hentry with hentry | hentry
      · obtain ⟨op', hop', hacc⟩ := hlog.accounted entry hentry
        have hlt := (List.getElem?_eq_some_iff.1 hop').1
        refine ⟨op', ?_, ?_⟩
        · rw [List.getElem?_append_left hlt]
          exact hop'
        · rw [List.take_append_of_le_length (Nat.le_of_lt hlt)]
          exact hacc
      · obtain ⟨command, hcommand, rfl⟩ := List.mem_map.1 hentry
        refine ⟨op, List.getElem?_concat_length, ?_⟩
        rw [List.take_left]
        exact hsent command hcommand

/-- **The routing law.** Over every run, and at every step of it: slaves get setup commands, commands addressed to them and
commands that only read; unsupported commands go nowhere; routing touches the member in use alone; and the master's channel
is opened only by a step that promotes the master, or while it is in use since it was promoted. -/
theorem routing_law (net : Network) (ops : List Op) :
    (∀ id, ∃ log, Log net ops id log) ∧
    ∀ op, (run net ops).Law op ∧
      ∀ id, (run net ops).Opens op .master id → (run net ops).Promotes op ∨ Promoted net ops := by
  refine ⟨log_run net ops, ?_⟩
  intro op
  refine ⟨World.law (apart_run net ops) op, ?_⟩
  intro id hid
  rcases World.of_target_master hid.1 with hcur | hprom
  · exact .inr (promoted_of_current hcur)
  · exact .inl hprom

end RespClient.ReplicaRouting
