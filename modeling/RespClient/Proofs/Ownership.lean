/-
A replicated set in a world: the set, the connections that its user holds beside it, and the network. A connection is made
by the user, joins the set, and comes back when it is removed; meanwhile it belongs to the set alone. What the user does with
the connections he holds is part of the runs.

- `Apart`: the connections hold channels of the network, no two of them the same one.
- `apart_run`: that is so at any time. `Apart.reaches` is the step: whoever acts gets his own channel or a new one.
-/
import Mathlib.Data.List.Perm.Basic
import RespClient.Proofs.Conduct
import RespClient.Replication

namespace RespClient.ReplicaRouting

/-! ## Runs -/

/-- What the user does with a connection he holds. -/
inductive Use where
  | connect
  | disconnect
  | pushSetup (command : Command)
  | write (command : Command)
  | read
  | execute (command : Command)

/-- The connection and the network afterwards. -/
def Use.apply (u : Use) (c : Connection) (net : Network) : Connection × Network :=
  match u with
  | .connect => ((c.connect net).state, (c.connect net).network)
  | .disconnect => (c.disconnect, net)
  | .pushSetup command => (c.pushSetup command, net)
  | .write command => ((c.write command net).state, (c.write command net).network)
  | .read => ((c.read net).state, (c.read net).network)
  | .execute command => ((c.execute command net).state, (c.execute command net).network)

inductive Op where
  /-- a new connection, which the user holds -/
  | create (e : Endpoint)
  | use (k : Nat) (u : Use)
  /-- the k-th connection held joins the set -/
  | add (k : Nat)
  | remove (name : String)
  | switchTo (name : String)
  | setRule (id : String) (rule : ReadRule)
  | connect
  | disconnect
  | write (command : Command)
  | read (command : Command)
  | execute (command : Command)
  | executeOn (name : String) (command : Command)

structure World where
  set : Replication := {}
  /-- the connections that the user holds -/
  free : List Connection := []
  net : Network

namespace World

/-- The world after an operation of the set. -/
def after {α : Type} (w : World) (o : Outcome Replication α) : World := { w with set := o.state, net := o.network }

def step (w : World) : Op → World
  | .create e => { w with free := w.free ++ [{ endpoint := e }] }
  | .use k u =>
    match w.free[k]? with
    | none => w
    | some c => { w with free := w.free.set k (u.apply c w.net).1, net := (u.apply c w.net).2 }
  | .add k =>
    match w.free[k]? with
    | none => w
    | some c => { w with set := w.set.add c, free := w.free.eraseIdx k }
  | .remove name => { w with set := (w.set.remove name).2, free := w.free ++ (w.set.remove name).1.toList }
  | .switchTo name => { w with set := (w.set.switchTo name).2 }
  | .setRule id rule => { w with set := w.set.setRule id rule }
  | .connect => w.after (w.set.connect w.net)
  | .disconnect => { w with set := w.set.disconnect }
  | .write command => w.after (w.set.write command w.net)
  | .read command => w.after (w.set.read command w.net)
  | .execute command => w.after (w.set.execute command w.net)
  | .executeOn name command => w.after (w.set.executeOn name command w.net)

end World

/-- The world of an empty set after some operations. -/
def run (net : Network) (ops : List Op) : World := ops.foldl World.step { net }

theorem run_snoc (net : Network) (ops : List Op) (op : Op) : run net (ops ++ [op]) = (run net ops).step op := by
  unfold run
  rw [List.foldl_append, List.foldl_cons, List.foldl_nil]

/-! ## Apart -/

/-- The connections hold channels of the network, each its own. -/
structure Apart (net : Network) (cs : List Connection) : Prop where
  held : ∀ c ∈ cs, ∀ id, c.channel = some id → (net.channel? id).isSome
  clear : cs.Pairwise fun c c' => ∀ id, c.channel = some id → c'.channel ≠ some id

namespace Apart

variable {net net' : Network} {cs cs' : List Connection} {c c' : Connection} {commands : List Command} {id : ChannelId}

theorem sublist (h : Apart net cs) (hsub : cs'.Sublist cs) : Apart net cs' where
  held c hc := h.held c (hsub.subset hc)
  clear := h.clear.sublist hsub

theorem perm (h : Apart net cs) (hperm : cs.Perm cs') : Apart net cs' where
  held c hc := h.held c (hperm.mem_iff.2 hc)
  clear := (hperm.pairwise_iff fun {_ _} hcc id hid hid' => hcc id hid' hid).1 h.clear

/-- A closed connection is apart from any. -/
theorem cons_closed (h : Apart net cs) (hc : c.channel = none) : Apart net (c :: cs) where
  held d hd id hid := by
    rcases List.mem_cons.1 hd with rfl | hd
    · rw [hc] at hid
      contradiction
    · exact h.held d hd id hid
  clear := by
    refine List.pairwise_cons.2 ⟨?_, h.clear⟩
    intro d _ id hid
    rw [hc] at hid
    contradiction

theorem append_closed (h : Apart net cs) (hclosed : ∀ c ∈ cs', c.channel = none) : Apart net (cs' ++ cs) := by
  induction cs' with
  | nil => exact h
  | cons c cs' ih =>
    exact (ih fun d hd => hclosed d (List.mem_cons_of_mem c hd)).cons_closed (hclosed c List.mem_cons_self)

/-- Whoever acts ends up with his own channel, a new one or none. -/
theorem reaches (h : Apart net (c :: cs)) (hr : Reaches commands c net c' net') : Apart net' (c' :: cs) where
  held d hd id hid := by
    rcases List.mem_cons.1 hd with rfl | hd
    · rcases hr.holds id hid with hold | ⟨-, hnew⟩
      · exact hr.kept id (h.held c List.mem_cons_self id hold)
      · exact hnew
    · exact hr.kept id (h.held d (List.mem_cons_of_mem c hd) id hid)
  clear := by
    obtain ⟨hc, hcs⟩ := List.pairwise_cons.1 h.clear
    refine List.pairwise_cons.2 ⟨?_, hcs⟩
    intro d hd id hid hid'
    rcases hr.holds id hid with hold | ⟨hnone, -⟩
    · exact hc d hd id hold hid'
    · have hsome := h.held d (List.mem_cons_of_mem c hd) id hid'
      rw [hnone] at hsome
      contradiction

/-- The channels of the others stay as they are. -/
theorem untouched (h : Apart net (c :: cs)) (hr : Reaches commands c net c' net') {d : Connection} (hd : d ∈ cs)
    (hid : d.channel = some id) : net'.channel? id = net.channel? id := by
  refine hr.others id ?_ (h.held d (List.mem_cons_of_mem c hd) id hid)
  intro hc
  exact (List.pairwise_cons.1 h.clear).1 d hd id hc hid

end Apart

/-! ## Members -/

end RespClient.ReplicaRouting

namespace RespClient.Replication

def members (r : Replication) : List Connection := r.master.toList ++ r.slaves

/-- A member apart from the others: it can be replaced, and the rest stays. -/
theorem members_split {r : Replication} {ρ : Role} {c : Connection} (h : r.member? ρ = some c) :
    ∃ rest, r.members.Perm (c :: rest) ∧ (∀ c', (r.setMember ρ c').members.Perm (c' :: rest)) ∧
      ∀ ρ' ≠ ρ, ∀ d, r.member? ρ' = some d → d ∈ rest := by
  cases ρ with
  | master =>
    have hm : r.master = some c := h
    refine ⟨r.slaves, ?_, fun c' => .refl _, ?_⟩
    · simp only [members, hm]
      exact .refl _
    · intro ρ' hne d hd
      cases ρ' with
      | master => contradiction
      | slave j => exact List.mem_of_getElem? hd
  | slave i =>
    obtain ⟨hi, rfl⟩ := List.getElem?_eq_some_iff.1 (show r.slaves[i]? = some c from h)
    refine ⟨r.master.toList ++ r.slaves.eraseIdx i, ?_, ?_, ?_⟩
    · exact ((List.getElem_cons_eraseIdx_perm hi).symm.append_left _).trans List.perm_middle
    · intro c'
      exact ((List.set_perm_cons_eraseIdx hi c').append_left _).trans List.perm_middle
    · intro ρ' hne d hd
      cases ρ' with
      | master =>
        have hm : r.master = some d := hd
        simp [hm]
      | slave j =>
        have hji : j ≠ i := by
          intro hj
          exact hne (by rw [hj])
        exact List.mem_append_right _ (List.mem_eraseIdx_iff_getElem?.2 ⟨j, hji, hd⟩)

theorem member?_setMember_ne (r : Replication) {ρ ρ' : Role} (h : ρ' ≠ ρ) (c : Connection) :
    (r.setMember ρ c).member? ρ' = r.member? ρ' := by
  cases ρ with
  | master =>
    cases ρ' with
    | master => contradiction
    | slave j => rfl
  | slave i =>
    cases ρ' with
    | master => rfl
    | slave j => exact List.getElem?_set_ne fun hij => h (by rw [hij])

/-- Who joins takes a place, and the one who had it is gone. -/
theorem members_add (r : Replication) (c : Connection) :
    ∃ rest, rest.Sublist r.members ∧ (r.add c).members.Perm (c :: rest) := by
  unfold add
  by_cases hm : c.nodeId = masterId
  · rw [if_pos hm]
    exact ⟨r.slaves, List.sublist_append_right _ _, .refl _⟩
  · rw [if_neg hm]
    split
    · next i hi =>
      obtain ⟨hlt, -⟩ := List.findIdx?_eq_some_iff_getElem.1 hi
      refine ⟨r.master.toList ++ r.slaves.eraseIdx i, (List.eraseIdx_sublist _ _).append_left _, ?_⟩
      exact ((List.set_perm_cons_eraseIdx hlt c).append_left _).trans List.perm_middle
    · refine ⟨r.members, .refl _, ?_⟩
      show (r.master.toList ++ (r.slaves ++ [c])).Perm _
      rw [← List.append_assoc]
      exact List.perm_append_singleton c _

/-- Nobody gets lost by leaving. -/
theorem members_remove (r : Replication) (name : String) :
    ((r.remove name).1.toList ++ (r.remove name).2.members).Perm r.members := by
  unfold remove
  split
  · exact .refl _
  · exact .refl _
  · next i _ =>
    show (r.slaves[i]?.toList ++ (r.master.toList ++ r.slaves.eraseIdx i)).Perm _
    cases hi : r.slaves[i]? with
    | none =>
      rw [List.eraseIdx_of_length_le (List.getElem?_eq_none_iff.1 hi)]
      exact .refl _
    | some c =>
      obtain ⟨hlt, rfl⟩ := List.getElem?_eq_some_iff.1 hi
      show (r.slaves[i] :: (r.master.toList ++ r.slaves.eraseIdx i)).Perm _
      exact List.perm_middle.symm.trans ((List.getElem_cons_eraseIdx_perm hlt).append_left _)

theorem channel_of_mem_disconnect {r : Replication} {c : Connection} (h : c ∈ r.disconnect.members) :
    c.channel = none := by
  rcases List.mem_append.1 h with h | h
  · obtain ⟨d, -, rfl⟩ := Option.map_eq_some_iff.1 (Option.mem_toList.1 h)
    rfl
  · obtain ⟨d, -, rfl⟩ := List.mem_map.1 h
    rfl

/-- Choosing fails, or the master is chosen for what does not only read, and else the member in use or a slave. -/
theorem choose_cases (r : Replication) (command : Command) :
    (∃ e, r.choose command = (.error e, r)) ∨
    ∃ ρ turn, r.choose command = (.ok ρ, { r with current := some ρ, turn }) ∧ r.isComplete = true ∧
      (r.reads command = .ok false ∧ ρ = .master ∨
       r.reads command = .ok true ∧ (r.current = some ρ ∨ ∃ i, ρ = .slave i)) := by
  unfold choose
  by_cases hc : r.isComplete = true
  · rw [if_neg (by simp [hc])]
    cases hreads : r.reads command with
    | error e => exact .inl ⟨e, rfl⟩
    | ok reads =>
      cases reads with
      | false => exact .inr ⟨.master, r.turn, rfl, hc, .inl ⟨rfl, rfl⟩⟩
      | true =>
        right
        cases hcur : r.current with
        | some ρ =>
          refine ⟨ρ, r.turn, ?_, hc, .inr ⟨rfl, .inl rfl⟩⟩
          simp only
          rw [← hcur]
        | none => exact ⟨_, r.pickSlave.2.turn, rfl, hc, .inr ⟨rfl, .inr ⟨_, rfl⟩⟩⟩
  · rw [if_pos (by simpa using hc)]
    exact .inl ⟨_, rfl⟩

/-- Connecting a complete set opens the member in use, or the slave whose turn it is, and then the turn passes on. -/
theorem connect_takes (r : Replication) (net : Network) (hc : r.isComplete = true) :
    ∃ ρ turn, r.current.getD (.slave r.pickSlave.1) = ρ ∧
      (turn = r.turn ∨ r.current = none ∧ turn = r.pickSlave.2.turn) ∧ r.connect net =
      (({ r with current := r.current, turn } : Replication).onMember ρ Connection.ensure net).andThen fun _ r net =>
        ⟨.ok (), { r with current := some ρ }, net⟩ := by
  obtain ⟨master, slaves, current, turn, rules⟩ := r
  unfold connect
  rw [if_neg (by simp [hc])]
  cases current with
  | some ρ => exact ⟨ρ, turn, rfl, .inl rfl, rfl⟩
  | none => exact ⟨_, _, rfl, .inr ⟨rfl, rfl⟩, rfl⟩

theorem connect_eq (r : Replication) (net : Network) (hc : r.isComplete = true) :
    ∃ ρ turn, r.current.getD (.slave r.pickSlave.1) = ρ ∧ r.connect net =
      (({ r with current := r.current, turn } : Replication).onMember ρ Connection.ensure net).andThen fun _ r net =>
        ⟨.ok (), { r with current := some ρ }, net⟩ := by
  obtain ⟨ρ, turn, hρ, -, hconnect⟩ := r.connect_takes net hc
  exact ⟨ρ, turn, hρ, hconnect⟩

end RespClient.Replication

namespace RespClient.ReplicaRouting

/-! ## Acting -/

/-- The commands an operation of the set may send besides setup commands. -/
def Op.sent : Op → List Command
  | .write command | .execute command | .executeOn _ command => [command]
  | _ => []

/-- The command that an operation routes. -/
def Op.routed? : Op → Option Command
  | .write command | .read command | .execute command => some command
  | _ => none

namespace World

/-- The part whose member an operation turns to. -/
def target (w : World) : Op → Option Role
  | .connect => if w.set.isComplete then some (w.set.current.getD (.slave w.set.pickSlave.1)) else none
  | .write command | .read command | .execute command => (w.set.choose command).1.toOption
  | .executeOn name _ => w.set.find? name
  | _ => none

/-- No connection and no channel is different. -/
def Stays (w w' : World) : Prop :=
  w'.net = w.net ∧ w'.free = w.free ∧ ∃ current turn, w'.set = { w.set with current, turn }

/-- The member of a part acted; it may have sent commands of the list besides its setup commands. -/
def Acts (w : World) (ρ : Role) (commands : List Command) (w' : World) : Prop :=
  ∃ c c' current turn, w.set.member? ρ = some c ∧ Conducts (commands ++ c.setup) c w.net c' w'.net ∧
    w'.free = w.free ∧ w'.set = { w.set.setMember ρ c' with current, turn }

theorem Stays.refl (w : World) : w.Stays w := ⟨rfl, rfl, w.set.current, w.set.turn, rfl⟩

variable {α : Type} {op : Connection → Network → Outcome Connection α}

/-- A member in the set with another one in use. -/
theorem onMember_cases (w : World) (ρ : Role) (current : Option Role) (turn : Nat) (commands : List Command)
    (hop : ∀ c net, Conducts (commands ++ c.setup) c net (op c net).state (op c net).network) :
    let o := ({ w.set with current, turn } : Replication).onMember ρ op w.net
    o.state.current = current ∧ (w.Stays (w.after o) ∨ w.Acts ρ commands (w.after o)) := by
  unfold Replication.onMember
  have hmember : ({ w.set with current, turn } : Replication).member? ρ = w.set.member? ρ := by
    cases ρ <;> rfl
  rw [hmember]
  cases hc : w.set.member? ρ with
  | none => exact ⟨rfl, .inl ⟨rfl, rfl, current, turn, rfl⟩⟩
  | some c =>
    have hset : ∀ c', ({ w.set with current, turn } : Replication).setMember ρ c' =
        { w.set.setMember ρ c' with current, turn } := by
      intro c'
      cases ρ <;> rfl
    refine ⟨?_, .inr ⟨c, (op c w.net).state, current, turn, hc, hop c w.net, rfl, hset _⟩⟩
    show (({ w.set with current, turn } : Replication).setMember ρ _).current = current
    rw [hset]

/-- Routing fails and changes nothing, or a member is in use and acts. -/
theorem route_cases (w : World) (command : Command) (commands : List Command)
    (hop : ∀ c net, Conducts (commands ++ c.setup) c net (op c net).state (op c net).network) :
    let o := Replication.route command op w.set w.net
    ((w.set.choose command).1.toOption = none ∧ w.after o = w) ∨
    ∃ ρ, (w.set.choose command).1.toOption = some ρ ∧ o.state.current = some ρ ∧
      (w.Stays (w.after o) ∨ w.Acts ρ commands (w.after o)) := by
  unfold Replication.route
  rcases w.set.choose_cases command with ⟨e, he⟩ | ⟨ρ, turn, hρ, -, -⟩
  · rw [he]
    exact .inl ⟨rfl, rfl⟩
  · rw [hρ]
    exact .inr ⟨ρ, rfl, w.onMember_cases ρ (some ρ) turn commands hop⟩

theorem after_current {w : World} {ρ : Role} {commands : List Command} {o : Outcome Replication Unit} (x : Option Role)
    (h : w.Stays (w.after o) ∨ w.Acts ρ commands (w.after o)) :
    let o' : Outcome Replication Unit := ⟨.ok (), { o.state with current := x }, o.network⟩
    w.Stays (w.after o') ∨ w.Acts ρ commands (w.after o') := by
  rcases h with ⟨hnet, hfree, current, turn, hset⟩ | ⟨c, c', current, turn, hc, hcond, hfree, hset⟩
  · refine .inl ⟨hnet, hfree, x, turn, ?_⟩
    simp only [after] at hset ⊢
    rw [hset]
  · refine .inr ⟨c, c', x, turn, hc, hcond, hfree, ?_⟩
    simp only [after] at hset ⊢
    rw [hset]

/-- Connecting turns to one member, which is then in use unless the member in use stays the same. -/
theorem connect_cases (w : World) :
    (w.Stays (w.step .connect) ∨ ∃ ρ, w.target .connect = some ρ ∧ w.Acts ρ [] (w.step .connect)) ∧
    ((w.step .connect).set.current = w.set.current ∨ w.target .connect = (w.step .connect).set.current) := by
  unfold step target
  by_cases hc : w.set.isComplete = true
  · rw [if_pos hc]
    obtain ⟨ρ, turn, hρ, hconnect⟩ := w.set.connect_eq w.net hc
    rw [hρ, hconnect]
    obtain ⟨hcur, hact⟩ := w.onMember_cases ρ w.set.current turn [] Connection.ensure_conducts
    unfold Outcome.andThen
    cases (({ w.set with current := w.set.current, turn } : Replication).onMember ρ Connection.ensure w.net).result with
    | error e => exact ⟨hact.imp_right fun h => ⟨ρ, rfl, h⟩, .inl hcur⟩
    | ok _ => exact ⟨(after_current (some ρ) hact).imp_right fun h => ⟨ρ, rfl, h⟩, .inr rfl⟩
  · have hconnect : w.set.connect w.net = ⟨.error Replication.membersMissing, w.set, w.net⟩ := by
      unfold Replication.connect
      rw [if_pos (by simpa using hc)]
    rw [hconnect]
    exact ⟨.inl (.refl w), .inl rfl⟩

/-- Routing fails and changes nothing, or one member is in use afterwards, and it alone can have acted. -/
theorem routed_cases (w : World) {op : Op} {command : Command} (h : op.routed? = some command) :
    w.target op = none ∧ w.step op = w ∨
    ∃ ρ, w.target op = some ρ ∧ (w.step op).set.current = some ρ ∧
      (w.Stays (w.step op) ∨ w.Acts ρ op.sent (w.step op)) := by
  cases op with
  | write sent => exact w.route_cases sent [sent] (Connection.write_conducts sent)
  | read asked => exact w.route_cases asked [] Connection.read_conducts
  | execute sent => exact w.route_cases sent [sent] (Connection.execute_conducts sent)
  | _ => contradiction

theorem executeOn_cases (w : World) (name : String) (command : Command) :
    (w.step (.executeOn name command)).set.current = w.set.current ∧
    (w.Stays (w.step (.executeOn name command)) ∨
     ∃ ρ, w.target (.executeOn name command) = some ρ ∧ w.Acts ρ [command] (w.step (.executeOn name command))) := by
  simp only [step, target, Replication.executeOn]
  cases hname : w.set.find? name with
  | none => exact ⟨rfl, .inl (.refl w)⟩
  | some ρ =>
    obtain ⟨hcur, hact⟩ := w.onMember_cases ρ w.set.current w.set.turn [command] (Connection.execute_conducts command)
    exact ⟨hcur, hact.imp_right fun h => ⟨ρ, rfl, h⟩⟩

end World

/-! ## At any time -/

theorem Use.reaches (u : Use) (c : Connection) (net : Network) :
    ∃ commands, Reaches commands c net (u.apply c net).1 (u.apply c net).2 := by
  cases u with
  | connect => exact ⟨_, (c.connect_conducts net).toReaches⟩
  | disconnect => exact ⟨[], .idle _ net (.inr rfl)⟩
  | pushSetup command => exact ⟨[], .idle _ net (.inl rfl)⟩
  | write command => exact ⟨_, (c.write_conducts command net).toReaches⟩
  | read => exact ⟨_, (c.read_conducts net).toReaches⟩
  | execute command => exact ⟨_, (c.execute_conducts command net).toReaches⟩

/-- A connection leads to the same server, whatever is done with it. -/
theorem Use.endpoint (u : Use) (c : Connection) (net : Network) : (u.apply c net).1.endpoint = c.endpoint := by
  cases u with
  | connect => exact (c.connect_conducts net).endpoint
  | disconnect => rfl
  | pushSetup command => rfl
  | write command => exact (c.write_conducts command net).endpoint
  | read => exact (c.read_conducts net).endpoint
  | execute command => exact (c.execute_conducts command net).endpoint

namespace World

/-- Every connection of the world. -/
def connections (w : World) : List Connection := w.set.members ++ w.free

variable {w w' : World} {ρ : Role} {commands : List Command} {op : Op}

theorem Stays.apart (h : w.Stays w') (hw : Apart w.net w.connections) : Apart w'.net w'.connections := by
  obtain ⟨hnet, hfree, current, turn, hset⟩ := h
  unfold connections
  rw [hnet, hfree, hset]
  exact hw

theorem Acts.apart (h : w.Acts ρ commands w') (hw : Apart w.net w.connections) : Apart w'.net w'.connections := by
  obtain ⟨c, c', current, turn, hc, hcond, hfree, hset⟩ := h
  obtain ⟨rest, hperm, hperm', -⟩ := Replication.members_split hc
  have hbefore : Apart w.net (c :: (rest ++ w.free)) := hw.perm (hperm.append_right w.free)
  unfold connections
  rw [hfree, hset]
  exact (hbefore.reaches hcond.toReaches).perm ((hperm' c').append_right w.free).symm

/-- The user has one connection in his hand. -/
theorem connections_split {k : Nat} {c : Connection} (h : w.free[k]? = some c) :
    w.connections.Perm (c :: (w.set.members ++ w.free.eraseIdx k)) := by
  obtain ⟨hlt, rfl⟩ := List.getElem?_eq_some_iff.1 h
  exact ((List.getElem_cons_eraseIdx_perm hlt).symm.append_left _).trans List.perm_middle

/-- The user can only use what he holds. -/
theorem use_cases (w : World) (k : Nat) (u : Use) :
    w.step (.use k u) = w ∨ ∃ c, w.free[k]? = some c ∧
      w.step (.use k u) = { w with free := w.free.set k (u.apply c w.net).1, net := (u.apply c w.net).2 } := by
  cases hc : w.free[k]? with
  | none => exact .inl (by simp only [step, hc])
  | some c => exact .inr ⟨c, rfl, by simp only [step, hc]⟩

theorem apart_use (hw : Apart w.net w.connections) (k : Nat) (u : Use) :
    Apart (w.step (.use k u)).net (w.step (.use k u)).connections := by
  rcases w.use_cases k u with h | ⟨c, hc, h⟩
  · rw [h]
    exact hw
  · rw [h]
    obtain ⟨commands, hreach⟩ := u.reaches c w.net
    obtain ⟨hlt, -⟩ := List.getElem?_eq_some_iff.1 hc
    have hafter := (hw.perm (connections_split hc)).reaches hreach
    exact hafter.perm (List.perm_middle.symm.trans ((List.set_perm_cons_eraseIdx hlt _).symm.append_left _))

theorem apart_add (hw : Apart w.net w.connections) (k : Nat) :
    Apart (w.step (.add k)).net (w.step (.add k)).connections := by
  cases hc : w.free[k]? with
  | none =>
    simp only [step, hc]
    exact hw
  | some c =>
    simp only [step, hc]
    obtain ⟨rest, hrest, hperm⟩ := w.set.members_add c
    have hbefore := hw.perm (connections_split hc)
    exact (hbefore.sublist ((hrest.append_right _).cons_cons c)).perm (hperm.append_right _).symm

/-- No operation makes two connections share a channel. -/
theorem apart_step (hw : Apart w.net w.connections) (op : Op) : Apart (w.step op).net (w.step op).connections := by
  have hrouted : ∀ {command}, op.routed? = some command → Apart (w.step op).net (w.step op).connections := by
    intro command hop
    rcases w.routed_cases hop with ⟨-, h⟩ | ⟨ρ, -, -, h | h⟩
    · rw [h]
      exact hw
    · exact h.apart hw
    · exact h.apart hw
  cases op with
  | create e =>
    have hnew := hw.cons_closed (c := { endpoint := e }) rfl
    refine hnew.perm ((List.perm_append_singleton _ _).symm.trans ?_)
    exact .of_eq (List.append_assoc _ _ _)
  | use k u => exact apart_use hw k u
  | add k => exact apart_add hw k
  | remove name =>
    refine hw.perm (((w.set.members_remove name).symm.append_right w.free).trans ?_)
    rw [List.append_assoc]
    refine List.perm_append_comm.trans (.of_eq ?_)
    rw [List.append_assoc]
    rfl
  | switchTo name =>
    have hsame : (w.set.switchTo name).2.members = w.set.members := by
      unfold Replication.switchTo
      split <;> rfl
    show Apart w.net ((w.set.switchTo name).2.members ++ w.free)
    rw [hsame]
    exact hw
  | setRule id rule => exact hw
  | disconnect =>
    have hfree : Apart w.net w.free := hw.sublist (List.sublist_append_right _ _)
    exact hfree.append_closed fun c hc => Replication.channel_of_mem_disconnect hc
  | connect =>
    rcases w.connect_cases.1 with h | ⟨ρ, -, h⟩
    · exact h.apart hw
    · exact h.apart hw
  | executeOn name command =>
    rcases (w.executeOn_cases name command).2 with h | ⟨ρ, -, h⟩
    · exact h.apart hw
    · exact h.apart hw
  | write command => exact hrouted rfl
  | read command => exact hrouted rfl
  | execute command => exact hrouted rfl

end World

/-- **At any time each channel belongs to one connection.** -/
theorem apart_run (net : Network) (ops : List Op) : Apart (run net ops).net (run net ops).connections := by
  induction ops using List.reverseRecOn with
  | nil => exact ⟨List.forall_mem_nil _, .nil⟩
  | append_singleton ops op ih =>
    rw [run_snoc]
    exact World.apart_step ih op

end RespClient.ReplicaRouting
