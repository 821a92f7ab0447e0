/-
Traffic that only reads leaves the master of a replicated set alone. What is handed to the client is not all that it sends:
when a script is not stored it sends the evaluation of its body, under another id, and whether that only reads is a matter of
the rules and the specification of that id.

- `Replication.Spares`: from one state of a set to a later one without the master. One lemma for each way to get there.
- `Client.Reissues`: the evaluation that the client sends on its own behalf.
- `spares_step`: a call none of whose commands counts as writing, that evaluation included. `spares_after`: a run of such
  calls.
- `read_traffic_law`: so nothing is written to the master; and a call whose evaluation does count as writing ends with the
  master in use. `reissue_promotes`: that happens although the invocation was declared to only read.
-/
import RespClient.Proofs.ScriptFallback

namespace RespClient

/-! ## Channels of a connection -/

/-- A channel that the connection may use: the one it holds, or one yet to be opened to its server. -/
def Connection.MayUse (c : Connection) (net : Network) (id : ChannelId) : Prop :=
  c.channel = some id ∨ net.channel? id = none ∧ id.address = c.endpoint.address

/-- What became of a connection: it leads to the same server, on a channel that it may use. -/
structure Connection.Lasts (c : Connection) (net : Network) (c' : Connection) : Prop where
  endpoint : c'.endpoint = c.endpoint
  holds : ∀ id, c'.channel = some id → c.MayUse net id

namespace Connection.Lasts

variable {c c' c'' : Connection} {net net' : Network} {id : ChannelId}

theorem refl (c : Connection) (net : Network) : c.Lasts net c := ⟨rfl, fun _ h => .inl h⟩

theorem disconnect (c : Connection) (net : Network) : c.Lasts net c.disconnect := ⟨rfl, fun _ h => nomatch h⟩

theorem mayUse (h : c.Lasts net c') (hkept : ∀ id, (net.channel? id).isSome → (net'.channel? id).isSome)
    (hid : c'.MayUse net' id) : c.MayUse net id := by
  rcases hid with hid | ⟨hnone, haddress⟩
  · exact h.holds id hid
  · refine .inr ⟨?_, haddress.trans (congrArg Endpoint.address h.endpoint)⟩
    by_contra hne
    have hsome := hkept id (Option.isSome_iff_ne_none.2 hne)
    rw [hnone] at hsome
    contradiction

theorem trans (h : c.Lasts net c') (hkept : ∀ id, (net.channel? id).isSome → (net'.channel? id).isSome)
    (h' : c'.Lasts net' c'') : c.Lasts net c'' :=
  ⟨h'.endpoint.trans h.endpoint, fun id hid => h.mayUse hkept (h'.holds id hid)⟩

end Connection.Lasts

theorem Conducts.lasts {commands : List Command} {c c' : Connection} {net net' : Network}
    (h : Conducts commands c net c' net') : c.Lasts net c' where
  endpoint := h.endpoint
  holds id hid := (h.holds id hid).imp_right fun hnew => ⟨hnew.1, h.opened id hnew.1 hnew.2⟩

theorem Conducts.mayUse_of_changed {commands : List Command} {c c' : Connection} {net net' : Network} {id : ChannelId}
    (h : Conducts commands c net c' net') (hid : net'.channel? id ≠ net.channel? id) : c.MayUse net id := by
  cases hold : net.channel? id with
  | none =>
    rw [hold] at hid
    exact .inr ⟨hold, h.opened id hold (Option.isSome_iff_ne_none.2 hid)⟩
  | some ch =>
    refine .inl ?_
    by_contra hne
    exact hid (h.others id hne (by rw [hold]; rfl))

/-! ## The set -/

namespace Replication

/-- From one state of a set to a later one, without the master: he is not in use and was not used, and all channels that
changed are slaves' channels. -/
structure Spares (r : Replication) (net : Network) (r' : Replication) (net' : Network) : Prop where
  rules : r'.rules = r.rules
  current : r'.current ≠ some .master
  master : r'.master = r.master ∨ r'.master = r.master.map Connection.disconnect
  slaves : ∀ c' ∈ r'.slaves, ∃ c ∈ r.slaves, c.Lasts net c'
  kept : ∀ id, (net.channel? id).isSome → (net'.channel? id).isSome
  changed : ∀ id, net'.channel? id ≠ net.channel? id → ∃ c ∈ r.slaves, c.MayUse net id

variable {r r' r'' : Replication} {net net' net'' : Network} {command : Command}

theorem reads_congr (h : r'.rules = r.rules) (command : Command) : r'.reads command = r.reads command := by
  simp only [reads, h]

namespace Spares

/-- Nobody acted. -/
theorem idle {current : Option Role} (hcur : current ≠ some .master) (turn : Nat) (net : Network) :
    Spares r net { r with current, turn } net where
  rules := rfl
  current := hcur
  master := .inl rfl
  slaves c hc := ⟨c, hc, .refl c net⟩
  kept _ h := h
  changed _ h := absurd rfl h

theorem refl (hcur : r.current ≠ some .master) (net : Network) : Spares r net r net := idle hcur r.turn net

theorem trans (h : Spares r net r' net') (h' : Spares r' net' r'' net'') : Spares r net r'' net'' where
  rules := h'.rules.trans h.rules
  current := h'.current
  master := by
    rcases h'.master with h₂ | h₂ <;> rcases h.master with h₁ | h₁ <;> rw [h₂, h₁]
    · exact .inl rfl
    · exact .inr rfl
    · exact .inr rfl
    · exact .inr (by rw [Option.map_map]; rfl)
  slaves c'' hc'' := by
    obtain ⟨c', hc', hlasts'⟩ := h'.slaves c'' hc''
    obtain ⟨c, hc, hlasts⟩ := h.slaves c' hc'
    exact ⟨c, hc, hlasts.trans h.kept hlasts'⟩
  kept id hid := h'.kept id (h.kept id hid)
  changed id hid := by
    by_cases hmid : net'.channel? id = net.channel? id
    · rw [← hmid] at hid
      obtain ⟨c', hc', huse⟩ := h'.changed id hid
      obtain ⟨c, hc, hlasts⟩ := h.slaves c' hc'
      exact ⟨c, hc, hlasts.mayUse h.kept huse⟩
    · exact h.changed id hmid

/-- A slave acted. -/
theorem of_conducts {commands : List Command} {i : Nat} {c c' : Connection} (hc : r.member? (.slave i) = some c)
    (h : Conducts commands c net c' net') {current : Option Role} (hcur : current ≠ some .master) (turn : Nat) :
    Spares r net { r.setMember (.slave i) c' with current, turn } net' where
  rules := rfl
  current := hcur
  master := .inl rfl
  slaves d hd := by
    rcases List.mem_or_eq_of_mem_set hd with hd | rfl
    · exact ⟨d, hd, .refl d net⟩
    · exact ⟨c, List.mem_of_getElem? hc, h.lasts⟩
  kept := h.kept
  changed id hid := ⟨c, List.mem_of_getElem? hc, h.mayUse_of_changed hid⟩

end Spares

/-- Closing all members writes nothing. -/
theorem spares_disconnect (r : Replication) (net : Network) : r.Spares net r.disconnect net where
  rules := rfl
  current := nofun
  master := .inr rfl
  slaves c' hc' := by
    obtain ⟨c, hc, rfl⟩ := List.mem_map.1 hc'
    exact ⟨c, hc, .disconnect c net⟩
  kept _ h := h
  changed _ h := absurd rfl h

/-- Connecting opens a slave, unless the master is in use. -/
theorem spares_connect (hcur : r.current ≠ some .master) (net : Network) :
    r.Spares net (r.connect net).state (r.connect net).network := by
  let w : ReplicaRouting.World := { set := r, net }
  have htarget : w.target .connect ≠ some .master := by
    simp only [ReplicaRouting.World.target]
    split_ifs
    · cases hc : r.current with
      | none => simp [w]
      | some ρ => simpa [w, hc] using hcur
    · simp
  have hcurrent : (r.connect net).state.current ≠ some .master := by
    rcases w.connect_cases.2 with h | h
    · exact fun hm => hcur (h.symm.trans hm)
    · exact fun hm => htarget (h.trans hm)
  rcases w.connect_cases.1 with ⟨hnet, -, current, turn, hset⟩ | ⟨ρ, hρ, c, c', current, turn, hc, hcond, -, hset⟩
  · have hstate : (r.connect net).state = { r with current, turn } := hset
    have hnetwork : (r.connect net).network = net := hnet
    rw [hstate] at hcurrent ⊢
    rw [hnetwork]
    exact .idle hcurrent turn net
  · cases ρ with
    | master => exact absurd hρ htarget
    | slave i =>
      have hstate : (r.connect net).state = { r.setMember (.slave i) c' with current, turn } := hset
      rw [hstate] at hcurrent ⊢
      exact .of_conducts hc hcond hcurrent turn

/-- What does not count as writing is not given to the master, unless he is in use. -/
theorem choose_of_not_write (hcur : r.current ≠ some .master) (hreads : r.reads command ≠ .ok false) :
    (∃ e, r.choose command = (.error e, r)) ∨
    ∃ i turn, r.choose command = (.ok (.slave i), { r with current := some (.slave i), turn }) := by
  rcases r.choose_cases command with h | ⟨ρ, turn, hρ, -, ⟨hwrite, -⟩ | ⟨-, hsame | ⟨i, rfl⟩⟩⟩
  · exact .inl h
  · exact absurd hwrite hreads
  · cases ρ with
    | master => exact absurd hsame hcur
    | slave i => exact .inr ⟨i, turn, hρ⟩
  · exact .inr ⟨i, turn, hρ⟩

end Replication

/-! ## The client -/

namespace Client

open Replication (Spares)

variable {c : Client} {r : Replication} {net : Network} {command : Command}

/-- A command that does not count as writing is sent to a slave, if at all. -/
theorem spares_dispatch (hkind : c.topology = .replication r) (hcur : r.current ≠ some .master)
    (hreads : r.reads command ≠ .ok false) (net : Network) :
    ∃ r', (c.dispatch none command net).state.topology = .replication r' ∧
      r.Spares net r' (c.dispatch none command net).network := by
  have hroute : c.topology.route none command = ((r.choose command).1.map .role, .replication (r.choose command).2) := by
    rw [hkind]
    rfl
  rcases Replication.choose_of_not_write hcur hreads with ⟨e, he⟩ | ⟨i, turn, hi⟩
  · rw [he] at hroute
    rcases c.dispatch_cases none command net with ⟨e', -, h⟩ | ⟨p, m, hp, -, -⟩
    · rw [h, hroute]
      exact ⟨r, rfl, .refl hcur net⟩
    · rw [hroute] at hp
      cases hp
  · rw [hi] at hroute
    have hslave : some (Role.slave i) ≠ some .master := by simp
    rcases c.dispatch_cases none command net with ⟨e', -, h⟩ | ⟨p, m, hp, hm, h⟩
    · rw [h, hroute]
      exact ⟨_, rfl, .idle hslave turn net⟩
    · rw [hroute] at hp
      obtain rfl : .role (.slave i) = p := Except.ok.inj hp
      rw [hkind] at hm
      rw [h, hroute]
      exact ⟨_, rfl, .of_conducts hm (m.dispatch_conducts _ command net) hslave turn⟩

/-- The client sends the evaluation of a command's script on its own behalf: the server says that it is not stored. -/
def Reissues (c : Client) (net : Network) (command eval : Command) : Prop :=
  ∃ reply arguments, (c.dispatch none command net).result = .ok reply ∧ fallback? command reply = some arguments ∧
    c.catalogue.create "EVAL" arguments = .ok eval

/-- Executing a command comes down to dispatching it, or to dispatching its script's evaluation after it. -/
theorem run_cases (c : Client) (net : Network) (command : Command) :
    ((c.run none command net).state = (c.dispatch none command net).state ∧
     (c.run none command net).network = (c.dispatch none command net).network) ∨
    ∃ eval, c.Reissues net command eval ∧ c.run none command net =
      ((c.dispatch none command net).state.dispatch none eval (c.dispatch none command net).network).refine
        (c.present eval) := by
  cases hresult : (c.dispatch none command net).result with
  | error e =>
    rw [run_of_error hresult]
    exact .inl ⟨rfl, rfl⟩
  | ok reply =>
    cases hfallback : fallback? command reply with
    | none =>
      rw [run_of_kept hresult hfallback]
      exact .inl ⟨rfl, rfl⟩
    | some arguments =>
      cases hcreate : c.catalogue.create "EVAL" arguments with
      | error e =>
        rw [run_of_unknown hresult hfallback hcreate]
        exact .inl ⟨rfl, rfl⟩
      | ok eval => exact .inr ⟨eval, ⟨reply, arguments, hresult, hfallback, hcreate⟩,
          run_of_evaluated hresult hfallback hcreate⟩

/-- Executing spares the master if neither the command nor the evaluation of its script counts as writing. -/
theorem spares_run (hkind : c.topology = .replication r) (hcur : r.current ≠ some .master)
    (hreads : r.reads command ≠ .ok false) (hreissued : ∀ eval, c.Reissues net command eval → r.reads eval ≠ .ok false) :
    ∃ r', (c.run none command net).state.topology = .replication r' ∧
      r.Spares net r' (c.run none command net).network := by
  obtain ⟨r₁, hkind₁, hspares⟩ := spares_dispatch hkind hcur hreads net
  rcases c.run_cases net command with ⟨hstate, hnetwork⟩ | ⟨eval, heval, hrun⟩
  · rw [hstate, hnetwork]
    exact ⟨r₁, hkind₁, hspares⟩
  · have hreads₁ : r₁.reads eval ≠ .ok false := by
      rw [Replication.reads_congr hspares.rules]
      exact hreissued eval heval
    obtain ⟨r₂, hkind₂, hspares₂⟩ := spares_dispatch hkind₁ hspares.current hreads₁ (c.dispatch none command net).network
    rw [hrun]
    exact ⟨r₂, hkind₂, hspares.trans hspares₂⟩

/-- Only a complete set has a reply. -/
theorem isComplete_of_reply {reply : Reply} (hkind : c.topology = .replication r)
    (h : (c.dispatch none command net).result = .ok reply) : r.isComplete = true := by
  rcases c.dispatch_cases none command net with ⟨e, -, hcase⟩ | ⟨p, m, hp, -, -⟩
  · rw [hcase] at h
    cases h
  · rw [hkind] at hp
    rcases r.choose_cases command with ⟨e, he⟩ | ⟨ρ, turn, -, hc, -⟩
    · simp only [Topology.route, he] at hp
      cases hp
    · exact hc

/-- A command that counts as writing puts the master in use, whatever comes of it. -/
theorem promotes_dispatch (hkind : c.topology = .replication r) (hc : r.isComplete = true)
    (hwrite : r.reads command = .ok false) :
    ∃ r', (c.dispatch none command net).state.topology = .replication r' ∧ r'.current = some .master := by
  have hroute : (c.topology.route none command) =
      (.ok (.role .master), .replication { r with current := some .master }) := by
    rw [hkind, Topology.route, Replication.choose_of_write hc hwrite]
    rfl
  rcases c.dispatch_cases none command net with ⟨e, -, h⟩ | ⟨p, m, hp, -, h⟩
  · rw [h, hroute]
    exact ⟨_, rfl, rfl⟩
  · rw [hroute] at hp
    obtain rfl : .role .master = p := Except.ok.inj hp
    rw [h, hroute]
    exact ⟨_, rfl, rfl⟩

/-- So does a script that is not stored, if its evaluation counts as writing. -/
theorem promotes_run {eval : Command} (hkind : c.topology = .replication r) (heval : c.Reissues net command eval)
    (hwrite : r.reads eval = .ok false) :
    ∃ r', (c.run none command net).state.topology = .replication r' ∧ r'.current = some .master := by
  obtain ⟨reply, arguments, hresult, hfallback, hcreate⟩ := heval
  obtain ⟨r₁, hkind₁, hrules, hcomplete⟩ := topology_dispatch_replication hkind none command net
  have hc := hcomplete.trans (isComplete_of_reply hkind hresult)
  rw [run_of_evaluated hresult hfallback hcreate]
  exact promotes_dispatch hkind₁ hc ((Replication.reads_congr hrules eval).trans hwrite)

end Client

namespace ClientRuns

open Replication (Spares)

/-! ## Runs of calls -/

/-- A call that leaves the members and the one in use to the client. -/
inductive Call where
  | connect
  | disconnect
  | execute (command : Command)
  | evalScript (script : Script.Stored) (keys args : List Bytes)

/-- The command that a call hands over, or that it builds. -/
def Call.command? (c : Client) : Call → Option Command
  | .connect | .disconnect => none
  | .execute command => some command
  | .evalScript script keys args => (c.invocation script keys args).toOption

namespace World

def call (w : World) : Call → World
  | .connect => w.after (w.client.connect w.net)
  | .disconnect => { w with client := w.client.disconnect }
  | .execute command => w.after (w.client.execute command w.net)
  | .evalScript script keys args => w.after (w.client.evalScript script keys args w.net)

/-- The world after one call after the other. -/
def calls (w : World) (cs : List Call) : World := cs.foldl call w

theorem calls_snoc (w : World) (cs : List Call) (c : Call) : w.calls (cs ++ [c]) = (w.calls cs).call c := by
  unfold calls
  rw [List.foldl_append, List.foldl_cons, List.foldl_nil]

/-- None of the commands that a call sends counts as writing: neither the one handed over or built, nor the evaluation of
its script that the client sends if the script is not stored. -/
structure OnlyReads (w : World) (r : Replication) (call : Call) : Prop where
  handed : ∀ command, call.command? w.client = some command → r.reads command ≠ .ok false
  reissued : ∀ command eval, call.command? w.client = some command → w.client.Reissues w.net command eval →
    r.reads eval ≠ .ok false

variable {w : World} {r : Replication} {call : Call} {cs : List Call}

/-- A call with a command executes it. -/
theorem call_of_command {command : Command} (h : call.command? w.client = some command) :
    (w.call call).client = (w.client.run none command w.net).state ∧
    (w.call call).net = (w.client.run none command w.net).network := by
  cases call with
  | connect => cases h
  | disconnect => cases h
  | execute given =>
    obtain rfl := Option.some.inj h
    exact ⟨rfl, rfl⟩
  | evalScript script keys args =>
    simp only [Call.command?] at h
    cases hinvocation : w.client.invocation script keys args with
    | error e =>
      rw [hinvocation] at h
      cases h
    | ok built =>
      rw [hinvocation] at h
      obtain rfl := Option.some.inj h
      simp only [World.call, Client.evalScript, hinvocation]
      exact ⟨rfl, rfl⟩

/-- **One call.** If none of its commands counts as writing, it spares the master. -/
theorem spares_call (hkind : w.topology = .replication r) (hcur : r.current ≠ some .master) (h : w.OnlyReads r call) :
    ∃ r', (w.call call).topology = .replication r' ∧ r.Spares w.net r' (w.call call).net := by
  cases hcommand : call.command? w.client with
  | some command =>
    obtain ⟨hclient, hnet⟩ := call_of_command hcommand
    unfold topology
    rw [hclient, hnet]
    exact Client.spares_run hkind hcur (h.handed command hcommand) fun eval => h.reissued command eval hcommand
  | none =>
    cases call with
    | connect =>
      refine ⟨(r.connect w.net).state, ?_, ?_⟩
      · show (w.topology.connect w.net).state = _
        rw [hkind]
        rfl
      · show r.Spares w.net _ (w.topology.connect w.net).network
        rw [hkind]
        exact Replication.spares_connect hcur w.net
    | disconnect =>
      refine ⟨r.disconnect, ?_, r.spares_disconnect w.net⟩
      show w.topology.disconnect = _
      rw [hkind]
      rfl
    | execute command => cases hcommand
    | evalScript script keys args =>
      simp only [Call.command?] at hcommand
      cases hinvocation : w.client.invocation script keys args with
      | ok built =>
        rw [hinvocation] at hcommand
        cases hcommand
      | error e =>
        simp only [World.call, Client.evalScript, hinvocation]
        exact ⟨r, hkind, .refl hcur w.net⟩

/-- Every call of a run only reads, in the state that the calls before it led to. -/
def AllRead (w : World) (r : Replication) (cs : List Call) : Prop :=
  ∀ part call rest, cs = part ++ call :: rest → (w.calls part).OnlyReads r call

theorem AllRead.of_append {more : List Call} (h : w.AllRead r (cs ++ more)) : w.AllRead r cs :=
  fun part call rest heq => h part call (rest ++ more) (by rw [heq, List.append_assoc, List.cons_append])

/-- **A run of calls.** -/
theorem spares_calls (hkind : w.topology = .replication r) (hcur : r.current ≠ some .master) (h : w.AllRead r cs) :
    ∃ r', (w.calls cs).topology = .replication r' ∧ r.Spares w.net r' (w.calls cs).net := by
  induction cs using List.reverseRecOn with
  | nil => exact ⟨r, hkind, .refl hcur w.net⟩
  | append_singleton cs call ih =>
    obtain ⟨r₁, hkind₁, hspares⟩ := ih h.of_append
    -- the rules are still those of the beginning
    have hlast : (w.calls cs).OnlyReads r₁ call := by
      obtain ⟨hhanded, hreissued⟩ := h cs call [] rfl
      have hreads := fun command => Replication.reads_congr hspares.rules command
      exact ⟨fun command hcommand => hreads command ▸ hhanded command hcommand,
        fun command eval hcommand heval => hreads eval ▸ hreissued command eval hcommand heval⟩
    obtain ⟨r₂, hkind₂, hspares₂⟩ := spares_call hkind₁ hspares.current hlast
    rw [calls_snoc]
    exact ⟨r₂, hkind₂, hspares.trans hspares₂⟩

/-! ## The master's channel and the master's server -/

theorem role_of_mem_slaves {r : Replication} {c : Connection} (h : c ∈ r.slaves) : ∃ i, r.member? (.slave i) = some c :=
  List.getElem?_of_mem h

/-- No slave may use the channel that the master holds. -/
theorem Inv.held_by_master (h : Inv w) (hkind : w.topology = .replication r) {m c : Connection} {id : ChannelId}
    (hm : r.master = some m) (hid : m.channel = some id) (hc : c ∈ r.slaves) : ¬ c.MayUse w.net id := by
  have hmember : w.topology.member? (.role .master) = some m := by
    rw [hkind]
    exact hm
  obtain ⟨rest, hperm, -, hothers⟩ := Topology.connections_split hmember
  have hapart := h.apart.perm (hperm.append_right w.free)
  obtain ⟨i, hi⟩ := role_of_mem_slaves hc
  have hrest : c ∈ rest := hothers (.role (.slave i)) (by simp) c (by rw [hkind]; exact hi)
  rintro (hheld | ⟨hnone, -⟩)
  · exact (List.pairwise_cons.1 hapart.clear).1 c (List.mem_append_left _ hrest) id hid hheld
  · have hsome := hapart.held m List.mem_cons_self id hid
    rw [hnone] at hsome
    contradiction

/-- A call whose script is evaluated by a command that counts as writing ends with the master in use. -/
theorem promotes_call {command eval : Command} (hkind : w.topology = .replication r)
    (hcommand : call.command? w.client = some command) (heval : w.client.Reissues w.net command eval)
    (hwrite : r.reads eval = .ok false) :
    ∃ r', (w.call call).topology = .replication r' ∧ r'.current = some .master := by
  obtain ⟨hclient, -⟩ := call_of_command hcommand
  unfold topology
  rw [hclient]
  exact Client.promotes_run hkind heval hwrite

end World

end ClientRuns

/-- A server with which no slave has to do receives nothing. -/
theorem Replication.Spares.log {r r' : Replication} {net net' : Network} (h : r.Spares net r' net') {a : Address}
    (ha : ∀ c ∈ r.slaves, ∀ id, c.MayUse net id → id.address ≠ a) : net'.log a = net.log a := by
  have hlog : ∀ net : Network, net.log a = (net.channelsAt a).map Channel.log := by
    intro net
    unfold Network.log Network.channelsAt
    cases net.peer? a <;> rfl
  have hchannels : net'.channelsAt a = net.channelsAt a := by
    refine List.ext_getElem? fun k => ?_
    have hsame : net'.channel? ⟨a, k⟩ = net.channel? ⟨a, k⟩ := by
      by_contra hid
      obtain ⟨c, hc, huse⟩ := h.changed _ hid
      exact ha c hc _ huse rfl
    rwa [Network.channel?_eq, Network.channel?_eq] at hsame
  rw [hlog, hlog, hchannels]

namespace ClientRuns

/-- **Traffic that only reads spares the master.** A client of a replicated set, with whatever members, rules and commands,
makes calls while nobody is in use. If no command handed over or built counts as writing, nor any evaluation of a script that
is not stored, then at any time the master is not in use, was not used, and neither his channel nor a server that is his
alone has received anything. A call with such an evaluation that does count as writing ends with the master in use. -/
theorem read_traffic_law {catalogue : Catalogue} {options : Options} {net : Network} {before : List Op} {r : Replication}
    (hkind : (run .replication catalogue options net before).topology = .replication r) (hcur : r.current = none) :
    let w := run .replication catalogue options net before
    (∀ calls, w.AllRead r calls → ∀ part, part <+: calls →
      ∃ r', (w.calls part).topology = .replication r' ∧ r.Spares w.net r' (w.calls part).net ∧
        (∀ m id, r.master = some m → m.channel = some id → (w.calls part).net.channel? id = w.net.channel? id) ∧
        ∀ a, (∀ c ∈ r.slaves, ∀ id, c.MayUse w.net id → id.address ≠ a) → (w.calls part).net.log a = w.net.log a) ∧
    ∀ calls r₁ call command eval, (w.calls calls).topology = .replication r₁ →
      call.command? (w.calls calls).client = some command →
      (w.calls calls).client.Reissues (w.calls calls).net command eval → r₁.reads eval = .ok false →
      ∃ r', ((w.calls calls).call call).topology = .replication r' ∧ r'.current = some .master := by
  intro w
  have hcur' : r.current ≠ some .master := by simp [hcur]
  refine ⟨?_, fun calls r₁ call command eval => World.promotes_call⟩
  rintro calls hreads part ⟨more, rfl⟩
  obtain ⟨r', hkind', hspares⟩ := World.spares_calls hkind hcur' hreads.of_append
  refine ⟨r', hkind', hspares, ?_, fun a ha => hspares.log ha⟩
  intro m id hm hid
  by_contra hne
  obtain ⟨c, hc, huse⟩ := hspares.changed id hne
  exact (inv_run .replication catalogue options net before).held_by_master hkind hm hid hc huse

/-- The servers of a master and of a slave that has forgotten a script. -/
def forgetful : Network :=
  ⟨[(.host "m" 1, { coming := [.accepted { octets := Bytes.ofText ":1\r\n" }] }),
    (.host "s" 1, { coming := [.accepted { octets := Bytes.ofText "-NOSCRIPT gone\r\n:7\r\n" }] })]⟩

/-- Both join a set, in which some ids are declared to only read. -/
def pairing (readers : List String) : List Op :=
  [.create { host := "m", port := 1, label := some "master" }, .create { host := "s", port := 1, label := some "slave" },
    .add 0, .add 0] ++ readers.map fun id => .setRule id (.always true)

def paired (rules : List (String × ReadRule)) : Replication where
  master := some { endpoint := { host := "m", port := 1, label := some "master" } }
  slaves := [{ endpoint := { host := "s", port := 1, label := some "slave" } }]
  rules := rules

def script : Script.Stored := { body := Bytes.ofText "return 7", digest := "d1" }

/-- The script is invoked with one key. -/
def invoking : Call := .evalScript script [[107]] []

/-- With both ids declared to only read, the master's server receives nothing. -/
theorem read_traffic_law_forgetful :
    let w := run .replication .standard {} forgetful (pairing ["evalsha", "eval"])
    let r := paired [("EVAL", .always true), ("EVALSHA", .always true)]
    w.topology = .replication r ∧ r.current = none ∧ w.AllRead r [invoking] ∧
    (w.calls [invoking]).net.log (.host "m" 1) = [] := by
  intro w r
  have hkind : w.topology = .replication r := rfl
  have hreads : w.AllRead r [invoking] := by
    intro part call rest heq
    obtain ⟨rfl, rfl⟩ : part = [] ∧ invoking = call := by
      cases part with
      | nil => exact ⟨rfl, (List.cons.inj heq).1⟩
      | cons _ part => simp at heq
    constructor
    · intro command hcommand
      obtain rfl : w.client.stored _ _ _ = command := Option.some.inj hcommand
      decide
    · rintro command eval - ⟨reply, arguments, -, -, hcreate⟩
      obtain rfl := Except.ok.inj hcreate
      exact nofun
  obtain ⟨r', -, -, -, hlog⟩ := (read_traffic_law hkind rfl).1 [invoking] hreads _ List.prefix_rfl
  refine ⟨hkind, rfl, hreads, (hlog (.host "m" 1) ?_).trans rfl⟩
  intro c hc id huse
  obtain rfl := List.mem_singleton.1 hc
  rcases huse with hheld | ⟨-, haddress⟩
  · cases hheld
  · rw [haddress]
    decide

/-- **Declaring the invocation to only read is not enough.** It is all that is handed over, and nobody is in use; but the
slave has forgotten the script, and its evaluation goes to the master, who is in use from then on. -/
theorem reissue_promotes :
    let w := run .replication .standard {} forgetful (pairing ["evalsha"])
    let r := paired [("EVALSHA", .always true)]
    w.topology = .replication r ∧ r.current = none ∧
    (∀ command, invoking.command? w.client = some command → r.reads command = .ok true) ∧
    (∃ r', (w.call invoking).topology = .replication r' ∧ r'.current = some .master) ∧
    (w.call invoking).net.log (.host "m" 1) =
      [Bytes.ofText "*4\r\n$4\r\nEVAL\r\n$8\r\nreturn 7\r\n$1\r\n1\r\n$1\r\nk\r\n"] := by
  intro w r
  have hkind : w.topology = .replication r := rfl
  have hcommand : invoking.command? w.client = some (w.client.stored script [[107]] []) := rfl
  have hforgotten : (w.client.dispatch none (w.client.stored script [[107]] []) w.net).result =
      .ok (.error ⟨"NOSCRIPT gone"⟩) := by cbv
  have hfallback : Client.fallback? (w.client.stored script [[107]] []) (.error ⟨"NOSCRIPT gone"⟩) =
      some (w.client.afresh script [[107]] []).arguments := by decide
  have hcreate : w.client.catalogue.create "EVAL" (w.client.afresh script [[107]] []).arguments =
      .ok (w.client.afresh script [[107]] []) := rfl
  have hreissues : w.client.Reissues w.net (w.client.stored script [[107]] []) (w.client.afresh script [[107]] []) :=
    ⟨_, _, hforgotten, hfallback, hcreate⟩
  refine ⟨hkind, rfl, ?_, World.promotes_call hkind hcommand hreissues rfl, ?_⟩
  · intro command h
    obtain rfl := Option.some.inj (hcommand.symm.trans h)
    rfl
  · obtain ⟨-, hnet⟩ := World.call_of_command hcommand
    rw [hnet, Client.run_of_evaluated hforgotten hfallback hcreate]
    cbv

end ClientRuns

end RespClient
