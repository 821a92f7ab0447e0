/-
How often a client sends a command, and to whom. A command is sent to one member, once at most, and once more if the first
attempt lost the channel and the options ask for it. A script that the server does not know is evaluated afresh, as a command
of its own, under the same rule; what comes back then is the end of it.

- `Client.Dispatches`: the attempts that dispatching a command comes down to, for any client on any network.
- `World.Dispatched`: the same in a world that a run leads to, where no other connection has any part in it.
- `World.Course`: how executing goes on from the reply.
- `execution_law`: over every run, executing a command is dispatching it and then one such course.
-/
import RespClient.Proofs.ClientRuns

namespace RespClient

/-! ## Any client -/

namespace Client

/-- What dispatching a command comes down to: attempts at this command by the member it goes to. -/
structure Dispatches (c : Client) (net : Network) (target : Option String) (command : Command) (tries : List Attempt) :
    Prop where
  sameCommand : ∀ a ∈ tries, a.command = command
  member : ∀ a ∈ tries, ∃ p m, (c.topology.route target command).1 = .ok p ∧ c.topology.member? p = some m ∧
    a.MadeBy m net
  count : tries.length ≤ if c.options.retry then 2 else 1
  /-- the second attempt follows a failure that resets -/
  again : ∀ a b rest, tries = a :: b :: rest → ∃ e, a.result = .error e ∧ e.resets = true
  /-- the last attempt gives the result -/
  result : ∀ a, tries.getLast? = some a → (c.dispatch target command net).result = a.result
  /-- a command that goes nowhere fails, and nothing is sent -/
  nowhere : tries = [] → ∃ e, (c.dispatch target command net).result = .error e ∧ e.resets = false
  frames : ∀ id, (c.dispatch target command net).network.frames id = net.frames id ++ tries.flatMap (·.framesOn id)

variable {c : Client} {net : Network} {target : Option String} {command : Command}

/-- Dispatching finds no member and fails, or leaves everything to the member found. -/
theorem dispatch_cases (c : Client) (target : Option String) (command : Command) (net : Network) :
    (∃ e, e.resets = false ∧ c.dispatch target command net =
      ⟨.error e, c.setTopology (c.topology.route target command).2, net⟩) ∨
    ∃ p m, (c.topology.route target command).1 = .ok p ∧ c.topology.member? p = some m ∧
      c.dispatch target command net = (m.dispatch c.options.retry command net).within fun m' =>
        c.setTopology ((c.topology.route target command).2.setMember p m') := by
  rw [dispatch_eq]
  have hmember := c.topology.member?_route target command
  revert hmember
  unfold Topology.perform
  rcases hroute : c.topology.route target command with ⟨e | p, t⟩
  · intro _
    exact .inl ⟨e, Topology.resets_of_route (congrArg Prod.fst hroute), rfl⟩
  · intro hmember
    simp only [Topology.onMember]
    cases hm : t.member? p with
    | none => exact .inl ⟨_, rfl, rfl⟩
    | some m => exact .inr ⟨p, m, rfl, (hmember p).symm.trans hm, rfl⟩

theorem exists_dispatches (c : Client) (target : Option String) (command : Command) (net : Network) :
    ∃ tries, c.Dispatches net target command tries := by
  rcases c.dispatch_cases target command net with ⟨e, he, h⟩ | ⟨p, m, hp, hm, h⟩
  · refine ⟨[], List.forall_mem_nil _, List.forall_mem_nil _, Nat.zero_le _, ?_, ?_, fun _ => ?_, fun id => ?_⟩
    · intro a b rest hnil
      simp at hnil
    · intro a hnil
      simp at hnil
    · rw [h]
      exact ⟨e, rfl, he⟩
    · rw [h]
      simp
  · obtain ⟨tries, htries⟩ := m.dispatch_tries c.options.retry command net
    refine ⟨tries, htries.sameCommand, ?_, htries.count, htries.again, ?_, ?_, ?_⟩
    · exact fun a ha => ⟨p, m, hp, hm, htries.made a ha⟩
    · intro a ha
      have hresult := htries.result
      rw [ha] at hresult
      rw [h]
      exact (Option.some.inj hresult).symm
    · rintro rfl
      have hresult := htries.result
      contradiction
    · rw [h]
      exact htries.frames

/-- A script's body and a reply that says it is not stored: only then is there something to evaluate. -/
theorem fallback?_eq_some_iff {reply : Reply} {arguments : List Bytes} : fallback? command reply = some arguments ↔
    ∃ e body, reply = .error e ∧ e.category = some "NOSCRIPT" ∧ command.script = some body ∧
      arguments = body :: command.arguments.drop 1 := by
  cases reply with
  | error e =>
    simp only [fallback?, Command.evalArguments]
    split_ifs with hcat
    · simp [hcat, eq_comm]
    · simp [hcat]
  | _ => simp [fallback?]

theorem fallback?_eq_none_iff {reply : Reply} : fallback? command reply = none ↔
    ∀ e, reply = .error e → e.category = some "NOSCRIPT" → command.script = none := by
  cases reply with
  | error e =>
    simp only [fallback?, Command.evalArguments]
    split_ifs with hcat <;> simp [hcat]
  | _ => simp [fallback?]

theorem script_of_create {catalogue : Catalogue} {id : String} {arguments : List Bytes}
    (h : catalogue.create id arguments = .ok command) : command.script = none := by
  unfold Catalogue.create at h
  split at h
  · obtain rfl := Except.ok.inj h
    rfl
  · cases h

/-- A command without a script is settled by presenting its reply, whatever the reply is. -/
theorem settle_of_no_script (h : command.script = none) (target : Option String) (reply : Reply) (c : Client)
    (net : Network) : c.settle target command reply net = ⟨c.present command reply, c, net⟩ := by
  unfold settle
  rw [fallback?_eq_none_iff.2 fun _ _ _ => h]

/-- The reply to an evaluation may be settled like any other: that presents it, for an evaluation has no script. -/
theorem settle_eq (target : Option String) (command : Command) (reply : Reply) (c : Client) (net : Network) :
    c.settle target command reply net =
      match fallback? command reply with
      | none => ⟨c.present command reply, c, net⟩
      | some arguments =>
        match c.catalogue.create "EVAL" arguments with
        | .error e => ⟨.error e, c, net⟩
        | .ok eval => (c.dispatch target eval net).andThen fun reply c net => c.settle target eval reply net := by
  conv_lhs => unfold settle
  cases fallback? command reply with
  | none => rfl
  | some arguments =>
    simp only
    cases hcreate : c.catalogue.create "EVAL" arguments with
    | error e => rfl
    | ok eval => simp only [settle_of_no_script (script_of_create hcreate)]

/-! ## How executing goes on -/

/-- Dispatching changes the topology only. -/
theorem exists_state_dispatch (c : Client) (target : Option String) (command : Command) (net : Network) :
    ∃ t, (c.dispatch target command net).state = c.setTopology t := by
  rcases c.dispatch_cases target command net with ⟨e, -, h⟩ | ⟨p, m, -, -, h⟩
  · exact ⟨_, congrArg Outcome.state h⟩
  · exact ⟨_, congrArg Outcome.state h⟩

theorem catalogue_dispatch (c : Client) (target : Option String) (command : Command) (net : Network) :
    (c.dispatch target command net).state.catalogue = c.catalogue := by
  obtain ⟨t, ht⟩ := c.exists_state_dispatch target command net
  rw [ht]
  rfl

/-- Presenting a reply depends on the options only. -/
theorem present_dispatch (c : Client) (target : Option String) (command asked : Command) (reply : Reply)
    (net : Network) : (c.dispatch target command net).state.present asked reply = c.present asked reply := by
  obtain ⟨t, ht⟩ := c.exists_state_dispatch target command net
  rw [ht]
  rfl

theorem run_of_error {e : ClientError} (h : (c.dispatch target command net).result = .error e) :
    c.run target command net =
      ⟨.error e, (c.dispatch target command net).state, (c.dispatch target command net).network⟩ := by
  simp only [run, Outcome.andThen, h]

theorem run_of_kept {reply : Reply} (h : (c.dispatch target command net).result = .ok reply)
    (hnone : fallback? command reply = none) : c.run target command net =
      ⟨c.present command reply, (c.dispatch target command net).state, (c.dispatch target command net).network⟩ := by
  simp only [run, Outcome.andThen, h, settle, hnone, present_dispatch]

theorem run_of_unknown {reply : Reply} {arguments : List Bytes} {e : ClientError}
    (h : (c.dispatch target command net).result = .ok reply) (hsome : fallback? command reply = some arguments)
    (hcreate : c.catalogue.create "EVAL" arguments = .error e) : c.run target command net =
      ⟨.error e, (c.dispatch target command net).state, (c.dispatch target command net).network⟩ := by
  simp only [run, Outcome.andThen, h, settle, hsome, catalogue_dispatch, hcreate]

/-- The script is evaluated, and whatever comes back from that is presented. -/
theorem run_of_evaluated {reply : Reply} {arguments : List Bytes} {eval : Command}
    (h : (c.dispatch target command net).result = .ok reply) (hsome : fallback? command reply = some arguments)
    (hcreate : c.catalogue.create "EVAL" arguments = .ok eval) : c.run target command net =
      ((c.dispatch target command net).state.dispatch target eval (c.dispatch target command net).network).refine
        (c.present eval) := by
  simp only [run, Outcome.andThen, h, settle, hsome, catalogue_dispatch, hcreate, present_dispatch, Outcome.refine]
  cases ((c.dispatch target command net).state.dispatch target eval (c.dispatch target command net).network).result <;>
    rfl

end Client

namespace ClientRuns

open ReplicaRouting (Apart)

namespace World

variable {w : World} {target : Option String} {command : Command} {tries : List Attempt}

/-! ## In a world -/

/-- The world after a command was dispatched. -/
def dispatched (w : World) (target : Option String) (command : Command) : World :=
  w.after (w.client.dispatch target command w.net)

theorem Inv.dispatched (h : Inv w) (target : Option String) (command : Command) : Inv (w.dispatched target command) :=
  h.dispatch target command

/-- A connection other than the member that a command goes to. -/
def Elsewhere (w : World) (target : Option String) (command : Command) (d : Connection) : Prop :=
  d ∈ w.free ∨ ∃ q, (w.topology.route target command).1 ≠ .ok q ∧ w.topology.member? q = some d

/-- A command is dispatched, and nobody has a part in it but the member it goes to. -/
structure Dispatched (w : World) (target : Option String) (command : Command) (tries : List Attempt) : Prop
    extends Client.Dispatches w.client w.net target command tries where
  others : ∀ q, (w.topology.route target command).1 ≠ .ok q →
    (w.dispatched target command).topology.member? q = w.topology.member? q
  /-- the client keeps its catalogue and its options -/
  client : ∃ t, (w.dispatched target command).client = w.client.setTopology t
  /-- nothing is written on the channels of others, nor read there -/
  untouched : ∀ d, w.Elsewhere target command d → ∀ id, d.channel = some id →
    (w.dispatched target command).net.channel? id = w.net.channel? id ∧ ∀ a ∈ tries, a.channel ≠ some id

/-- The member that a command goes to, apart from all other connections. -/
theorem Inv.apart_member {p : Place} {m : Connection} (h : Inv w) (hp : (w.topology.route target command).1 = .ok p)
    (hm : w.topology.member? p = some m) :
    ∃ rest, Apart w.net (m :: rest) ∧ ∀ d, w.Elsewhere target command d → d ∈ rest := by
  obtain ⟨rest, hperm, -, hothers⟩ := Topology.connections_split hm
  refine ⟨rest ++ w.free, h.apart.perm (hperm.append_right w.free), ?_⟩
  rintro d (hd | ⟨q, hq, hd⟩)
  · exact List.mem_append_right _ hd
  · refine List.mem_append_left _ (hothers q ?_ d hd)
    rintro rfl
    exact hq hp

theorem exists_dispatched (h : Inv w) (target : Option String) (command : Command) :
    ∃ tries, w.Dispatched target command tries := by
  obtain ⟨tries, htries⟩ := w.client.exists_dispatches target command w.net
  refine ⟨tries, htries, ?_, w.client.exists_state_dispatch target command w.net, ?_⟩
  · intro q hq
    have hsame := w.topology.member?_route target command q
    rcases w.client.dispatch_cases target command w.net with ⟨e, -, hcase⟩ | ⟨p, m, hp, -, hcase⟩
    · simp only [dispatched, hcase]
      exact hsame
    · have hne : q ≠ p := by
        rintro rfl
        exact hq hp
      simp only [dispatched, hcase]
      exact (Topology.member?_setMember_ne hne _).trans hsame
  · intro d hd id hid
    constructor
    · rcases w.client.dispatch_cases target command w.net with ⟨e, -, hcase⟩ | ⟨p, m, hp, hm, hcase⟩
      · simp only [dispatched, hcase]
        rfl
      · obtain ⟨rest, hapart, helse⟩ := h.apart_member hp hm
        simp only [dispatched, hcase]
        exact hapart.untouched (m.dispatch_conducts _ command w.net).toReaches (helse d hd) hid
    · intro a ha hchannel
      obtain ⟨p, m, hp, hm, hmade⟩ := htries.member a ha
      obtain ⟨rest, hapart, helse⟩ := h.apart_member hp hm
      rcases hmade.channel id hchannel with hheld | ⟨hnone, -⟩
      · exact (List.pairwise_cons.1 hapart.clear).1 d (helse d hd) id hheld hid
      · have hsome := hapart.held d (List.mem_cons_of_mem m (helse d hd)) id hid
        rw [hnone] at hsome
        contradiction

/-! ## Executing -/

/-- How executing a command ends, once it was dispatched; a script may be evaluated afresh, with the attempts given. -/
inductive Course (w : World) (target : Option String) (command : Command) : List Attempt → Outcome Client Value → Prop
    where
  /-- there is no reply -/
  | failed (e : ClientError) : (w.client.dispatch target command w.net).result = .error e →
      Course w target command [] ⟨.error e, (w.dispatched target command).client, (w.dispatched target command).net⟩
  /-- the reply is presented, an error reply as the options say -/
  | presented (reply : Reply) : (w.client.dispatch target command w.net).result = .ok reply →
      (∀ e, reply = .error e → e.category = some "NOSCRIPT" → command.script = none) →
      Course w target command []
        ⟨w.client.present command reply, (w.dispatched target command).client, (w.dispatched target command).net⟩
  /-- the catalogue knows no command to evaluate scripts -/
  | unknown (e : ErrorReply) (body : Bytes) (err : ClientError) :
      (w.client.dispatch target command w.net).result = .ok (.error e) → e.category = some "NOSCRIPT" →
      command.script = some body → w.client.catalogue.create "EVAL" (body :: command.arguments.drop 1) = .error err →
      Course w target command [] ⟨.error err, (w.dispatched target command).client, (w.dispatched target command).net⟩
  /-- the script is evaluated, and whatever the reply to that, it is presented -/
  | evaluated (e : ErrorReply) (body : Bytes) (eval : Command) (evals : List Attempt) :
      (w.client.dispatch target command w.net).result = .ok (.error e) → e.category = some "NOSCRIPT" →
      command.script = some body → w.client.catalogue.create "EVAL" (body :: command.arguments.drop 1) = .ok eval →
      (w.dispatched target command).Dispatched target eval evals →
      Course w target command evals
        (((w.dispatched target command).client.dispatch target eval (w.dispatched target command).net).refine
          (w.client.present eval))

theorem exists_course (h : Inv w) (target : Option String) (command : Command) :
    ∃ evals, w.Course target command evals (w.client.run target command w.net) := by
  cases hres : (w.client.dispatch target command w.net).result with
  | error e =>
    rw [Client.run_of_error hres]
    exact ⟨[], .failed e hres⟩
  | ok reply =>
    cases hfallback : Client.fallback? command reply with
    | none =>
      rw [Client.run_of_kept hres hfallback]
      exact ⟨[], .presented reply hres (Client.fallback?_eq_none_iff.1 hfallback)⟩
    | some arguments =>
      obtain ⟨e, body, rfl, hcat, hbody, rfl⟩ := Client.fallback?_eq_some_iff.1 hfallback
      cases hcreate : w.client.catalogue.create "EVAL" (body :: command.arguments.drop 1) with
      | error err =>
        rw [Client.run_of_unknown hres hfallback hcreate]
        exact ⟨[], .unknown e body err hres hcat hbody hcreate⟩
      | ok eval =>
        obtain ⟨evals, hevals⟩ := exists_dispatched (h.dispatched target command) target eval
        rw [Client.run_of_evaluated hres hfallback hcreate]
        exact ⟨evals, .evaluated e body eval evals hres hcat hbody hcreate hevals⟩

/-- Whatever is written after dispatching belongs to the attempts of the course. -/
theorem Course.frames {evals : List Attempt} {o : Outcome Client Value} (h : w.Course target command evals o)
    (id : ChannelId) :
    o.network.frames id = (w.dispatched target command).net.frames id ++ evals.flatMap (·.framesOn id) := by
  cases h with
  | evaluated e body eval evals _ _ _ _ hdispatched => exact hdispatched.frames id
  | _ => simp

end World

/-- **The execution law.** Over every run, executing a command is dispatching it and then a course that its reply, its script
and the catalogue determine; and nothing is written but what the attempts at the command and at the evaluation of its script
delivered. -/
theorem execution_law (kind : Kind) (catalogue : Catalogue) (options : Options) (net : Network) (ops : List Op)
    (target : Option String) (command : Command) :
    let w := run kind catalogue options net ops
    ∃ tries evals, w.Dispatched target command tries ∧
      w.Course target command evals (w.client.run target command w.net) ∧
      ∀ id, (w.client.run target command w.net).network.frames id =
        w.net.frames id ++ (tries ++ evals).flatMap (·.framesOn id) := by
  intro w
  have h : w.Inv := inv_run kind catalogue options net ops
  obtain ⟨tries, hdispatched⟩ := World.exists_dispatched h target command
  obtain ⟨evals, hcourse⟩ := World.exists_course h target command
  refine ⟨tries, evals, hdispatched, hcourse, fun id => ?_⟩
  have hfirst : (w.dispatched target command).net.frames id = w.net.frames id ++ tries.flatMap (·.framesOn id) :=
    hdispatched.frames id
  rw [hcourse.frames id, hfirst, List.flatMap_append, List.append_assoc]

/-- The first channel is lost after the command was written; it is written again on a second one. -/
example :
    let a : Address := .host "h" 1
    let lost : Opening := .accepted { octets := [] }
    let net : Network := ⟨[(a, { coming := [lost, .accepted { octets := Bytes.ofText "+OK\r\n" }] })]⟩
    let c : Client := { topology := .single { endpoint := { host := "h", port := 1 } }, options := { retry := true } }
    let incr : Command := { spec := .named "incr" .first .write, arguments := [[107]] }
    let o := c.run none incr net
    o.network.log a = [incr.frame, incr.frame] ∧ o.result.isOk = true := by
  cbv

end ClientRuns

end RespClient
