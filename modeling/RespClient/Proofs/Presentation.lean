/-
Whether error replies are raised is a matter of presentation. A client that raises them and one that hands them out as
values send the same, on the same channels, and are left in the same state after every call; only the results of calls that
hand out values differ, and only where the last reply is an error.

- `Client.answer`: what executing a command comes down to before its reply is presented. It does not know of the option.
- `Presented`: the results of the two clients. `Presented.bind_eq`: a taker that raises error values makes the same of both.
- `Twins`: the outcomes of one call at both clients; one lemma for each way to make a call.
- `presentation_law`: over every sequence of calls, by one step and induction.
-/
import RespClient.Client.TypedCommands
import RespClient.Proofs.Dispatch

namespace RespClient

/-! ## Values -/

/-- No shape makes an error of another reply. -/
theorem ReplyShape.error_of_value? {shape : ReplyShape} {reply : Reply} {e : ErrorReply}
    (h : shape.value? reply = some (.error e)) : reply = .error e := by
  cases reply with
  | error e' =>
    have he : some (Value.error e') = some (.error e) := by cases shape <;> exact h
    cases he
    rfl
  | _ => cases shape <;> simp [value?, Value.ofReply] at h

theorem Command.error_of_readReply {command : Command} {reply : Reply} {e : ErrorReply}
    (h : command.readReply reply = .ok (.error e)) : reply = .error e := by
  unfold readReply ReplyShape.read at h
  split at h
  · next v hv =>
    obtain rfl := Except.ok.inj h
    exact ReplyShape.error_of_value? hv
  · cases h

/-- The results of a call at a client that raises error replies and at one that does not: the same and no error value, or
an error reply in either form. -/
inductive Presented : Except ClientError Value → Except ClientError Value → Prop where
  | same (r : Except ClientError Value) : (∀ e, r ≠ .ok (.error e)) → Presented r r
  | error (e : ErrorReply) : Presented (.error (.server e)) (.ok (.error e))

namespace Presented

variable {loud quiet : Except ClientError Value}

/-- A failure before there is a reply is the same for both. -/
theorem failed (e : ClientError) : Presented (.error e) (.error e) := .same _ fun _ h => nomatch h

/-- Whoever raises error replies hands out no error value. -/
theorem ne_error (h : Presented loud quiet) (e : ErrorReply) : loud ≠ .ok (.error e) := by
  cases h with
  | same r hr => exact hr e
  | error e' => simp

/-- A taker that raises error values makes the same of both. -/
theorem bind_eq {α : Type} {take : Value → Except ClientError α} (htake : ∀ e, take (.error e) = .error (.server e))
    (h : Presented loud quiet) : loud.bind take = quiet.bind take := by
  cases h with
  | same r hr => rfl
  | error e => exact (htake e).symm

end Presented

namespace Client

/-! ## The option -/

/-- The same client with error replies raised, or handed out as values. -/
def raising (b : Bool) (c : Client) : Client := { c with options := { c.options with exceptions := b } }

variable {α : Type} (c : Client) (net : Network) (target : Option String) (command : Command) (b : Bool)

theorem dispatch_raising :
    (c.raising b).dispatch target command net = (c.dispatch target command net).within (raising b) := by
  rw [dispatch_eq, dispatch_eq]
  rfl

theorem presented_present (reply : Reply) :
    Presented ((c.raising true).present command reply) ((c.raising false).present command reply) := by
  have hvalue : ∀ reply' : Reply, (∀ e, reply' ≠ .error e) →
      Presented (command.readReply reply') (command.readReply reply') :=
    fun reply' hreply => .same _ fun e he => hreply e (Command.error_of_readReply he)
  cases reply with
  | error e => exact .error e
  | _ => exact hvalue _ (by simp)

/-! ## Before presenting -/

/-- Goes on from the reply to a command up to the reply to be presented, with the command that it answers: this one, or the
evaluation of its script. -/
def answerFrom (reply : Reply) : Outcome Client (Command × Reply) :=
  match fallback? command reply with
  | none => ⟨.ok (command, reply), c, net⟩
  | some arguments =>
    match c.catalogue.create "EVAL" arguments with
    | .error e => ⟨.error e, c, net⟩
    | .ok eval => (c.dispatch target eval net).andThen fun reply c net => ⟨.ok (eval, reply), c, net⟩

/-- Executes a command up to the reply to be presented. -/
def answer : Outcome Client (Command × Reply) :=
  (c.dispatch target command net).andThen fun reply c net => c.answerFrom net target command reply

theorem settle_eq_refine (reply : Reply) : c.settle target command reply net =
    (c.answerFrom net target command reply).refine fun answer => c.present answer.1 answer.2 := by
  unfold settle answerFrom
  cases fallback? command reply with
  | none => rfl
  | some arguments =>
    simp only
    cases c.catalogue.create "EVAL" arguments with
    | error e => rfl
    | ok eval =>
      simp only [Outcome.andThen, Outcome.refine, present_dispatch]
      cases (c.dispatch target eval net).result <;> rfl

/-- Executing is presenting the answer. -/
theorem run_eq : c.run target command net =
    (c.answer net target command).refine fun answer => c.present answer.1 answer.2 := by
  unfold run answer
  simp only [settle_eq_refine, Outcome.andThen, present_dispatch]
  cases (c.dispatch target command net).result <;> rfl

theorem answerFrom_raising (reply : Reply) : (c.raising b).answerFrom net target command reply =
    (c.answerFrom net target command reply).within (raising b) := by
  have hcatalogue : (c.raising b).catalogue = c.catalogue := rfl
  unfold answerFrom
  rw [hcatalogue]
  cases fallback? command reply with
  | none => rfl
  | some arguments =>
    simp only
    cases c.catalogue.create "EVAL" arguments with
    | error e => rfl
    | ok eval =>
      simp only [dispatch_raising]
      exact Outcome.within_andThen (fun _ _ _ => rfl) _

/-- The answer does not depend on the option. -/
theorem answer_raising :
    (c.raising b).answer net target command = (c.answer net target command).within (raising b) := by
  unfold answer
  rw [dispatch_raising]
  exact Outcome.within_andThen (fun reply c net => c.answerFrom_raising net target command b reply) _

end Client

/-! ## One call at both clients -/

/-- The outcomes of one call at a client that raises error replies and at one that does not. -/
structure Twins {α : Type} (R : Except ClientError α → Except ClientError α → Prop) (loud quiet : Outcome Client α) :
    Prop where
  result : R loud.result quiet.result
  state : ∃ c : Client, loud.state = c.raising true ∧ quiet.state = c.raising false
  network : loud.network = quiet.network

/-- What both clients are left with. -/
theorem Twins.exists_left {α : Type} {R : Except ClientError α → Except ClientError α → Prop}
    {loud quiet : Outcome Client α} (h : Twins R loud quiet) : ∃ (c : Client) (net : Network),
      (loud.state, loud.network) = (c.raising true, net) ∧ (quiet.state, quiet.network) = (c.raising false, net) := by
  obtain ⟨-, ⟨c, hloud, hquiet⟩, hnetwork⟩ := h
  exact ⟨c, loud.network, by rw [hloud], by rw [hquiet, hnetwork]⟩

namespace Client

variable {α : Type} (c : Client) (net : Network)

theorem twins_within {o : Outcome Client α} : Twins Eq (o.within (raising true)) (o.within (raising false)) :=
  ⟨rfl, ⟨o.state, rfl, rfl⟩, rfl⟩

theorem twins_run (target : Option String) (command : Command) :
    Twins Presented ((c.raising true).run target command net) ((c.raising false).run target command net) := by
  rw [run_eq, run_eq, answer_raising, answer_raising]
  refine ⟨?_, ⟨(c.answer net target command).state, rfl, rfl⟩, rfl⟩
  simp only [Outcome.refine, Outcome.within]
  cases (c.answer net target command).result with
  | error e => exact .failed e
  | ok answer => exact c.presented_present answer.1 answer.2

/-- A command is built and executed, or cannot be built, and nothing is sent. -/
theorem twins_built (built : Except ClientError Command) :
    Twins Presented
      (match built with
        | .ok command => (c.raising true).execute command net
        | .error e => ⟨.error e, c.raising true, net⟩)
      (match built with
        | .ok command => (c.raising false).execute command net
        | .error e => ⟨.error e, c.raising false, net⟩) := by
  cases built with
  | error e => exact ⟨.failed e, ⟨c, rfl, rfl⟩, rfl⟩
  | ok command => exact c.twins_run net none command

theorem twins_call (id : String) (arguments : List Bytes) :
    Twins Presented ((c.raising true).call id arguments net) ((c.raising false).call id arguments net) :=
  c.twins_built net (c.create id arguments)

theorem twins_evalScript (script : Script.Stored) (keys args : List Bytes) :
    Twins Presented ((c.raising true).evalScript script keys args net)
      ((c.raising false).evalScript script keys args net) :=
  c.twins_built net (c.invocation script keys args)

theorem twins_callFor {take : Value → Except ClientError α} (htake : ∀ e, take (.error e) = .error (.server e))
    (id : String) (arguments : List Bytes) :
    Twins Eq ((c.raising true).callFor id arguments take net) ((c.raising false).callFor id arguments take net) := by
  obtain ⟨hresult, hstate, hnetwork⟩ := c.twins_call net id arguments
  exact ⟨hresult.bind_eq htake, hstate, hnetwork⟩

/-! ## Calls -/

/-- A call that hands out a value. -/
inductive ValueCall where
  | execute (command : Command)
  | executeOn (name : String) (command : Command)
  | call (id : String) (arguments : List Bytes)
  | evalScript (script : Script.Stored) (keys args : List Bytes)

def ValueCall.perform : ValueCall → Client → Network → Outcome Client Value
  | .execute command => Client.execute command
  | .executeOn name command => Client.executeOn name command
  | .call id arguments => Client.call id arguments
  | .evalScript script keys args => Client.evalScript script keys args

/-- A call with a result of its own type. -/
inductive TypedCall : Type → Type where
  | connect : TypedCall Unit
  | disconnect : TypedCall Unit
  | loadScript (body : Bytes) : TypedCall Script.Stored
  | ping : TypedCall String
  | get (key : Bytes) : TypedCall (Option Bytes)
  | set (key value : Bytes) : TypedCall Unit
  | setWithTtl (key value : Bytes) (span : Timespan) : TypedCall Unit
  | del (keys : List Bytes) : TypedCall Int
  | exists? (key : Bytes) : TypedCall Bool
  | expire (key : Bytes) (span : Timespan) : TypedCall Bool
  | ttl (key : Bytes) : TypedCall TimeToLive
  | incr (key : Bytes) : TypedCall Int
  | mget (keys : List Bytes) : TypedCall (List (Option Bytes))
  | hgetall (key : Bytes) : TypedCall (List (Bytes × Bytes))
  | info (part : Option String) : TypedCall String
  | dbsize : TypedCall Int

def TypedCall.perform : TypedCall α → Client → Network → Outcome Client α
  | .connect => Client.connect
  | .disconnect => fun c net => ⟨.ok (), c.disconnect, net⟩
  | .loadScript body => Client.loadScript body
  | .ping => Client.ping
  | .get key => Client.get key
  | .set key value => Client.set key value
  | .setWithTtl key value span => Client.setWithTtl key value span
  | .del keys => Client.del keys
  | .exists? key => Client.exists? key
  | .expire key span => Client.expire key span
  | .ttl key => Client.ttl key
  | .incr key => Client.incr key
  | .mget keys => Client.mget keys
  | .hgetall key => Client.hgetall key
  | .info part => Client.info part
  | .dbsize => Client.dbsize

theorem ValueCall.twins (v : ValueCall) :
    Twins Presented (v.perform (c.raising true) net) (v.perform (c.raising false) net) := by
  cases v with
  | execute command => exact c.twins_run net none command
  | executeOn name command => exact c.twins_run net (some name) command
  | call id arguments => exact c.twins_call net id arguments
  | evalScript script keys args => exact c.twins_evalScript net script keys args

theorem TypedCall.twins (t : TypedCall α) :
    Twins Eq (t.perform (c.raising true) net) (t.perform (c.raising false) net) := by
  cases t with
  | connect => exact twins_within (o := c.connect net)
  | disconnect => exact ⟨rfl, ⟨c.disconnect, rfl, rfl⟩, rfl⟩
  | _ => exact c.twins_callFor net (fun _ => rfl) _ _

/-! ## Sequences of calls -/

inductive Op where
  | value (v : ValueCall)
  | typed {α : Type} (t : TypedCall α)

/-- The client and the network after a call. -/
def Op.after (s : Client × Network) : Op → Client × Network
  | .value v => ((v.perform s.1 s.2).state, (v.perform s.1 s.2).network)
  | .typed t => ((t.perform s.1 s.2).state, (t.perform s.1 s.2).network)

/-- The client and the network after one call after the other. -/
def after (c : Client) (net : Network) (ops : List Op) : Client × Network := ops.foldl Op.after (c, net)

/-- After every call the clients differ in the option only, and the networks do not. -/
theorem exists_after (ops : List Op) : ∃ (d : Client) (net' : Network),
    (c.raising true).after net ops = (d.raising true, net') ∧
    (c.raising false).after net ops = (d.raising false, net') := by
  unfold after
  induction ops generalizing c net with
  | nil => exact ⟨c, net, rfl, rfl⟩
  | cons op ops ih =>
    obtain ⟨d, net', hloud, hquiet⟩ : ∃ (d : Client) (net' : Network),
        op.after (c.raising true, net) = (d.raising true, net') ∧
        op.after (c.raising false, net) = (d.raising false, net') := by
      cases op with
      | value v => exact (v.twins c net).exists_left
      | typed t => exact (t.twins c net).exists_left
    rw [List.foldl_cons, List.foldl_cons, hloud, hquiet]
    exact ih d net'

/-- **Raising error replies is presentation.** Whatever calls were made, a client that raises error replies and one that
does not have left the same network behind them, and differ in that option only. The next call has the same result at both
if its result is of its own type; if it hands out a value, the results are the same or the two forms of one error reply,
and the client that raises error replies hands out no error value. -/
theorem presentation_law (ops : List Op) :
    let loud := (c.raising true).after net ops
    let quiet := (c.raising false).after net ops
    loud.2 = quiet.2 ∧
    (∃ d : Client, loud.1 = d.raising true ∧ quiet.1 = d.raising false) ∧
    (∀ {α : Type} (t : TypedCall α), (t.perform loud.1 loud.2).result = (t.perform quiet.1 quiet.2).result) ∧
    ∀ v : ValueCall, Presented (v.perform loud.1 loud.2).result (v.perform quiet.1 quiet.2).result ∧
      ∀ e, (v.perform loud.1 loud.2).result ≠ .ok (.error e) := by
  intro loud quiet
  obtain ⟨d, net', hloud, hquiet⟩ := c.exists_after net ops
  rw [show loud = _ from hloud, show quiet = _ from hquiet]
  refine ⟨rfl, ⟨d, rfl, rfl⟩, fun t => (t.twins d net').result, fun v => ?_⟩
  have hresult := (v.twins d net').result
  exact ⟨hresult, hresult.ne_error⟩

/-- An error reply in its two forms. -/
example :
    let net : Network := ⟨[(.host "h" 1, { coming := [.accepted { octets := Bytes.ofText "-ERR no\r\n" }] })]⟩
    let c : Client := { topology := .single { endpoint := { host := "h", port := 1 } } }
    ((c.raising true).call "PING" [] net).result = .error (.server ⟨"ERR no"⟩) ∧
    ((c.raising false).call "PING" [] net).result = .ok (.error ⟨"ERR no"⟩) := by
  intro net c
  constructor <;> cbv

end Client

end RespClient
