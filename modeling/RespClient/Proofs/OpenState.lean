/-
Whether a connection is open after an operation: it is if and only if the operation succeeded. That holds whatever state
the connection was in, whatever commands it runs after opening and whatever the network does.

- `Failure`: the errors an operation can end with, by what the connection was doing.
- `Ends`: open exactly after a success, and else with a failure of its own. Operations in sequence end so if each does.
- `state_law`: writing, reading and executing end so, and connecting unless the connection is open already, which changes
  nothing. Every reply read is the result of the call and leaves the channel in use, an error reply like any other.
-/
import RespClient.Proofs.Exchange

namespace RespClient.Connection

/-- The errors of a connection with the given identity. -/
inductive Failure (identity : String) : ClientError → Prop where
  | opening (fault : Fault) : Failure identity (.communication identity (.opening fault))
  | writing (fault : Fault) : Failure identity (.communication identity (.writing fault))
  | reading (e : DecodeError) : Failure identity (.ofDecode identity e)
  /-- a setup command was answered by an error -/
  | refused (reply : ErrorReply) : Failure identity (.server reply)

/-- The connection is open if and only if the operation succeeded; if not, it failed in one of its own ways. -/
structure Ends {α : Type} (c : Connection) (o : Outcome Connection α) : Prop where
  isOpen : o.state.isConnected = o.result.isOk
  failure : ∀ e, o.result = .error e → Failure c.identity e
  endpoint : o.state.endpoint = c.endpoint

variable {α β : Type} {c : Connection} {net : Network}

/-- A connection is never found closed where it has just been opened. -/
theorem not_failure_notOpen (identity other : String) : ¬ Failure identity (.communication other .notOpen) := by
  intro h
  generalize he : ClientError.communication other .notOpen = e at h
  cases h with
  | reading de => cases de <;> cases he
  | _ => cases he

namespace Ends

theorem ok {o : Outcome Connection α} {a : α} (h : o.result = .ok a) (hopen : o.state.isConnected = true)
    (hend : o.state.endpoint = c.endpoint) : Ends c o where
  isOpen := by
    rw [hopen, h]
    rfl
  failure e he := by
    rw [h] at he
    contradiction
  endpoint := hend

theorem error {o : Outcome Connection α} {e : ClientError} (h : o.result = .error e) (hf : Failure c.identity e)
    (hclosed : o.state.isConnected = false) (hend : o.state.endpoint = c.endpoint) : Ends c o where
  isOpen := by
    rw [hclosed, h]
    rfl
  failure e' he' := by
    rw [h] at he'
    cases he'
    exact hf
  endpoint := hend

theorem isConnected_of_ok {o : Outcome Connection α} {a : α} (h : Ends c o) (hok : o.result = .ok a) :
    o.state.isConnected = true := by
  rw [h.isOpen, hok]
  rfl

/-- A step after a success finds the connection open. -/
theorem andThen {o : Outcome Connection α} {next : α → Connection → Network → Outcome Connection β} (h : Ends c o)
    (hnext : ∀ a, o.state.isConnected = true → Ends o.state (next a o.state o.network)) : Ends c (o.andThen next) := by
  unfold Outcome.andThen
  cases hr : o.result with
  | error e =>
    refine .error rfl (h.failure e hr) ?_ h.endpoint
    rw [h.isOpen, hr]
    rfl
  | ok a =>
    have hlater := hnext a (h.isConnected_of_ok hr)
    have hid : o.state.identity = c.identity := congrArg Endpoint.identity h.endpoint
    exact ⟨hlater.isOpen, fun e he => hid ▸ hlater.failure e he, hlater.endpoint.trans h.endpoint⟩

end Ends

/-! ## On an open connection -/

theorem writeOpen_ends (command : Command) (hc : c.isConnected = true) (net : Network) :
    Ends c (c.writeOpen command net) := by
  obtain ⟨id, hid⟩ := Option.isSome_iff_exists.1 hc
  unfold writeOpen
  simp only [prepare_channel, hid]
  cases (net.deliver id (c.prepare command).buffer.toList).1 with
  | ok _ => exact .ok rfl hc rfl
  | error fault => exact .error rfl (.writing fault) rfl rfl

theorem readOpen_ends (hc : c.isConnected = true) (net : Network) : Ends c (c.readOpen net) := by
  obtain ⟨id, hid⟩ := Option.isSome_iff_exists.1 hc
  unfold readOpen
  simp only [hid]
  cases (net.receive id).1 with
  | ok reply => exact .ok rfl hc rfl
  | error e => exact .error rfl (.reading e) rfl rfl

theorem exchange_ends (command : Command) (hc : c.isConnected = true) (net : Network) :
    Ends c (c.exchange command net) :=
  (writeOpen_ends command hc net).andThen fun _ hopen => readOpen_ends hopen _

/-! ## Setup

A setup command that is answered by an error leaves the channel open; only `connect` drops it. So running the setup
commands ends open after a success, and its errors are failures, but it need not end closed. -/

theorem runSetup_open (commands : List Command) (hc : c.isConnected = true) (net : Network) :
    (runSetup commands c net).state.endpoint = c.endpoint ∧
    (∀ e, (runSetup commands c net).result = .error e → Failure c.identity e) ∧
    ((runSetup commands c net).result = .ok () → (runSetup commands c net).state.isConnected = true) := by
  induction commands generalizing c net with
  | nil => exact ⟨rfl, nofun, fun _ => hc⟩
  | cons command commands ih =>
    have hfirst := exchange_ends command hc net
    cases hr : (c.exchange command net).result with
    | error e =>
      rw [runSetup_of_failed hr]
      exact ⟨hfirst.endpoint, fun e' he' => (Except.error.inj he') ▸ hfirst.failure e hr, nofun⟩
    | ok reply =>
      by_cases hreply : reply.isError = true
      · obtain ⟨er, rfl⟩ : ∃ er, reply = .error er := by
          cases reply with
          | error er => exact ⟨er, rfl⟩
          | _ => contradiction
        rw [runSetup_of_refused hr]
        exact ⟨hfirst.endpoint, fun e' he' => (Except.error.inj he') ▸ .refused er, nofun⟩
      · rw [runSetup_of_accepted hr (by simpa using hreply)]
        obtain ⟨hend, hfail, hopen⟩ := ih (hfirst.isConnected_of_ok hr) (c.exchange command net).network
        have hid : (c.exchange command net).state.identity = c.identity := congrArg Endpoint.identity hfirst.endpoint
        exact ⟨hend.trans hfirst.endpoint, fun e he => hid ▸ hfail e he, hopen⟩

/-! ## Opening -/

theorem connect_of_connected (hc : c.isConnected = true) (net : Network) :
    c.connect net = ⟨.error (.alreadyConnected c.identity), c, net⟩ := if_pos hc

theorem connect_ends (hc : c.isConnected = false) (net : Network) : Ends c (c.connect net) := by
  unfold connect
  rw [if_neg (by simp [hc])]
  rcases c.dial net with ⟨fault | id, net₁⟩
  · exact .error rfl (.opening fault) hc rfl
  · obtain ⟨hend, hfail, hopen⟩ := runSetup_open c.setup (c := { c with channel := some id }) rfl net₁
    simp only
    cases hr : (runSetup c.setup { c with channel := some id } net₁).result with
    | ok _ => exact .ok hr (hopen hr) hend
    | error e => exact .error hr (hfail e hr) rfl hend

theorem ensure_ends (c : Connection) (net : Network) : Ends c (c.ensure net) := by
  unfold ensure
  cases hc : c.isConnected with
  | true => exact .ok rfl hc rfl
  | false => exact connect_ends hc net

/-! ## Operations -/

theorem write_ends (command : Command) (c : Connection) (net : Network) : Ends c (c.write command net) :=
  (c.ensure_ends net).andThen fun _ hopen => writeOpen_ends command hopen _

theorem read_ends (c : Connection) (net : Network) : Ends c (c.read net) :=
  (c.ensure_ends net).andThen fun _ hopen => readOpen_ends hopen _

theorem execute_ends (command : Command) (c : Connection) (net : Network) : Ends c (c.execute command net) :=
  (c.write_ends command net).andThen fun _ _ => read_ends _ _

/-- A reply that can be read on the channel in use is the result of reading, and the channel stays in use. -/
theorem read_of_receive {id : ChannelId} {reply : Reply} {net' : Network} (hid : c.channel = some id)
    (h : net.receive id = (.ok reply, net')) : c.read net = ⟨.ok reply, c, net'⟩ := by
  have hopen : c.isConnected = true := by simp [isConnected, hid]
  simp only [read, ensure, hopen, ↓reduceIte, Outcome.andThen, readOpen, hid, h]

theorem execute_of_receive {command : Command} {id : ChannelId} {reply : Reply} {net' : Network}
    (hw : (c.write command net).result = .ok ()) (hid : (c.write command net).state.channel = some id)
    (h : (c.write command net).network.receive id = (.ok reply, net')) :
    c.execute command net = ⟨.ok reply, (c.write command net).state, net'⟩ := by
  simp only [execute, Outcome.andThen, hw]
  exact read_of_receive hid h

/-- What holds of a connection in any state, on any network. -/
structure StateLaw (c : Connection) (net : Network) : Prop where
  write : ∀ command, Ends c (c.write command net)
  read : Ends c (c.read net)
  execute : ∀ command, Ends c (c.execute command net)
  connect : c.isConnected = false → Ends c (c.connect net)
  connected : c.isConnected = true → c.connect net = ⟨.error (.alreadyConnected c.identity), c, net⟩
  /-- being closed is no failure: a connection that is needed is opened -/
  notOpen : ∀ identity, ¬ Failure c.identity (.communication identity .notOpen)
  /-- once a command is written, the next reply is its result, be it an error reply, and the channel is kept -/
  answered : ∀ command id reply net', (c.write command net).result = .ok () →
    (c.write command net).state.channel = some id → (c.write command net).network.receive id = (.ok reply, net') →
    c.execute command net = ⟨.ok reply, (c.write command net).state, net'⟩

/-- **The state follows the result.** After writing, reading and executing, and after connecting a closed connection, it is
open if and only if the operation succeeded; connecting an open one is refused and changes nothing. -/
theorem state_law (c : Connection) (net : Network) : StateLaw c net where
  write command := c.write_ends command net
  read := c.read_ends net
  execute command := c.execute_ends command net
  connect hc := connect_ends hc net
  connected hc := connect_of_connected hc net
  notOpen := not_failure_notOpen c.identity
  answered _ _ _ _ hw hid h := execute_of_receive hw hid h

/-- An error reply is a result, and the connection is still open. -/
example :
    let net : Network := ⟨[(.host "h" 1, { coming := [.accepted { octets := Bytes.ofText "-ERR no\r\n" }] })]⟩
    let c : Connection := { endpoint := { host := "h", port := 1 } }
    let o := c.execute { spec := .named "get" .first .read, arguments := [[107]] } net
    o.result.toOption.map Reply.isError = some true ∧ o.state.isConnected = true := by
  cbv

end RespClient.Connection
