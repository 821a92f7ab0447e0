/-
Whole sessions of one connection: any operations in any order, against any network. A session is told by the channels it
opened (`Transport`): which operation opened each, how its greeting went and which later calls were delivered on it.

- `Transport.Lawful`: what was written on the channel and how it was answered. The commands delivered are the first of those
  queued when it was opened and then the calls, and the j-th of them is answered by the j-th answer of its own script.
- `Books`: the network after the session is the one before it with the channels of the transports added.
- `session_law`: every session has lawful books, and a call that was delivered nowhere was answered by the error that
  prevented it (`Excuse`).

The invariant adds that the channel in use is the last one opened, in sync (`Live`). One operation extends the books in at
most two ways, by a new channel and by a call on the last one (`Books.opened`, `Books.rewritten`).
-/
import RespClient.Proofs.Exchange

namespace RespClient.Session

/-! ## Runs -/

inductive Op where
  | connect
  | disconnect
  | pushSetup (command : Command)
  | execute (command : Command)

namespace Op

/-- The command put into the setup queue. -/
def queued? : Op → Option Command
  | .pushSetup command => some command
  | _ => none

/-- The command to be executed. -/
def called? : Op → Option Command
  | .execute command => some command
  | _ => none

/-- Opens the connection if it is closed. -/
def opens : Op → Bool
  | .connect | .execute _ => true
  | _ => false

end Op

/-- What an operation answers: an error, or a reply if it was a call. -/
abbrev Answer := Except ClientError (Option Reply)

/-- A call is answered as its channel answers. -/
def Answer.ofChannel (e : Endpoint) : Except DecodeError Reply → Answer
  | .ok reply => .ok (some reply)
  | .error de => .error (.ofDecode e.identity de)

structure State where
  connection : Connection
  network : Network

def step (st : State) : Op → Answer × State
  | .connect =>
    let o := st.connection.connect st.network
    (o.result.map fun _ => none, ⟨o.state, o.network⟩)
  | .disconnect => (.ok none, { st with connection := st.connection.disconnect })
  | .pushSetup command => (.ok none, { st with connection := st.connection.pushSetup command })
  | .execute command =>
    let o := st.connection.execute command st.network
    (o.result.map some, ⟨o.state, o.network⟩)

/-- A session so far: the answers of its operations in order, and the state. -/
structure Run where
  answers : List Answer
  state : State

def Run.next (r : Run) (op : Op) : Run := ⟨r.answers ++ [(step r.state op).1], (step r.state op).2⟩

/-- The session of a new connection. -/
def run (e : Endpoint) (net : Network) (ops : List Op) : Run := ops.foldl Run.next ⟨[], ⟨{ endpoint := e }, net⟩⟩

theorem run_snoc (e : Endpoint) (net : Network) (ops : List Op) (op : Op) :
    run e net (ops ++ [op]) = (run e net ops).next op := by
  unfold run
  rw [List.foldl_append, List.foldl_cons, List.foldl_nil]

/-- The setup commands queued by operations, in order. -/
def queued (ops : List Op) : List Command := ops.filterMap Op.queued?

/-- The command of the operation `i`, if that is a call. -/
def called? (ops : List Op) (i : Nat) : Option Command := ops[i]?.bind Op.called?

theorem called?_append {ops : List Op} {i : Nat} (h : i < ops.length) (more : List Op) :
    called? (ops ++ more) i = called? ops i := by
  unfold called?
  rw [List.getElem?_append_left h]

theorem called?_last (ops : List Op) (op : Op) : called? (ops ++ [op]) ops.length = op.called? := by
  unfold called?
  rw [List.getElem?_concat_length, Option.bind_some]

/-! ## Transports -/

/-- A channel of a session. -/
structure Transport where
  /-- what the peer had in store for it -/
  script : Script
  /-- the channel as it stands in the end -/
  channel : Channel
  /-- the operation that opened it -/
  start : Nat
  /-- how many setup commands were delivered -/
  greeted : Nat
  /-- the error that ended the setup -/
  failure : Option ClientError
  /-- the calls delivered, in the order of delivery -/
  calls : List Nat

namespace Transport

/-- The setup commands queued when the channel was opened. -/
def queue (ops : List Op) (t : Transport) : List Command := queued (ops.take t.start)

/-- The commands delivered, in order. -/
def commands (ops : List Op) (t : Transport) : List Command :=
  (t.queue ops).take t.greeted ++ t.calls.filterMap (called? ops)

theorem commands_call {ops : List Op} {ch : Channel} {i : Nat} {command : Command} (t : Transport)
    (h : called? ops i = some command) :
    commands ops { t with channel := ch, calls := t.calls ++ [i] } = t.commands ops ++ [command] := by
  simp only [commands, queue, List.filterMap_append, List.append_assoc, List.filterMap_cons, h, List.filterMap_nil]

/-- What holds of a channel at any time of a session. -/
structure Lawful (e : Endpoint) (ops : List Op) (answers : List Answer) (t : Transport) : Prop where
  /-- the peer received whole frames of the commands, and nothing else -/
  received : t.channel.received.reverse = (t.commands ops).map Command.frame
  opened : ∃ op, ops[t.start]? = some op ∧ op.opens = true
  greeting : Greeting e t.script (t.queue ops) t.greeted t.failure
  /-- a failed greeting is reported, and no call follows -/
  failed : ∀ err, t.failure = some err → answers[t.start]? = some (.error err) ∧ t.calls = []
  calls : ∀ i ∈ t.calls, t.start ≤ i ∧ (called? ops i).isSome
  ordered : t.calls.Pairwise (· < ·)
  /-- the answers belong to the commands by position, setup commands counted -/
  answered : ∀ j i, t.calls[j]? = some i →
    ∃ a, t.script.answers[t.greeted + j]? = some a ∧ answers[i]? = some (Answer.ofChannel e a)
  /-- after an error nothing more is written -/
  silent : ∀ j de, t.script.answers[j]? = some (.error de) → (t.commands ops).length ≤ j + 1

namespace Lawful

variable {e : Endpoint} {ops : List Op} {answers : List Answer} {t : Transport}

theorem start_lt (h : t.Lawful e ops answers) : t.start < ops.length := by
  obtain ⟨op, hop, -⟩ := h.opened
  exact (List.getElem?_eq_some_iff.1 hop).1

theorem call_lt (h : t.Lawful e ops answers) {i : Nat} (hi : i ∈ t.calls) : i < ops.length := by
  obtain ⟨command, hc⟩ := Option.isSome_iff_exists.1 (h.calls i hi).2
  obtain ⟨op, hop, -⟩ := Option.bind_eq_some_iff.1 hc
  exact (List.getElem?_eq_some_iff.1 hop).1

theorem queue_append (h : t.Lawful e ops answers) (more : List Op) : t.queue (ops ++ more) = t.queue ops := by
  unfold queue
  rw [List.take_append_of_le_length (Nat.le_of_lt h.start_lt)]

theorem commands_append (h : t.Lawful e ops answers) (more : List Op) :
    t.commands (ops ++ more) = t.commands ops := by
  unfold commands
  rw [h.queue_append]
  congr 1
  exact List.filterMap_congr fun i hi => called?_append (h.call_lt hi) more

theorem length_commands (h : t.Lawful e ops answers) : (t.commands ops).length = t.greeted + t.calls.length := by
  have hcalls : (t.calls.filterMap (called? ops)).length = t.calls.length := by
    rw [List.filterMap_length_eq_length]
    intro i hi
    exact (h.calls i hi).2
  unfold commands
  rw [List.length_append, List.length_take, Nat.min_eq_left h.greeting.le_length, hcalls]

/-- One more operation does not change what holds of the channels opened before. -/
theorem issued (h : t.Lawful e ops answers) (hlen : answers.length = ops.length) (op : Op) (a : Answer) :
    t.Lawful e (ops ++ [op]) (answers ++ [a]) where
  received := by
    rw [h.commands_append]
    exact h.received
  opened := by
    rw [List.getElem?_append_left h.start_lt]
    exact h.opened
  greeting := by
    rw [h.queue_append]
    exact h.greeting
  failed err herr := by
    rw [List.getElem?_append_left (by rw [hlen]; exact h.start_lt)]
    exact h.failed err herr
  calls i hi := by
    rw [called?_append (h.call_lt hi)]
    exact h.calls i hi
  ordered := h.ordered
  answered j i hi := by
    rw [List.getElem?_append_left (by rw [hlen]; exact h.call_lt (List.mem_of_getElem? hi))]
    exact h.answered j i hi
  silent := by
    rw [h.commands_append]
    exact h.silent

/-- The channel after one more call: the frame was delivered and answered by the next answer. -/
theorem served (h : t.Lawful e ops answers) {command : Command} {i : Nat} {a : Except DecodeError Reply} {ch : Channel}
    (hop : called? ops i = some command) (hstart : t.start ≤ i) (hlast : ∀ j ∈ t.calls, j < i) (hfail : t.failure = none)
    (hch : ch.received.reverse = (t.commands ops).map Command.frame ++ [command.frame])
    (ha : t.script.answers[(t.commands ops).length]? = some a) (hi : answers[i]? = some (Answer.ofChannel e a)) :
    Lawful e ops answers { t with channel := ch, calls := t.calls ++ [i] } := by
  have hcommands : commands ops { t with channel := ch, calls := t.calls ++ [i] } = t.commands ops ++ [command] :=
    t.commands_call hop
  refine ⟨?_, h.opened, h.greeting, ?_, ?_, ?_, ?_, ?_⟩
  · rw [hcommands, List.map_append]
    exact hch
  · intro err herr
    simp only [hfail] at herr
    contradiction
  · intro j hj
    rcases List.mem_append.1 hj with hj | hj
    · exact h.calls j hj
    · obtain rfl := List.mem_singleton.1 hj
      exact ⟨hstart, by rw [hop]; rfl⟩
  · refine List.pairwise_append.2 ⟨h.ordered, List.pairwise_singleton _ _, ?_⟩
    intro j hj k hk
    obtain rfl := List.mem_singleton.1 hk
    exact hlast j hj
  · intro j k hk
    by_cases hj : j < t.calls.length
    · rw [List.getElem?_append_left hj] at hk
      exact h.answered j k hk
    · have hlen : j < (t.calls ++ [i]).length := (List.getElem?_eq_some_iff.1 hk).1
      rw [List.length_append, List.length_singleton] at hlen
      obtain rfl : j = t.calls.length := by omega
      rw [List.getElem?_concat_length] at hk
      obtain rfl := Option.some.inj hk
      rw [h.length_commands] at ha
      exact ⟨a, ha, hi⟩
  · intro j de hj
    rw [hcommands, List.length_append, List.length_singleton]
    exact Script.le_of_error (List.getElem?_eq_some_iff.1 ha).1 hj

end Lawful

/-- The channel that the operation in progress opened. -/
theorem lawful_of_greeted {e : Endpoint} {ops : List Op} {answers : List Answer} {s : Script} {ch : Channel} {k : Nat}
    {err : Option ClientError} {op : Op} {a : Answer} (hlen : answers.length = ops.length) (hop : op.opens = true)
    (hgreet : Greeting e s (queued ops) k err) (hgreeted : Greeted s (queued ops) k err ch)
    (ha : ∀ x, err = some x → a = .error x) :
    Lawful e (ops ++ [op]) (answers ++ [a]) ⟨s, ch, ops.length, k, err, []⟩ := by
  have hqueue : queue (ops ++ [op]) ⟨s, ch, ops.length, k, err, []⟩ = queued ops := by
    simp only [queue, List.take_left]
  have hcommands : commands (ops ++ [op]) ⟨s, ch, ops.length, k, err, []⟩ = (queued ops).take k := by
    simp only [commands, hqueue, List.filterMap_nil, List.append_nil]
  refine ⟨?_, ⟨op, List.getElem?_concat_length, hop⟩, ?_, ?_, nofun, .nil, nofun, ?_⟩
  · rw [hcommands]
    exact hgreeted.received
  · rw [hqueue]
    exact hgreet
  · intro x hx
    rw [← hlen, List.getElem?_concat_length, ha x hx]
    exact ⟨rfl, rfl⟩
  · intro j de hj
    rw [hcommands, List.length_take, Nat.min_eq_left hgreet.le_length]
    exact Script.le_of_error hgreet.le_answers hj

end Transport

/-! ## Books -/

/-- The transports of a session on the network `net`, which is now `net'`. -/
structure Books (e : Endpoint) (net : Network) (ops : List Op) (answers : List Answer) (ts : List Transport)
    (net' : Network) : Prop where
  counted : answers.length = ops.length
  /-- the transports are the channels opened, in order -/
  channels : net'.channelsAt e.address = net.channelsAt e.address ++ ts.map Transport.channel
  elsewhere : ∀ b, b ≠ e.address → net'.peer? b = net.peer? b
  /-- each transport brought what the peer had in store for it; the attempts between them were refused -/
  scripts : ∃ m, ts.map Transport.script = (List.range m).filterMap (net.script? e.address) ∧
    ∀ k, net'.script? e.address k = net.script? e.address (m + k)
  lawful : ∀ t ∈ ts, t.Lawful e ops answers
  /-- a transport is done with when the next one is opened -/
  sequential : ts.Pairwise fun t t' => ∀ i ∈ t.start :: t.calls, i < t'.start

namespace Books

variable {e : Endpoint} {net net₁ net₂ : Network} {ops : List Op} {answers : List Answer} {ts : List Transport}
  {t t' : Transport} {ch : Channel}

/-- An operation that opens no channel; it may have used up a refusal. -/
theorem issued (h : Books e net ops answers ts net₁) (op : Op) (a : Answer)
    (hnet : net₂ = net₁ ∨ net₁.script? e.address 0 = none ∧ net₁.Attempted net₂ e.address []) :
    Books e net (ops ++ [op]) (answers ++ [a]) ts net₂ where
  counted := by simp only [List.length_append, List.length_singleton, h.counted]
  channels := by
    rcases hnet with rfl | ⟨-, hatt⟩
    · exact h.channels
    · rw [hatt.channels, List.append_nil, h.channels]
  elsewhere b hb := by
    rcases hnet with rfl | ⟨-, hatt⟩
    · exact h.elsewhere b hb
    · exact (hatt.elsewhere b hb).trans (h.elsewhere b hb)
  scripts := by
    obtain ⟨m, hm, hshift⟩ := h.scripts
    rcases hnet with rfl | ⟨hnone, hatt⟩
    · exact ⟨m, hm, hshift⟩
    · rw [hshift, Nat.add_zero] at hnone
      refine ⟨m + 1, ?_, ?_⟩
      · rw [hm, List.range_succ, List.filterMap_append, List.filterMap_cons_none hnone, List.filterMap_nil,
          List.append_nil]
      · intro k
        rw [hatt.scripts, hshift, Nat.add_right_comm, Nat.add_assoc]
  lawful t ht := (h.lawful t ht).issued h.counted op a
  sequential := h.sequential

/-- An operation that opens a channel. -/
theorem opened (h : Books e net ops answers ts net₁) {op : Op} {a : Answer} {s : Script} {k : Nat}
    {err : Option ClientError} {inUse : Option ChannelId} (hop : op.opens = true)
    (ho : Opened e (queued ops) net₁ net₂ s ch k err inUse) (ha : ∀ x, err = some x → a = .error x) :
    Books e net (ops ++ [op]) (answers ++ [a]) (ts ++ [⟨s, ch, ops.length, k, err, []⟩]) net₂ where
  counted := by simp only [List.length_append, List.length_singleton, h.counted]
  channels := by
    rw [ho.attempted.channels, h.channels, List.map_append, List.append_assoc]
    rfl
  elsewhere b hb := (ho.attempted.elsewhere b hb).trans (h.elsewhere b hb)
  scripts := by
    obtain ⟨m, hm, hshift⟩ := h.scripts
    have hs := ho.script
    rw [hshift, Nat.add_zero] at hs
    refine ⟨m + 1, ?_, ?_⟩
    · rw [List.map_append, hm, List.range_succ, List.filterMap_append, List.filterMap_cons_some hs]
      rfl
    · intro k
      rw [ho.attempted.scripts, hshift, Nat.add_right_comm, Nat.add_assoc]
  lawful t ht := by
    rcases List.mem_append.1 ht with ht | ht
    · exact (h.lawful t ht).issued h.counted op a
    · obtain rfl := List.mem_singleton.1 ht
      exact Transport.lawful_of_greeted h.counted hop ho.greeting ho.greeted ha
  sequential := by
    refine List.pairwise_append.2 ⟨h.sequential, List.pairwise_singleton _ _, ?_⟩
    intro t ht u hu i hi
    obtain rfl := List.mem_singleton.1 hu
    rcases List.mem_cons.1 hi with rfl | hi
    · exact (h.lawful t ht).start_lt
    · exact (h.lawful t ht).call_lt hi

/-- The last channel was written to or read from. -/
theorem rewritten (h : Books e net ops answers (ts ++ [t]) net₁)
    (hnet : net₁.Rewritten net₂ ⟨e.address, (net.channelsAt e.address).length + ts.length⟩ t'.channel)
    (hscript : t'.script = t.script) (hstart : t'.start = t.start) (hlaw : t'.Lawful e ops answers) :
    Books e net ops answers (ts ++ [t']) net₂ where
  counted := h.counted
  channels := by
    have hset := hnet.channels
    simp only [h.channels] at hset
    rw [hset]
    simp
  elsewhere b hb := (hnet.elsewhere b hb).trans (h.elsewhere b hb)
  scripts := by
    obtain ⟨m, hm, hshift⟩ := h.scripts
    refine ⟨m, ?_, fun k => (hnet.scripts _ k).trans (hshift k)⟩
    rw [← hm, List.map_append, List.map_append, List.map_singleton, List.map_singleton, hscript]
  lawful u hu := by
    rcases List.mem_append.1 hu with hu | hu
    · exact h.lawful u (List.mem_append_left _ hu)
    · obtain rfl := List.mem_singleton.1 hu
      exact hlaw
  sequential := by
    obtain ⟨hts, -, hlast⟩ := List.pairwise_append.1 h.sequential
    refine List.pairwise_append.2 ⟨hts, List.pairwise_singleton _ _, ?_⟩
    intro u hu v hv
    obtain rfl := List.mem_singleton.1 hv
    rw [hstart]
    exact hlast u hu t (List.mem_singleton_self t)

end Books

/-! ## One operation -/

/-- Why a call was not delivered: the network as the call found it had no channel for it, or the channel it opened was not
greeted well, or the channel in use takes no more frames. -/
inductive Excuse (e : Endpoint) (net : Network) (ops : List Op) (ts : List Transport) (i : Nat) : ClientError → Prop where
  | opening (fault : Fault) : (run e net (ops.take i)).state.network.Refuses e fault →
      Excuse e net ops ts i (.communication e.identity (.opening fault))
  | greeting (t : Transport) (err : ClientError) : t ∈ ts → t.start = i → t.failure = some err →
      Excuse e net ops ts i err
  | writing (t : Transport) : t ∈ ts → t.script.writable = some (t.commands ops).length →
      Excuse e net ops ts i (.communication e.identity (.writing .brokenPipe))

/-- A call, unless delivered, is answered by the error that prevented it. -/
def Settled (e : Endpoint) (net : Network) (ops : List Op) (answers : List Answer) (ts : List Transport) (i : Nat) : Prop :=
  (called? ops i).isSome →
    i ∈ ts.flatMap Transport.calls ∨ ∃ err, answers[i]? = some (.error err) ∧ Excuse e net ops ts i err

/-- A channel in use: the last one opened, greeted well and in sync. -/
def Live (e : Endpoint) (net : Network) (ops : List Op) (ts : List Transport) (id : ChannelId) : Prop :=
  ∃ before t, ts = before ++ [t] ∧ id = ⟨e.address, (net.channelsAt e.address).length + before.length⟩ ∧
    t.failure = none ∧ InSync t.script ((t.commands ops).map Command.frame) t.channel

/-- What holds between the operations. -/
structure Inv (e : Endpoint) (net : Network) (ops : List Op) (r : Run) (ts : List Transport) : Prop where
  books : Books e net ops r.answers ts r.state.network
  settled : ∀ i, Settled e net ops r.answers ts i
  endpoint : r.state.connection.endpoint = e
  setup : r.state.connection.setup = queued ops
  live : ∀ id, r.state.connection.channel = some id → Live e net ops ts id

variable {e : Endpoint} {net : Network} {ops : List Op} {ts : List Transport}

/-- An excuse stays good when the session goes on. -/
theorem Excuse.append {i : Nat} {err : ClientError} {answers : List Answer} (hi : i < ops.length)
    (hlaw : ∀ t ∈ ts, t.Lawful e ops answers) (h : Excuse e net ops ts i err) (op : Op) (more : List Transport) :
    Excuse e net (ops ++ [op]) (ts ++ more) i err := by
  cases h with
  | opening fault hrefuses =>
    refine .opening fault ?_
    rw [List.take_append_of_le_length (Nat.le_of_lt hi)]
    exact hrefuses
  | greeting t err ht hi hfail => exact .greeting t err (List.mem_append_left _ ht) hi hfail
  | writing t ht hw =>
    refine .writing t (List.mem_append_left _ ht) ?_
    rw [(hlaw t ht).commands_append]
    exact hw

/-- It is never the channel that still takes frames. -/
theorem Excuse.replace {i : Nat} {err : ClientError} {t t' : Transport} (h : Excuse e net ops (ts ++ [t]) i err)
    (hfail : t.failure = none) (hroom : t.script.writable ≠ some (t.commands ops).length) :
    Excuse e net ops (ts ++ [t']) i err := by
  cases h with
  | opening fault hrefuses => exact .opening fault hrefuses
  | greeting u err hu hi hufail =>
    rcases List.mem_append.1 hu with hu | hu
    · exact .greeting u err (List.mem_append_left _ hu) hi hufail
    · obtain rfl := List.mem_singleton.1 hu
      rw [hfail] at hufail
      contradiction
  | writing u hu hw =>
    rcases List.mem_append.1 hu with hu | hu
    · exact .writing u (List.mem_append_left _ hu) hw
    · obtain rfl := List.mem_singleton.1 hu
      exact absurd hw hroom

/-- The calls before the operation in progress stay settled. -/
theorem Settled.append {answers : List Answer} {net' : Network} (h : ∀ i, Settled e net ops answers ts i)
    (hbooks : Books e net ops answers ts net') (op : Op) (a : Answer) (more : List Transport) {i : Nat}
    (hi : i ≠ ops.length) : Settled e net (ops ++ [op]) (answers ++ [a]) (ts ++ more) i := by
  intro hc
  by_cases hlt : i < ops.length
  · rw [called?_append hlt] at hc
    rw [List.flatMap_append, List.getElem?_append_left (hbooks.counted ▸ hlt)]
    rcases h i hc with hmem | ⟨err, hans, hexcuse⟩
    · exact .inl (List.mem_append_left _ hmem)
    · exact .inr ⟨err, hans, hexcuse.append hlt hbooks.lawful op more⟩
  · have hnone : (ops ++ [op])[i]? = none := by
      rw [List.getElem?_eq_none_iff, List.length_append, List.length_singleton]
      omega
    simp [called?, hnone] at hc

/-- The operation in progress is settled if it is no call, or excused. -/
theorem settled_last {answers : List Answer} (hlen : answers.length = ops.length) {op : Op} {a : Answer}
    (h : op.called? = none ∨ ∃ err, a = .error err ∧ Excuse e net (ops ++ [op]) ts ops.length err) :
    Settled e net (ops ++ [op]) (answers ++ [a]) ts ops.length := by
  intro hc
  rw [called?_last] at hc
  rcases h with h | ⟨err, rfl, hexcuse⟩
  · simp [h] at hc
  · exact .inr ⟨err, by rw [← hlen, List.getElem?_concat_length], hexcuse⟩

theorem queued_append_of_none {op : Op} (h : op.queued? = none) : queued (ops ++ [op]) = queued ops := by
  unfold queued
  rw [List.filterMap_append, List.filterMap_cons_none h, List.filterMap_nil, List.append_nil]

theorem Op.queued?_of_opens {op : Op} (h : op.opens = true) : op.queued? = none := by
  cases op with
  | pushSetup command => contradiction
  | _ => rfl

namespace Inv

variable {r : Run}

/-- An operation that opens no channel and delivers nothing. -/
theorem idle (h : Inv e net ops r ts) {op : Op} {a : Answer} {c : Connection} {net₂ : Network}
    (hnet : net₂ = r.state.network ∨
      r.state.network.script? e.address 0 = none ∧ r.state.network.Attempted net₂ e.address [])
    (hend : c.endpoint = e) (hset : c.setup = queued (ops ++ [op]))
    (hch : c.channel = r.state.connection.channel ∨ c.channel = none)
    (hlast : op.called? = none ∨ ∃ err, a = .error err ∧ Excuse e net (ops ++ [op]) ts ops.length err) :
    Inv e net (ops ++ [op]) ⟨r.answers ++ [a], ⟨c, net₂⟩⟩ ts where
  books := h.books.issued op a hnet
  settled i := by
    by_cases hi : i = ops.length
    · rw [hi]
      exact settled_last h.books.counted hlast
    · rw [← List.append_nil ts]
      exact .append h.settled h.books op a [] hi
  endpoint := hend
  setup := hset
  live id hid := by
    rcases hch with hch | hch
    · obtain ⟨before, t, rfl, hnum, hfail, hsync⟩ := h.live id (hch.symm.trans hid)
      refine ⟨before, t, rfl, hnum, hfail, ?_⟩
      rw [(h.books.lawful t (List.mem_append_right _ (List.mem_singleton_self t))).commands_append]
      exact hsync
    · rw [hch] at hid
      contradiction

/-- The call in progress, on the channel in use. -/
theorem exchanged {answers : List Answer} {command : Command} {c : Connection} {net₁ : Network} {t : Transport} {i : Nat}
    (hbooks : Books e net ops answers (ts ++ [t]) net₁) (hsettled : ∀ j ≠ i, Settled e net ops answers (ts ++ [t]) j)
    (hend : c.endpoint = e) (hset : c.setup = queued ops)
    (hid : c.channel = some ⟨e.address, (net.channelsAt e.address).length + ts.length⟩) (hfail : t.failure = none)
    (hsync : InSync t.script ((t.commands ops).map Command.frame) t.channel) (hcall : called? ops i = some command)
    (hstart : t.start ≤ i) (hcalls : ∀ j ∈ t.calls, j < i)
    (hi : answers[i]? = some ((c.exchange command net₁).result.map some)) :
    ∃ ts', Inv e net ops ⟨answers, ⟨(c.exchange command net₁).state, (c.exchange command net₁).network⟩⟩ ts' := by
  have hlaw : t.Lawful e ops answers := hbooks.lawful t (List.mem_append_right _ (List.mem_singleton_self t))
  have hch : net₁.channel? ⟨e.address, (net.channelsAt e.address).length + ts.length⟩ = some t.channel := by
    rw [Network.channel?_eq, hbooks.channels]
    simp
  obtain ⟨ch, hnet, hend', hset', hcases⟩ := Connection.exchange_cases command hid hch hsync
  rw [hend] at hcases hend'
  rw [List.length_map] at hcases
  -- a delivered call enters the books of the channel; its answer decides whether the channel stays in use
  have hserved : t.script.writable ≠ some (t.commands ops).length → ∀ a,
      t.script.answers[(t.commands ops).length]? = some a →
      ch.received.reverse = (t.commands ops).map Command.frame ++ [command.frame] →
      answers[i]? = some (Answer.ofChannel e a) →
      Books e net ops answers (ts ++ [{ t with channel := ch, calls := t.calls ++ [i] }])
        (c.exchange command net₁).network ∧
      ∀ j, Settled e net ops answers (ts ++ [{ t with channel := ch, calls := t.calls ++ [i] }]) j := by
    intro hroom a ha hrec hans
    refine ⟨hbooks.rewritten hnet rfl rfl (hlaw.served hcall hstart hcalls hfail hrec ha hans), ?_⟩
    intro j hj
    by_cases hji : j = i
    · exact .inl (by simp [hji])
    · rcases hsettled j hji hj with hmem | ⟨err, hj, hexcuse⟩
      · left
        simp only [List.flatMap_append, List.flatMap_singleton, List.mem_append] at hmem ⊢
        exact hmem.imp_right .inl
      · exact .inr ⟨err, hj, hexcuse.replace hfail hroom⟩
  rcases hcases with ⟨hfull, rfl, hnone, hres⟩ | ⟨hroom, ⟨reply, ha, hsync', hid', hres⟩ | ⟨de, ha, hrec, hnone, hres⟩⟩
  · rw [hres] at hi
    refine ⟨ts ++ [t], ⟨hbooks.rewritten hnet rfl rfl hlaw, ?_, hend', hset'.trans hset, ?_⟩⟩
    · intro j
      by_cases hji : j = i
      · rw [hji]
        exact fun _ => .inr ⟨_, hi, .writing t (List.mem_append_right _ (List.mem_singleton_self t)) hfull⟩
      · exact hsettled j hji
    · intro id hid'
      rw [hnone] at hid'
      contradiction
  · rw [hres] at hi
    obtain ⟨hbooks', hsettled'⟩ := hserved hroom (.ok reply) ha hsync'.received hi
    refine ⟨_, ⟨hbooks', hsettled', hend', hset'.trans hset, ?_⟩⟩
    intro id hidd
    obtain rfl := Option.some.inj (hid'.symm.trans hidd)
    refine ⟨ts, _, rfl, rfl, hfail, ?_⟩
    rw [t.commands_call hcall, List.map_append]
    exact hsync'
  · rw [hres] at hi
    obtain ⟨hbooks', hsettled'⟩ := hserved hroom (.error de) ha hrec hi
    refine ⟨_, ⟨hbooks', hsettled', hend', hset'.trans hset, ?_⟩⟩
    intro id hid'
    rw [hnone] at hid'
    contradiction

/-- An operation that opens a channel: after the greeting the channel is the one in use, if that went well. -/
theorem opened (h : Inv e net ops r ts) (op : Op) {a : Answer} {s : Script} {k : Nat} {err : Option ClientError}
    {c : Connection} {net₂ : Network} {ch : Channel} (hop : op.opens = true)
    (ho : Opened e (queued ops) r.state.network net₂ s ch k err c.channel) (ha : ∀ x, err = some x → a = .error x) :
    Books e net (ops ++ [op]) (r.answers ++ [a]) (ts ++ [⟨s, ch, ops.length, k, err, []⟩]) net₂ ∧
    (∀ i ≠ ops.length, Settled e net (ops ++ [op]) (r.answers ++ [a]) (ts ++ [⟨s, ch, ops.length, k, err, []⟩]) i) ∧
    ∀ id, c.channel = some id → id = ⟨e.address, (net.channelsAt e.address).length + ts.length⟩ ∧ err = none ∧
      InSync s ((Transport.commands (ops ++ [op]) ⟨s, ch, ops.length, k, err, []⟩).map Command.frame) ch := by
  refine ⟨h.books.opened hop ho ha, fun i hi => .append h.settled h.books op a _ hi, ?_⟩
  intro id hcid
  rw [ho.inUse] at hcid
  split_ifs at hcid with herr
  obtain rfl := Option.some.inj hcid
  subst herr
  refine ⟨by rw [h.books.channels, List.length_append, List.length_map], rfl, ?_⟩
  have hk : k = (queued ops).length := by
    cases ho.greeting
    rfl
  have hcommands : Transport.commands (ops ++ [op]) ⟨s, ch, ops.length, k, none, []⟩ = queued ops := by
    simp only [Transport.commands, Transport.queue, List.take_left, List.filterMap_nil, List.append_nil, hk,
      List.take_length]
  rw [hcommands]
  exact ho.greeted.sync rfl

/-- Such an operation, if nothing is left to do. -/
theorem settle (h : Inv e net ops r ts) (op : Op) {a : Answer} {s : Script} {k : Nat} {err : Option ClientError}
    {c : Connection} {net₂ : Network} {ch : Channel} (hop : op.opens = true)
    (ho : Opened e (queued ops) r.state.network net₂ s ch k err c.channel) (ha : ∀ x, err = some x → a = .error x)
    (hend : c.endpoint = e) (hset : c.setup = queued ops) (hlast : op.called? = none ∨ ∃ x, err = some x) :
    ∃ ts', Inv e net (ops ++ [op]) ⟨r.answers ++ [a], ⟨c, net₂⟩⟩ ts' := by
  obtain ⟨hbooks, hsettled, hlive⟩ := h.opened op hop ho ha
  refine ⟨_, hbooks, ?_, hend, ?_, ?_⟩
  · intro i
    by_cases hi : i = ops.length
    · rw [hi]
      refine settled_last h.books.counted (hlast.imp_right ?_)
      rintro ⟨x, rfl⟩
      exact ⟨x, ha x rfl, .greeting _ x (List.mem_append_right _ (List.mem_singleton_self _)) rfl rfl⟩
    · exact hsettled i hi
  · rw [queued_append_of_none (Op.queued?_of_opens hop)]
    exact hset
  · intro id hcid
    obtain ⟨hnum, herr, hsync⟩ := hlive id hcid
    exact ⟨ts, _, rfl, hnum, herr, hsync⟩

variable {answers : List Answer} {c : Connection} {net₁ : Network}

theorem connect (h : Inv e net ops ⟨answers, ⟨c, net₁⟩⟩ ts) :
    ∃ ts', Inv e net (ops ++ [.connect]) (Run.next ⟨answers, ⟨c, net₁⟩⟩ .connect) ts' := by
  obtain rfl : c.endpoint = e := h.endpoint
  have hset : c.setup = queued ops := h.setup
  have hset' : c.setup = queued (ops ++ [.connect]) := by rw [queued_append_of_none rfl, hset]
  cases hc : c.channel with
  | some id =>
    have hconn : c.connect net₁ = ⟨.error (.alreadyConnected c.identity), c, net₁⟩ := by
      simp [Connection.connect, Connection.isConnected, hc]
    simp only [Run.next, step, hconn]
    exact ⟨ts, h.idle (.inl rfl) rfl hset' (.inl rfl) (.inl rfl)⟩
  | none =>
    obtain ⟨hend, hsame, ⟨fault, -, -, hnone, hnet⟩ | ⟨s, ch, k, err, hres, ho⟩⟩ := c.connect_cases net₁ hc
    · exact ⟨ts, h.idle hnet hend (hsame.trans hset') (.inr hnone) (.inl rfl)⟩
    · rw [hset] at ho
      simp only [Run.next, step]
      refine h.settle .connect rfl ho ?_ hend (hsame.trans hset) (.inl rfl)
      rintro x rfl
      rw [hres]
      rfl

/-- A call on the channel in use. -/
theorem execute_open (h : Inv e net ops ⟨answers, ⟨c, net₁⟩⟩ ts) {id : ChannelId} (hc : c.channel = some id)
    (command : Command) :
    ∃ ts', Inv e net (ops ++ [.execute command]) (Run.next ⟨answers, ⟨c, net₁⟩⟩ (.execute command)) ts' := by
  obtain ⟨before, t, rfl, rfl, hfail, hsync⟩ := h.live id hc
  have hlaw : t.Lawful e ops answers := h.books.lawful t (List.mem_append_right _ (List.mem_singleton_self t))
  have hset : c.setup = queued (ops ++ [.execute command]) := by
    rw [queued_append_of_none rfl]
    exact h.setup
  have hopen : c.isConnected := by simp [Connection.isConnected, hc]
  obtain ⟨a, ha⟩ : ∃ a, a = (c.exchange command net₁).result.map some := ⟨_, rfl⟩
  have hi : (answers ++ [a])[ops.length]? = some a := by rw [← h.books.counted, List.getElem?_concat_length]
  simp only [Run.next, step, Connection.execute_eq_exchange hopen]
  rw [← ha]
  rw [← hlaw.commands_append [.execute command]] at hsync
  have hsettled : ∀ j ≠ ops.length, Settled e net (ops ++ [.execute command]) (answers ++ [a]) (before ++ [t]) j := by
    intro j hj
    have happ := Settled.append h.settled h.books (.execute command) a [] hj
    rwa [List.append_nil] at happ
  exact exchanged (h.books.issued (.execute command) a (.inl rfl)) hsettled h.endpoint hset hc hfail hsync
    (called?_last ops (.execute command)) (Nat.le_of_lt hlaw.start_lt) (fun j hj => hlaw.call_lt hj) (ha ▸ hi)

/-- A call that has to open a channel first. -/
theorem execute_closed (h : Inv e net ops ⟨answers, ⟨c, net₁⟩⟩ ts) (hnow : (run e net ops).state.network = net₁)
    (hc : c.channel = none) (command : Command) :
    ∃ ts', Inv e net (ops ++ [.execute command]) (Run.next ⟨answers, ⟨c, net₁⟩⟩ (.execute command)) ts' := by
  obtain rfl : c.endpoint = e := h.endpoint
  have hset : c.setup = queued ops := h.setup
  have hset' : c.setup = queued (ops ++ [.execute command]) := by rw [queued_append_of_none rfl, hset]
  obtain ⟨hend, hsame, ⟨fault, hrefuses, hres, hnone, hnet⟩ | ⟨s, ch, k, err, hres, ho⟩⟩ := c.connect_cases net₁ hc
  · have hexcuse : Excuse c.endpoint net (ops ++ [.execute command]) ts ops.length
        (.communication c.endpoint.identity (.opening fault)) := by
      refine .opening fault ?_
      rw [List.take_left, hnow]
      exact hrefuses
    simp only [Run.next, step, Connection.execute_of_connect_error hc hres command]
    exact ⟨ts, h.idle hnet hend (hsame.trans hset') (.inr hnone) (.inr ⟨_, rfl, hexcuse⟩)⟩
  · rw [hset] at ho
    cases err with
    | some err =>
      simp only [Run.next, step, Connection.execute_of_connect_error hc hres command]
      refine h.settle (.execute command) rfl ho ?_ hend (hsame.trans hset) (.inr ⟨err, rfl⟩)
      rintro x ⟨⟩
      rfl
    | none =>
      have hid := ho.inUse
      rw [if_pos rfl] at hid
      simp only [Run.next, step, Connection.execute_of_connect_ok hc hres hid command]
      obtain ⟨a, ha⟩ : ∃ a, a = ((c.connect net₁).state.exchange command (c.connect net₁).network).result.map some :=
        ⟨_, rfl⟩
      have hi : (answers ++ [a])[ops.length]? = some a := by rw [← h.books.counted, List.getElem?_concat_length]
      rw [← ha]
      obtain ⟨hbooks, hsettled, hlive⟩ := h.opened (.execute command) (a := a) rfl ho nofun
      obtain ⟨hnum, -, hsync⟩ := hlive _ hid
      rw [hnum] at hid
      exact exchanged hbooks hsettled hend (hsame.trans hset') hid rfl hsync (called?_last ops (.execute command))
        (Nat.le_refl _) nofun (ha ▸ hi)

/-- **What one operation preserves.** -/
theorem next (h : Inv e net ops r ts) (hnow : (run e net ops).state.network = r.state.network) (op : Op) :
    ∃ ts', Inv e net (ops ++ [op]) (r.next op) ts' := by
  obtain ⟨answers, ⟨c, net₁⟩⟩ := r
  have hset : c.setup = queued ops := h.setup
  cases op with
  | connect => exact h.connect
  | disconnect =>
    refine ⟨ts, h.idle (.inl rfl) h.endpoint ?_ (.inr rfl) (.inl rfl)⟩
    rw [queued_append_of_none rfl]
    exact hset
  | pushSetup command =>
    refine ⟨ts, h.idle (.inl rfl) h.endpoint ?_ (.inl rfl) (.inl rfl)⟩
    show c.setup ++ [command] = _
    simp [hset, queued, Op.queued?]
  | execute command =>
    cases hc : c.channel with
    | some id => exact h.execute_open hc command
    | none => exact h.execute_closed hnow hc command

end Inv

/-! ## The session law -/

/-- What holds of every session. -/
structure Law (e : Endpoint) (net : Network) (ops : List Op) (r : Run) (ts : List Transport) : Prop where
  books : Books e net ops r.answers ts r.state.network
  /-- each call is delivered, or answered by the error that prevented it -/
  settled : ∀ i, Settled e net ops r.answers ts i

/-- Before the first operation the books are empty. -/
theorem inv_nil (e : Endpoint) (net : Network) : Inv e net [] ⟨[], ⟨{ endpoint := e }, net⟩⟩ [] where
  books :=
    { counted := rfl
      channels := by rw [List.map_nil, List.append_nil]
      elsewhere := fun _ _ => rfl
      scripts := ⟨0, rfl, fun k => by rw [Nat.zero_add]⟩
      lawful := List.forall_mem_nil _
      sequential := .nil }
  settled i hi := by simp [called?] at hi
  endpoint := rfl
  setup := rfl
  live := nofun

theorem inv_run (e : Endpoint) (net : Network) (ops : List Op) : ∃ ts, Inv e net ops (run e net ops) ts := by
  induction ops using List.reverseRecOn with
  | nil => exact ⟨[], inv_nil e net⟩
  | append_singleton ops op ih =>
    obtain ⟨ts, h⟩ := ih
    rw [run_snoc]
    exact h.next rfl op

/-- **The session law.** Whatever operations a new connection runs, on whatever network, the channels it opens are lawful:
whole frames of the setup commands and then of the calls, in order, each delivered once and answered by the channel's own
answer at its place. -/
theorem session_law (e : Endpoint) (net : Network) (ops : List Op) : ∃ ts, Law e net ops (run e net ops) ts := by
  obtain ⟨ts, h⟩ := inv_run e net ops
  exact ⟨ts, h.books, h.settled⟩

end RespClient.Session
