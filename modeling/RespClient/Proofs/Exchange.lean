/-
One connection on its own channel: what an exchange, the setup commands and the opening of a channel do, in terms of what
the peer had in store for that channel (`Script`). A channel is `InSync` while every command delivered on it has got its
reply; then the next reply to be read answers the next command to be delivered.

- `exchange_cases`: a command is refused by the transport, or delivered and answered by the next answer of the script.
- `Greeting`: how the setup of a channel goes, with the number of commands delivered and the error that ends it.
- `runSetup_greets`: setup commands are run as `Greeting` says. The induction is on the commands still to be run.
- `Network.Refuses`: why no channel can be opened to a server.
- `connect_cases`: opening changes nothing, uses up one refusal, or adds one channel and greets it.
-/
import RespClient.Proofs.Channels
import RespClient.Proofs.RequestRoundTrip
import RespClient.Connection

namespace RespClient

/-- Where the server listens. -/
def Endpoint.address (e : Endpoint) : Address :=
  match e.scheme with
  | .tcp => .host e.host e.port
  | .unix => .socket (.ofText (e.path.getD ""))

/-- Why no channel can be opened to a server: its host or its path cannot even be tried, there is no time to wait for it,
nobody is at its address, or the peer there refuses the next attempt. -/
inductive Network.Refuses (net : Network) (e : Endpoint) : Fault → Prop where
  | nulInHost : e.scheme = .tcp → '\x00' ∈ e.host.toList → net.Refuses e .nulInHost
  | nulInPath : e.scheme = .unix → '\x00' ∈ (e.path.getD "").toList → net.Refuses e .nulInPath
  | longPath : e.scheme = .unix → 108 ≤ (e.path.getD "").utf8ByteSize → net.Refuses e .longPath
  | timeout : e.scheme = .tcp → e.timeout = some ⟨0⟩ → net.isReachable e.address = true → net.Refuses e .zeroTimeout
  | nobody : net.peer? e.address = none → net.Refuses e (net.nobody e.address)
  | refused (fault : Fault) : net.opening? e.address = some (.refused fault) → net.Refuses e fault

namespace Script

/-- The answers to the commands delivered on the channel, in order: replies and then an error. -/
def answers (s : Script) : List (Except DecodeError Reply) := (Channel.ofScript s).answers

/-- The answer `j` is a reply and no error reply. -/
def Accepts (s : Script) (j : Nat) : Prop := ∃ r, s.answers[j]? = some (.ok r) ∧ r.isError = false

/-- After an error there are no answers. -/
theorem le_of_error {s : Script} {n j : Nat} {e : DecodeError} (hn : n ≤ s.answers.length)
    (h : s.answers[j]? = some (.error e)) : n ≤ j + 1 := by
  rw [← Channel.length_of_error h]
  exact hn

end Script

/-! ## In sync -/

/-- The channel of a script after the frames given were delivered and each of them answered by a reply. -/
structure InSync (s : Script) (frames : List Bytes) (ch : Channel) : Prop where
  received : ch.received.reverse = frames
  writable : ch.writable = s.writable.map (· - frames.length)
  room : ∀ n, s.writable = some n → frames.length ≤ n
  answers : ch.answers = s.answers.drop frames.length
  pending : frames.length < s.answers.length

theorem inSync_ofScript (s : Script) : InSync s [] (.ofScript s) where
  received := rfl
  writable := by simp [Channel.ofScript]
  room _ _ := Nat.zero_le _
  answers := rfl
  pending := List.length_pos_iff.2 (Channel.answers_ne_nil _)

namespace Channel

/-- Writing fails when the peer takes no more frames, and else adds the frame. -/
theorem deliver_cases (ch : Channel) (frame : Bytes) :
    (ch.writable = some 0 ∧ ch.deliver frame = (.error .brokenPipe, ch)) ∨
    (ch.writable ≠ some 0 ∧ ch.deliver frame =
      (.ok (), { ch with received := frame :: ch.received, writable := ch.writable.map (· - 1) })) := by
  obtain ⟨unread, ending, writable, received⟩ := ch
  rcases writable with _ | _ | n
  · exact .inr ⟨nofun, rfl⟩
  · exact .inl ⟨rfl, rfl⟩
  · exact .inr ⟨nofun, rfl⟩

end Channel

namespace Connection

/-! ## One exchange -/

@[simp]
theorem prepare_channel (command : Command) (c : Connection) : (c.prepare command).channel = c.channel := rfl

/-- The buffer holds the frame and nothing else, whatever it held before. -/
@[simp]
theorem prepare_buffer (command : Command) (c : Connection) : (c.prepare command).buffer.toList = command.frame := by
  simp only [prepare, Wire.toList_appendRequest, Command.frame]
  simp

variable {c : Connection} {net : Network} {id : ChannelId} {ch : Channel}

/-- What a write to an open channel can do. -/
theorem writeOpen_cases (command : Command) (hid : c.channel = some id) (hch : net.channel? id = some ch) :
    (∃ net', ch.writable = some 0 ∧ Network.Rewritten net net' id ch ∧ c.writeOpen command net =
      ⟨.error (c.fault (.writing .brokenPipe)), (c.prepare command).disconnect, net'⟩) ∨
    (∃ net', ch.writable ≠ some 0 ∧ Network.Rewritten net net' id
        { ch with received := command.frame :: ch.received, writable := ch.writable.map (· - 1) } ∧
      c.writeOpen command net = ⟨.ok (), c.prepare command, net'⟩) := by
  unfold writeOpen
  simp only [prepare_channel, hid, prepare_buffer, Network.deliver_eq hch]
  rcases ch.deliver_cases command.frame with ⟨hw, hd⟩ | ⟨hw, hd⟩
  · rw [hd]
    exact .inl ⟨_, hw, Network.rewritten_setChannel net id _, rfl⟩
  · rw [hd]
    exact .inr ⟨_, hw, Network.rewritten_setChannel net id _, rfl⟩

/-- What a read from an open channel can do. -/
theorem readOpen_cases (hid : c.channel = some id) (hch : net.channel? id = some ch) :
    ∃ net' rest, Network.Rewritten net net' id { ch with unread := rest } ∧
      ((∃ r, c.readOpen net = ⟨.ok r, c, net'⟩ ∧ ch.answers = .ok r :: Channel.answers { ch with unread := rest }) ∨
       ∃ e, c.readOpen net = ⟨.error (.ofDecode c.identity e), c.disconnect, net'⟩ ∧ ch.answers = [.error e]) := by
  unfold readOpen
  simp only [hid, Network.receive_eq hch]
  rcases ch.receive_cases with ⟨r, rest, hr, ha⟩ | ⟨e, rest, hr, ha⟩
  · rw [hr]
    exact ⟨_, rest, Network.rewritten_setChannel net id _, .inl ⟨r, rfl, ha⟩⟩
  · rw [hr]
    exact ⟨_, rest, Network.rewritten_setChannel net id _, .inr ⟨e, rfl, ha⟩⟩

/-- **One exchange.** The transport refuses the frame; or the frame is delivered and answered by the next answer of the
script, a reply that leaves the channel in sync or an error. Only after a reply is the channel kept. -/
theorem exchange_cases {s : Script} {frames : List Bytes} (command : Command) (hid : c.channel = some id)
    (hch : net.channel? id = some ch) (hsync : InSync s frames ch) :
    ∃ ch', Network.Rewritten net (c.exchange command net).network id ch' ∧
      (c.exchange command net).state.endpoint = c.endpoint ∧ (c.exchange command net).state.setup = c.setup ∧
      ((s.writable = some frames.length ∧ ch' = ch ∧ (c.exchange command net).state.channel = none ∧
          (c.exchange command net).result = .error (.communication c.endpoint.identity (.writing .brokenPipe))) ∨
       s.writable ≠ some frames.length ∧
        ((∃ r, s.answers[frames.length]? = some (.ok r) ∧ InSync s (frames ++ [command.frame]) ch' ∧
            (c.exchange command net).state.channel = some id ∧ (c.exchange command net).result = .ok r) ∨
         ∃ e, s.answers[frames.length]? = some (.error e) ∧ ch'.received.reverse = frames ++ [command.frame] ∧
            (c.exchange command net).state.channel = none ∧
            (c.exchange command net).result = .error (.ofDecode c.endpoint.identity e))) := by
  unfold exchange
  rcases writeOpen_cases command hid hch with ⟨net₁, hw, hnet₁, hwrite⟩ | ⟨net₁, hw, hnet₁, hwrite⟩
  · have hs : s.writable = some frames.length := by
      have hmap := hsync.writable.symm.trans hw
      obtain ⟨n, hn, hsub⟩ := Option.map_eq_some_iff.1 hmap
      have hle := hsync.room n hn
      rw [hn]
      congr 1
      omega
    rw [hwrite]
    exact ⟨ch, hnet₁, rfl, rfl, .inl ⟨hs, rfl, rfl, rfl⟩⟩
  · obtain ⟨ch₁, hch₁⟩ : ∃ ch₁ : Channel,
        ch₁ = { ch with received := command.frame :: ch.received, writable := ch.writable.map (· - 1) } := ⟨_, rfl⟩
    have hanswers : ch₁.answers = s.answers.drop frames.length := by
      rw [← hsync.answers, hch₁]
      rfl
    have hfirst : s.answers[frames.length]? = ch₁.answers.head? := by
      rw [hanswers, List.head?_drop]
    have hreceived : ch₁.received.reverse = frames ++ [command.frame] := by
      rw [hch₁, List.reverse_cons, hsync.received]
    have hroom : s.writable ≠ some frames.length := by
      intro hs
      apply hw
      rw [hsync.writable, hs, Option.map_some, Nat.sub_self]
    rw [← hch₁] at hnet₁
    rw [hwrite]
    simp only [Outcome.andThen]
    have hid₁ : (c.prepare command).channel = some id := hid
    obtain ⟨net₂, rest, hnet₂, hread⟩ := readOpen_cases hid₁ (hnet₁.channel? hch)
    rcases hread with ⟨r, hr, ha⟩ | ⟨e, hr, ha⟩
    · rw [hr]
      rw [ha, List.head?_cons] at hfirst
      refine ⟨_, hnet₁.trans hnet₂, rfl, rfl, .inr ⟨hroom, .inl ⟨r, hfirst, ?_, hid, rfl⟩⟩⟩
      refine ⟨hreceived, ?_, ?_, ?_, ?_⟩
      · show ch₁.writable = _
        rw [hch₁]
        simp only [hsync.writable, Option.map_map, List.length_append, List.length_singleton]
        rfl
      · intro n hn
        have hle := hsync.room n hn
        have hne : n - frames.length ≠ 0 := by
          intro h0
          apply hw
          rw [hsync.writable, hn, Option.map_some, h0]
        simp only [List.length_append, List.length_singleton]
        omega
      · rw [hanswers] at ha
        rw [List.length_append, List.length_singleton, ← List.drop_drop, ha]
        rfl
      · rw [List.length_append, List.length_singleton]
        exact Channel.lt_length_of_ok hfirst
    · rw [hr]
      rw [ha, List.head?_cons] at hfirst
      exact ⟨_, hnet₁.trans hnet₂, rfl, rfl, .inr ⟨hroom, .inr ⟨e, hfirst, hreceived, rfl, rfl⟩⟩⟩

theorem isConnected_of_writeOpen {command : Command} (h : (c.writeOpen command net).result = .ok ()) :
    (c.writeOpen command net).state.isConnected := by
  unfold writeOpen at h ⊢
  cases hid : c.channel with
  | none => simp [hid] at h
  | some id =>
    simp only [prepare_channel, hid] at h ⊢
    revert h
    cases (net.deliver id (c.prepare command).buffer.toList).1 with
    | error fault => exact nofun
    | ok _ =>
      intro _
      simp [isConnected, hid]

/-- On an open connection, executing a command is one exchange. -/
theorem execute_eq_exchange (h : c.isConnected) (command : Command) (net : Network) :
    c.execute command net = c.exchange command net := by
  have hwrite : c.write command net = c.writeOpen command net := by
    simp only [write, ensure, h, ↓reduceIte, Outcome.andThen]
  unfold execute exchange
  rw [hwrite]
  unfold Outcome.andThen
  cases hr : (c.writeOpen command net).result with
  | error e => rfl
  | ok _ => simp only [read, ensure, isConnected_of_writeOpen hr, ↓reduceIte, Outcome.andThen]

/-! ## Setup -/

end Connection

/-- How the setup of a channel goes: how many of the commands queued are delivered, and the error that ends it, if any.
Every command before the last one delivered was accepted. -/
inductive Greeting (e : Endpoint) (s : Script) (queue : List Command) : Nat → Option ClientError → Prop where
  /-- the channel cannot be used: its timeout is zero -/
  | timeout : e.readWriteTimeout = some ⟨0⟩ →
      Greeting e s queue 0 (some (.communication e.identity (.opening .zeroTimeout)))
  | unwritten (k : Nat) : k < queue.length → (∀ j < k, s.Accepts j) → s.writable = some k →
      Greeting e s queue k (some (.communication e.identity (.writing .brokenPipe)))
  | refused (k : Nat) (reply : ErrorReply) : k < queue.length → (∀ j < k, s.Accepts j) →
      s.answers[k]? = some (.ok (.error reply)) → Greeting e s queue (k + 1) (some (.server reply))
  | unreadable (k : Nat) (de : DecodeError) : k < queue.length → (∀ j < k, s.Accepts j) →
      s.answers[k]? = some (.error de) → Greeting e s queue (k + 1) (some (.ofDecode e.identity de))
  | welcome : (∀ j < queue.length, s.Accepts j) → Greeting e s queue queue.length none

theorem Greeting.le_length {e : Endpoint} {s : Script} {queue : List Command} {k : Nat} {err : Option ClientError}
    (h : Greeting e s queue k err) : k ≤ queue.length := by
  cases h <;> omega

/-- Every command delivered has an answer in store. -/
theorem Greeting.le_answers {e : Endpoint} {s : Script} {queue : List Command} {k : Nat} {err : Option ClientError}
    (h : Greeting e s queue k err) : k ≤ s.answers.length := by
  have hlt : ∀ n, (∀ j < n, s.Accepts j) → n ≤ s.answers.length := by
    intro n hn
    cases n with
    | zero => exact Nat.zero_le _
    | succ n =>
      obtain ⟨r, hr, -⟩ := hn n (Nat.lt_succ_self n)
      exact (List.getElem?_eq_some_iff.1 hr).1
  cases h with
  | timeout => exact Nat.zero_le _
  | unwritten k _ hacc => exact hlt k hacc
  | refused k _ _ _ hr => exact (List.getElem?_eq_some_iff.1 hr).1
  | unreadable k _ _ _ he => exact (List.getElem?_eq_some_iff.1 he).1
  | welcome hacc => exact hlt _ hacc

/-- The result of a greeting. -/
def Greeting.result : Option ClientError → Except ClientError Unit
  | none => .ok ()
  | some err => .error err

/-- A channel after a greeting: whole frames of the first commands queued, in sync if nothing went wrong. -/
structure Greeted (s : Script) (queue : List Command) (k : Nat) (err : Option ClientError) (ch : Channel) : Prop where
  received : ch.received.reverse = (queue.take k).map Command.frame
  sync : err = none → InSync s (queue.map Command.frame) ch

/-- The channel `ch` was opened on the network `net` and greeted; it is in use iff that went well. -/
structure Opened (e : Endpoint) (queue : List Command) (net net' : Network) (s : Script) (ch : Channel) (k : Nat)
    (err : Option ClientError) (inUse : Option ChannelId) : Prop where
  script : net.script? e.address 0 = some s
  attempted : net.Attempted net' e.address [ch]
  greeting : Greeting e s queue k err
  greeted : Greeted s queue k err ch
  inUse : inUse = if err = none then some ⟨e.address, (net.channelsAt e.address).length⟩ else none

namespace Connection

variable {c : Connection} {net : Network} {id : ChannelId} {ch : Channel}

theorem runSetup_of_failed {command : Command} {e : ClientError} (h : (c.exchange command net).result = .error e)
    (commands : List Command) : runSetup (command :: commands) c net =
      ⟨.error e, (c.exchange command net).state, (c.exchange command net).network⟩ := by
  simp only [runSetup, Outcome.andThen, h]

theorem runSetup_of_refused {command : Command} {reply : ErrorReply}
    (h : (c.exchange command net).result = .ok (.error reply)) (commands : List Command) :
    runSetup (command :: commands) c net =
      ⟨.error (.server reply), (c.exchange command net).state, (c.exchange command net).network⟩ := by
  simp only [runSetup, Outcome.andThen, h]

theorem runSetup_of_accepted {command : Command} {r : Reply} (h : (c.exchange command net).result = .ok r)
    (hr : r.isError = false) (commands : List Command) : runSetup (command :: commands) c net =
      runSetup commands (c.exchange command net).state (c.exchange command net).network := by
  cases r with
  | error reply => contradiction
  | _ => simp only [runSetup, Outcome.andThen, h]

/-- The commands still to be run are run as the greeting of the whole queue goes. -/
theorem runSetup_greets {s : Script} (commands done : List Command) (hid : c.channel = some id)
    (hch : net.channel? id = some ch) (hsync : InSync s (done.map Command.frame) ch)
    (hdone : ∀ j < done.length, s.Accepts j) :
    ∃ ch' k err, Greeting c.endpoint s (done ++ commands) k err ∧ Greeted s (done ++ commands) k err ch' ∧
      Network.Rewritten net (runSetup commands c net).network id ch' ∧
      (runSetup commands c net).state.endpoint = c.endpoint ∧ (runSetup commands c net).state.setup = c.setup ∧
      (runSetup commands c net).result = Greeting.result err ∧
      (err = none → (runSetup commands c net).state.channel = some id) := by
  induction commands generalizing done c net ch with
  | nil =>
    rw [List.append_nil]
    refine ⟨ch, _, _, .welcome hdone, ⟨?_, fun _ => hsync⟩, .refl hch, rfl, rfl, rfl, fun _ => hid⟩
    rw [List.take_length]
    exact hsync.received
  | cons command commands ih =>
    have hk : done.length < (done ++ command :: commands).length := by
      rw [List.length_append, List.length_cons]
      omega
    have htake : ((done ++ command :: commands).take (done.length + 1)).map Command.frame =
        done.map Command.frame ++ [command.frame] := by
      simp [List.take_append]
    obtain ⟨ch', hnet, hend, hset, hcases⟩ := exchange_cases command hid hch hsync
    rw [List.length_map] at hcases
    rcases hcases with ⟨hw, rfl, -, hres⟩ | ⟨-, ⟨r, hr, hsync', hid', hres⟩ | ⟨e, he, hrec, -, hres⟩⟩
    · rw [runSetup_of_failed hres]
      refine ⟨ch', _, _, .unwritten done.length hk hdone hw, ⟨?_, nofun⟩, hnet, hend, hset, rfl, nofun⟩
      rw [List.take_left]
      exact hsync.received
    · by_cases hr' : r.isError = true
      · obtain ⟨reply, rfl⟩ : ∃ reply, r = .error reply := by
          cases r with
          | error reply => exact ⟨reply, rfl⟩
          | _ => contradiction
        rw [runSetup_of_refused hres]
        refine ⟨ch', _, _, .refused done.length reply hk hdone hr, ⟨?_, nofun⟩, hnet, hend, hset, rfl, nofun⟩
        rw [htake]
        exact hsync'.received
      · have haccept : ∀ j < (done ++ [command]).length, s.Accepts j := by
          intro j hj
          rw [List.length_append, List.length_singleton] at hj
          by_cases hlt : j < done.length
          · exact hdone j hlt
          · obtain rfl : j = done.length := by omega
            exact ⟨r, hr, by simpa using hr'⟩
        have hmap : InSync s ((done ++ [command]).map Command.frame) ch' := by
          rw [List.map_append]
          exact hsync'
        obtain ⟨ch₂, k, err, hgreet, hgreeted, hnet₂, hend₂, hset₂, hres₂, hid₂⟩ :=
          ih (done ++ [command]) hid' (hnet.channel? hch) hmap haccept
        rw [List.append_assoc] at hgreet hgreeted
        rw [hend] at hgreet
        rw [runSetup_of_accepted hres (by simpa using hr')]
        exact ⟨ch₂, k, err, hgreet, hgreeted, hnet.trans hnet₂, hend₂.trans hend, hset₂.trans hset, hres₂, hid₂⟩
    · rw [runSetup_of_failed hres]
      refine ⟨ch', _, _, .unreadable done.length e hk hdone he, ⟨?_, nofun⟩, hnet, hend, hset, rfl, nofun⟩
      rw [htake]
      exact hrec

/-! ## Opening -/

theorem refuses_of_hostFault? {fault : Fault} (hs : c.endpoint.scheme = .tcp)
    (h : hostFault? c.endpoint.host = some fault) : net.Refuses c.endpoint fault := by
  unfold hostFault? at h
  split_ifs at h with hnul
  obtain rfl := Option.some.inj h
  exact .nulInHost hs (List.contains_iff_mem.1 hnul)

theorem refuses_of_pathFault? {fault : Fault} (hs : c.endpoint.scheme = .unix)
    (h : pathFault? (c.endpoint.path.getD "") = some fault) : net.Refuses c.endpoint fault := by
  unfold pathFault? at h
  split_ifs at h with hnul hlong
  · obtain rfl := Option.some.inj h
    exact .nulInPath hs (List.contains_iff_mem.1 hnul)
  · obtain rfl := Option.some.inj h
    exact .longPath hs hlong

/-- Dialling fails before anything is sent, or comes down to dialling the address. -/
theorem dial_eq (c : Connection) (net : Network) :
    (∃ fault, net.Refuses c.endpoint fault ∧ c.dial net = (.error fault, net)) ∨
      c.dial net = c.dialAt c.endpoint.address net := by
  unfold dial
  cases hs : c.endpoint.scheme with
  | tcp =>
    have haddress : c.endpoint.address = .host c.endpoint.host c.endpoint.port := by rw [Endpoint.address, hs]
    simp only
    cases hfault : hostFault? c.endpoint.host with
    | some fault => exact .inl ⟨fault, refuses_of_hostFault? hs hfault, rfl⟩
    | none =>
      simp only
      split_ifs with hzero
      · obtain ⟨htimeout, hpeer⟩ := Bool.and_eq_true_iff.1 hzero
        exact .inl ⟨_, .timeout hs (of_decide_eq_true htimeout) (haddress ▸ hpeer), rfl⟩
      · rw [haddress]
        exact .inr rfl
  | unix =>
    have haddress : c.endpoint.address = .socket (.ofText (c.endpoint.path.getD "")) := by rw [Endpoint.address, hs]
    simp only
    cases hfault : pathFault? (c.endpoint.path.getD "") with
    | some fault => exact .inl ⟨fault, refuses_of_pathFault? hs hfault, rfl⟩
    | none =>
      rw [haddress]
      exact .inr rfl

/-- What dialling the endpoint can do. -/
theorem dial_cases (c : Connection) (net : Network) :
    (∃ fault, net.Refuses c.endpoint fault ∧ c.dial net = (.error fault, net)) ∨
    (∃ fault net', net.Refuses c.endpoint fault ∧ c.dial net = (.error fault, net') ∧
      net.script? c.endpoint.address 0 = none ∧ net.Attempted net' c.endpoint.address []) ∨
    ∃ s net', net.script? c.endpoint.address 0 = some s ∧ net.Attempted net' c.endpoint.address [.ofScript s] ∧
      ((c.endpoint.readWriteTimeout = some ⟨0⟩ ∧ c.dial net = (.error .zeroTimeout, net')) ∨
       c.dial net = (.ok ⟨c.endpoint.address, (net.channelsAt c.endpoint.address).length⟩, net')) := by
  rcases dial_eq c net with h | h
  · exact .inl h
  · rw [h]
    unfold dialAt
    rcases net.dial_cases c.endpoint.address with
      ⟨hnobody, hd⟩ | ⟨fault, net', hopening, hd, hs, hatt⟩ | ⟨s, net', hd, hs, hatt⟩
    · rw [hd]
      exact .inl ⟨_, .nobody hnobody, rfl⟩
    · rw [hd]
      exact .inr (.inl ⟨fault, net', .refused fault hopening, rfl, hs, hatt⟩)
    · rw [hd]
      refine .inr (.inr ⟨s, net', hs, hatt, ?_⟩)
      simp only
      split_ifs with hz
      · exact .inl ⟨hz, rfl⟩
      · exact .inr rfl

/-- **Opening a closed connection.** It changes nothing, uses up one refusal, or adds one channel and greets it. -/
theorem connect_cases (c : Connection) (net : Network) (hc : c.channel = none) :
    (c.connect net).state.endpoint = c.endpoint ∧ (c.connect net).state.setup = c.setup ∧
    ((∃ fault, net.Refuses c.endpoint fault ∧
        (c.connect net).result = .error (.communication c.endpoint.identity (.opening fault)) ∧
        (c.connect net).state.channel = none ∧
        ((c.connect net).network = net ∨
          net.script? c.endpoint.address 0 = none ∧ net.Attempted (c.connect net).network c.endpoint.address [])) ∨
     ∃ s ch k err, (c.connect net).result = Greeting.result err ∧
        Opened c.endpoint c.setup net (c.connect net).network s ch k err (c.connect net).state.channel) := by
  have hclosed : c.isConnected = false := by simp [isConnected, hc]
  unfold connect
  rw [if_neg (by simp [hclosed])]
  rcases c.dial_cases net with ⟨fault, hrefuses, hd⟩ | ⟨fault, net₁, hrefuses, hd, hs, hatt⟩ |
    ⟨s, net₁, hs, hatt, ⟨hz, hd⟩ | hd⟩
  · rw [hd]
    exact ⟨rfl, rfl, .inl ⟨_, hrefuses, rfl, hc, .inl rfl⟩⟩
  · rw [hd]
    exact ⟨rfl, rfl, .inl ⟨_, hrefuses, rfl, hc, .inr ⟨hs, hatt⟩⟩⟩
  · rw [hd]
    exact ⟨rfl, rfl, .inr ⟨s, _, 0, _, rfl, hs, hatt, .timeout hz, ⟨rfl, nofun⟩, hc⟩⟩
  · rw [hd]
    simp only
    obtain ⟨o, ho⟩ : ∃ o, o = runSetup c.setup
        { c with channel := some ⟨c.endpoint.address, (net.channelsAt c.endpoint.address).length⟩ } net₁ := ⟨_, rfl⟩
    have hch : net₁.channel? ⟨c.endpoint.address, (net.channelsAt c.endpoint.address).length⟩ =
        some (.ofScript s) := by
      rw [Network.channel?_eq, hatt.channels]
      simp
    obtain ⟨ch, k, err, hgreet, hgreeted, hnet, hend, hset, hres, hid⟩ :=
      runSetup_greets (c := { c with channel := some ⟨c.endpoint.address, (net.channelsAt c.endpoint.address).length⟩ })
        c.setup [] rfl hch (inSync_ofScript s) nofun
    rw [List.nil_append] at hgreet hgreeted
    rw [← ho] at hnet hend hset hres hid ⊢
    cases err with
    | none =>
      rw [show o.result = .ok () from hres]
      exact ⟨hend, hset, .inr ⟨s, ch, k, none, hres, hs, hatt.rewritten hnet, hgreet, hgreeted, hid rfl⟩⟩
    | some e =>
      rw [show o.result = .error e from hres]
      exact ⟨hend, hset, .inr ⟨s, ch, k, some e, hres, hs, hatt.rewritten hnet, hgreet, hgreeted, rfl⟩⟩

/-! ## Executing on a closed connection -/

theorem execute_of_connect_error {err : ClientError} (hc : c.channel = none) (h : (c.connect net).result = .error err)
    (command : Command) :
    c.execute command net = ⟨.error err, (c.connect net).state, (c.connect net).network⟩ := by
  have hclosed : c.isConnected = false := by simp [isConnected, hc]
  have hensure : c.ensure net = c.connect net := by simp [ensure, hclosed]
  simp only [execute, write, hensure, Outcome.andThen, h]

/-- Once opened, the connection goes on with one exchange. -/
theorem execute_of_connect_ok {id : ChannelId} (hc : c.channel = none) (h : (c.connect net).result = .ok ())
    (hid : (c.connect net).state.channel = some id) (command : Command) :
    c.execute command net = (c.connect net).state.exchange command (c.connect net).network := by
  have hclosed : c.isConnected = false := by simp [isConnected, hc]
  have hopen : (c.connect net).state.isConnected := by simp [isConnected, hid]
  have hwrite : c.write command net = (c.connect net).state.write command (c.connect net).network := by
    have hensure : c.ensure net = c.connect net := by simp [ensure, hclosed]
    unfold write
    rw [hensure]
    simp only [Outcome.andThen, h, ensure, hopen, ↓reduceIte]
  rw [← execute_eq_exchange hopen]
  unfold execute
  rw [hwrite]

end Connection

end RespClient
