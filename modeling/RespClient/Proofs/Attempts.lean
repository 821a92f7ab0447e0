/-
What executing a command on a connection writes, frame by frame, whatever the state of the connection and of the network. An
attempt goes to one channel, the one held or a new one; there it delivers setup commands, if the channel is new, and then the
command, once at most. After a failure that resets the connection there may be one more attempt.

- `Network.Gains`: the frames of some commands came in on one channel, and none on any other.
- `Attempt`: one execution of a command, with what it delivered.
- `execute_attempt`: executing a command is one attempt, and no command is answered that was not delivered.
- `dispatch_tries`: with retry there are at most two, the second only after the connection was reset.
-/
import RespClient.Proofs.Conduct

namespace RespClient

/-! ## Frames on one channel -/

namespace Network

/-- The frames of the commands came in on the channel `id`, in order and behind those it had; no other channel got any. -/
def Gains (net net' : Network) (id : ChannelId) (commands : List Command) : Prop :=
  ∀ other, net'.frames other = net.frames other ++ if id = other then commands.map Command.frame else []

variable {net net₁ net₂ : Network} {id : ChannelId} {ch ch₁ : Channel} {commands commands' : List Command}

theorem Gains.refl (net : Network) (id : ChannelId) : net.Gains net id [] := by
  intro other
  simp

theorem Gains.trans (h₁ : net.Gains net₁ id commands) (h₂ : net₁.Gains net₂ id commands') :
    net.Gains net₂ id (commands ++ commands') := by
  intro other
  rw [h₂ other, h₁ other]
  split_ifs <;> simp

theorem Rewritten.gains (h : net.Rewritten net₁ id ch₁) (hold : net.channel? id = some ch)
    (hrec : ch₁.received.reverse = ch.received.reverse ++ commands.map Command.frame) :
    net.Gains net₁ id commands := by
  intro other
  unfold frames
  split_ifs with hid
  · subst hid
    rw [h.channel? hold, hold]
    exact hrec
  · rw [h.channel?_ne (Ne.symm hid), List.append_nil]

/-- A channel that was opened and has received frames since. -/
theorem Attempted.gains {a : Address} (h : Attempted net net₁ a [ch])
    (hrec : ch.received.reverse = commands.map Command.frame) :
    net.Gains net₁ ⟨a, (net.channelsAt a).length⟩ commands := by
  intro other
  split_ifs with hid
  · subst hid
    have hnone : net.channel? ⟨a, (net.channelsAt a).length⟩ = none := by
      rw [channel?_eq]
      exact List.getElem?_eq_none_iff.2 (Nat.le_refl _)
    have hsome : net₁.channel? ⟨a, (net.channelsAt a).length⟩ = some ch := by
      rw [channel?_eq, h.channels]
      simp
    unfold Network.frames
    rw [hnone, hsome]
    exact hrec
  · rw [List.append_nil]
    unfold Network.frames
    congr 2
    rw [channel?_eq, channel?_eq]
    by_cases ha : other.address = a
    · -- at the same address, but not the last one there
      have hne : other.number ≠ (net.channelsAt a).length := by
        intro hnum
        exact hid (by cases other; simp_all)
      subst ha
      rw [h.channels]
      rcases Nat.lt_or_gt_of_ne hne with hlt | hgt
      · exact List.getElem?_append_left hlt
      · rw [List.getElem?_eq_none (by simpa using hgt), List.getElem?_eq_none hgt.le]
    · unfold channelsAt
      rw [h.elsewhere _ ha]

end Network

/-! ## Attempts -/

/-- One execution of a command: the channel it went to, if there was one, the setup commands delivered there before it,
whether the command was delivered, and how it ended. -/
structure Attempt where
  command : Command
  channel : Option ChannelId
  greeting : List Command
  sent : Bool
  result : Except ClientError Reply

namespace Attempt

/-- The commands delivered, in order. -/
def delivered (a : Attempt) : List Command := if a.sent then a.greeting ++ [a.command] else a.greeting

/-- The frames that a channel got. -/
def framesOn (a : Attempt) (id : ChannelId) : List Bytes :=
  if a.channel = some id then a.delivered.map Command.frame else []

/-- The attempt was made by the connection on the network; it went to the channel held or to a new one. -/
structure MadeBy (a : Attempt) (c : Connection) (net : Network) : Prop where
  channel : ∀ id, a.channel = some id →
    c.channel = some id ∨ net.channel? id = none ∧ id.address = c.endpoint.address
  greeting : a.greeting <+: c.setup
  /-- nothing is answered that was not delivered -/
  answered : ∀ reply, a.result = .ok reply → a.sent = true

/-- Whoever acts later on a connection goes to the same channel, or to a new one as well. -/
theorem MadeBy.earlier {a : Attempt} {commands : List Command} {c c₁ : Connection} {net net₁ : Network}
    (h : a.MadeBy c₁ net₁) (hbefore : Conducts commands c net c₁ net₁) : a.MadeBy c net where
  channel id hid := by
    have hnew : net₁.channel? id = none → net.channel? id = none := by
      intro hnone
      by_contra hne
      have hkept := hbefore.kept id (Option.isSome_iff_ne_none.2 hne)
      rw [hnone] at hkept
      contradiction
    rcases h.channel id hid with hheld | ⟨hnone, haddr⟩
    · rcases hbefore.holds id hheld with hold | ⟨hnone, hsome⟩
      · exact .inl hold
      · exact .inr ⟨hnone, hbefore.opened id hnone hsome⟩
    · exact .inr ⟨hnew hnone, hbefore.endpoint ▸ haddr⟩
  greeting := hbefore.setup ▸ h.greeting
  answered := h.answered

end Attempt

namespace Connection

variable {c : Connection} {net : Network} {id : ChannelId} {command : Command}

/-- Writing a command and reading its reply writes the command, once at most. -/
theorem exchange_gains (command : Command) (hid : c.channel = some id) (net : Network) : ∃ sent : Bool,
    net.Gains (c.exchange command net).network id (if sent then [command] else []) ∧
    ∀ reply, (c.exchange command net).result = .ok reply → sent = true := by
  cases hch : net.channel? id with
  | none =>
    refine ⟨false, ?_, ?_⟩
    · simp only [exchange, writeOpen, prepare_channel, hid, Network.deliver, hch, Outcome.andThen]
      exact .refl net id
    · simp [exchange, writeOpen, prepare_channel, hid, Network.deliver, hch, Outcome.andThen]
  | some ch =>
    unfold exchange
    rcases writeOpen_cases command hid hch with ⟨net₁, -, hnet, hwrite⟩ | ⟨net₁, -, hnet, hwrite⟩
    · rw [hwrite]
      exact ⟨false, hnet.gains hch (by simp), by simp [Outcome.andThen]⟩
    · rw [hwrite]
      obtain ⟨net₂, rest, hnet₂, hread⟩ := readOpen_cases (c := c.prepare command) hid (hnet.channel? hch)
      have hgains : net.Gains net₂ id [command] := (hnet.trans hnet₂).gains hch (by simp)
      simp only [Outcome.andThen]
      rcases hread with ⟨r, hr, -⟩ | ⟨e, hr, -⟩
      · rw [hr]
        exact ⟨true, hgains, fun _ _ => rfl⟩
      · rw [hr]
        exact ⟨true, hgains, fun _ _ => rfl⟩

/-- **Executing a command is one attempt.** -/
theorem execute_attempt (command : Command) (c : Connection) (net : Network) : ∃ a : Attempt, a.command = command ∧
    a.MadeBy c net ∧ a.result = (c.execute command net).result ∧
    ∀ id, (c.execute command net).network.frames id = net.frames id ++ a.framesOn id := by
  cases hid : c.channel with
  | some id =>
    have hopen : c.isConnected = true := by simp [isConnected, hid]
    obtain ⟨sent, hgains, hanswered⟩ := exchange_gains command hid net
    rw [execute_eq_exchange hopen]
    refine ⟨⟨command, some id, [], sent, _⟩, rfl, ⟨?_, List.nil_prefix, hanswered⟩, rfl, fun other => ?_⟩
    · intro other hother
      exact .inl (hid.trans hother)
    · rw [hgains other]
      simp [Attempt.framesOn, Attempt.delivered]
  | none =>
    obtain ⟨-, hset, ⟨fault, -, hres, -, hnet⟩ | ⟨s, ch, k, err, hres, hopened⟩⟩ := c.connect_cases net hid
    · -- no channel
      rw [execute_of_connect_error hid hres]
      refine ⟨⟨command, none, [], false, .error _⟩, rfl, ⟨by simp, List.nil_prefix, by simp⟩, rfl, fun other => ?_⟩
      rw [Attempt.framesOn, if_neg (by simp), List.append_nil]
      rcases hnet with hnet | ⟨-, hatt⟩
      · rw [hnet]
      · exact hatt.frames (List.forall_mem_nil _)
    · have hgreeted := hopened.attempted.gains (hopened.greeted.received)
      have hnew : ∀ other, some (⟨c.endpoint.address, (net.channelsAt c.endpoint.address).length⟩ : ChannelId) =
          some other → net.channel? other = none ∧ other.address = c.endpoint.address := by
        intro other hother
        obtain rfl := Option.some.inj hother
        rw [Network.channel?_eq]
        exact ⟨List.getElem?_eq_none_iff.2 (Nat.le_refl _), rfl⟩
      cases err with
      | some e =>
        -- the setup failed
        rw [execute_of_connect_error hid hres]
        refine ⟨⟨command, some _, c.setup.take k, false, .error e⟩, rfl,
          ⟨fun other hother => .inr (hnew other hother), List.take_prefix k c.setup, by simp⟩, rfl, fun other => ?_⟩
        rw [hgreeted other]
        simp [Attempt.framesOn, Attempt.delivered]
      | none =>
        have hch : (c.connect net).state.channel =
            some ⟨c.endpoint.address, (net.channelsAt c.endpoint.address).length⟩ := by
          rw [hopened.inUse, if_pos rfl]
        obtain ⟨sent, hgains, hanswered⟩ := exchange_gains command hch (c.connect net).network
        rw [execute_of_connect_ok hid hres hch]
        refine ⟨⟨command, some _, c.setup.take k, sent, _⟩, rfl,
          ⟨fun other hother => .inr (hnew other hother), List.take_prefix k c.setup, hanswered⟩, rfl, fun other => ?_⟩
        rw [(hgreeted.trans hgains) other]
        cases sent <;> simp [Attempt.framesOn, Attempt.delivered]

/-! ## Trying again -/

/-- Executes a command, and once more if the channel was lost and that is asked for. -/
def dispatch (retry : Bool) (command : Command) (c : Connection) (net : Network) : Outcome Connection Reply :=
  let o := c.execute command net
  match o.result with
  | .error e => if e.resets && retry then o.state.execute command o.network else o
  | .ok _ => o

theorem dispatch_of_reset {e : ClientError} (h : (c.execute command net).result = .error e) (he : e.resets = true) :
    c.dispatch true command net = (c.execute command net).state.execute command (c.execute command net).network := by
  unfold dispatch
  simp only [h, he, Bool.and_self, ↓reduceIte]

theorem dispatch_of_kept {retry : Bool}
    (h : ∀ e, (c.execute command net).result = .error e → e.resets = true → retry = false) :
    c.dispatch retry command net = c.execute command net := by
  unfold dispatch
  cases hr : (c.execute command net).result with
  | ok reply => simp only [hr]
  | error e =>
    cases he : e.resets with
    | false => simp only [hr, he, Bool.false_and, Bool.false_eq_true, ↓reduceIte]
    | true => simp only [hr, h e hr he, Bool.and_false, Bool.false_eq_true, ↓reduceIte]

theorem dispatch_conducts (retry : Bool) (command : Command) (c : Connection) (net : Network) :
    Conducts (command :: c.setup) c net (c.dispatch retry command net).state (c.dispatch retry command net).network := by
  have hfirst := c.execute_conducts command net
  unfold dispatch
  simp only
  split
  · split_ifs
    · have hsecond := (c.execute command net).state.execute_conducts command (c.execute command net).network
      rw [hfirst.setup] at hsecond
      exact hfirst.trans hsecond
    · exact hfirst
  · exact hfirst

/-- What dispatching a command comes down to: attempts at this command by this connection, one at least. -/
structure Tries (retry : Bool) (c : Connection) (net : Network) (command : Command) (tries : List Attempt) : Prop where
  sameCommand : ∀ a ∈ tries, a.command = command
  made : ∀ a ∈ tries, a.MadeBy c net
  count : tries.length ≤ if retry then 2 else 1
  /-- the second attempt follows a failure that resets -/
  again : ∀ a b rest, tries = a :: b :: rest → ∃ e, a.result = .error e ∧ e.resets = true
  /-- the last attempt gives the result -/
  result : tries.getLast?.map Attempt.result = some (c.dispatch retry command net).result
  frames : ∀ id, (c.dispatch retry command net).network.frames id = net.frames id ++ tries.flatMap (·.framesOn id)

/-- **Dispatching is one attempt, or two if the first one lost the channel and that is asked for.** -/
theorem dispatch_tries (retry : Bool) (command : Command) (c : Connection) (net : Network) :
    ∃ tries, Tries retry c net command tries := by
  obtain ⟨a, hcommand, hmade, hres, hframes⟩ := c.execute_attempt command net
  by_cases hagain : retry = true ∧ ∃ e, (c.execute command net).result = .error e ∧ e.resets = true
  · obtain ⟨rfl, e, he, hresets⟩ := hagain
    obtain ⟨b, hcommand', hmade', hres', hframes'⟩ :=
      (c.execute command net).state.execute_attempt command (c.execute command net).network
    rw [← dispatch_of_reset he hresets] at hres' hframes'
    refine ⟨[a, b], ?_, ?_, Nat.le_refl 2, ?_, ?_, fun id => ?_⟩
    · simp [hcommand, hcommand']
    · simp [hmade, hmade'.earlier (c.execute_conducts command net)]
    · intro a' b' rest heq
      obtain ⟨rfl, -⟩ := List.cons.inj heq
      exact ⟨e, hres.trans he, hresets⟩
    · simp [hres']
    · simp [hframes', hframes]
  · have honce : c.dispatch retry command net = c.execute command net := by
      refine dispatch_of_kept fun e he hresets => ?_
      by_contra hretry
      exact hagain ⟨by simpa using hretry, e, he, hresets⟩
    rw [← honce] at hres hframes
    refine ⟨[a], ?_, ?_, ?_, ?_, ?_, fun id => ?_⟩
    · simp [hcommand]
    · simp [hmade]
    · split_ifs <;> simp
    · intro a' b' rest heq
      simp at heq
    · simp [hres]
    · simp [hframes]

end Connection

end RespClient
