/-
What the three actions on a network do, seen through three views of it: the channels opened at an address
(`Network.channelsAt`), what the attempts to come will bring there (`Network.opening?`, `Network.script?`) and what a channel
still has to say (`Channel.answers`). Later proofs use the views only.

- `Network.dial_cases`: an attempt to connect changes one address at most, and adds one channel at most.
- `Network.Rewritten`: what writing and reading do, the change of one channel.
- `Channel.receive_cases`: a reply read is the first answer of the channel, and the others are left; after an error there
  are none.
-/
import RespClient.Proofs.ReplyGrammar
import RespClient.Network

namespace RespClient

/-! ## Views -/

/-- What the peer has in store, if it accepts. -/
def Opening.script? : Opening → Option Script
  | .refused _ => none
  | .accepted script => some script

/-- How the attempt `k` from now will go. -/
def Peer.opening (p : Peer) (k : Nat) : Opening := p.coming[k]?.getD p.later

namespace Network

/-- The channels opened at an address so far, oldest first. -/
def channelsAt (net : Network) (a : Address) : List Channel := ((net.peer? a).map Peer.channels).getD []

/-- What the attempt `k` from now will bring at an address, if it succeeds. -/
def script? (net : Network) (a : Address) (k : Nat) : Option Script := (net.peer? a).bind fun p => (p.opening k).script?

/-- How the next attempt at an address goes, if a peer sits there. -/
def opening? (net : Network) (a : Address) : Option Opening := (net.peer? a).map (·.opening 0)

theorem channel?_eq (net : Network) (id : ChannelId) : net.channel? id = (net.channelsAt id.address)[id.number]? := by
  unfold channel? channelsAt
  cases net.peer? id.address <;> rfl

/-! ## Replacing a peer -/

theorem peer?_setPeer {net : Network} {a : Address} {q : Peer} (h : net.peer? a = some q) (p : Peer) :
    (net.setPeer a p).peer? a = some p := by
  obtain ⟨peers⟩ := net
  simp only [peer?, setPeer] at h ⊢
  induction peers with
  | nil => contradiction
  | cons x peers ih =>
    by_cases hx : x.1 = a
    · simp [hx]
    · have hb : (a == x.1) = false := beq_false_of_ne (Ne.symm hx)
      rw [List.lookup_cons, hb] at h
      rw [List.map_cons, if_neg (by simpa using hx), List.lookup_cons, hb]
      exact ih h

theorem peer?_setPeer_ne {a b : Address} (h : b ≠ a) (net : Network) (p : Peer) :
    (net.setPeer a p).peer? b = net.peer? b := by
  obtain ⟨peers⟩ := net
  simp only [peer?, setPeer]
  induction peers with
  | nil => rfl
  | cons x peers ih =>
    rw [List.map_cons, List.lookup_cons, List.lookup_cons, ih]
    by_cases hx : x.1 = a
    · have hb : (b == a) = false := beq_false_of_ne h
      simp [hx, hb]
    · simp [hx]

/-! ## Connecting -/

/-- `net'` is `net` after one attempt to connect to `a` that the peer noticed; it opened the channels `new`. -/
structure Attempted (net net' : Network) (a : Address) (new : List Channel) : Prop where
  elsewhere : ∀ b, b ≠ a → net'.peer? b = net.peer? b
  channels : net'.channelsAt a = net.channelsAt a ++ new
  scripts : ∀ k, net'.script? a k = net.script? a (k + 1)

theorem opening_drop (p : Peer) (cs : List Channel) (k : Nat) :
    ({ p with coming := p.coming.drop 1, channels := cs } : Peer).opening k = p.opening (k + 1) := by
  simp [Peer.opening]

theorem opening_zero (p : Peer) : p.opening 0 = p.coming.headD p.later := by
  unfold Peer.opening
  cases p.coming <;> rfl

theorem attempted_setPeer {net : Network} {a : Address} {p : Peer} (h : net.peer? a = some p) (new : List Channel) :
    Attempted net (net.setPeer a { p with coming := p.coming.drop 1, channels := p.channels ++ new }) a new where
  elsewhere b hb := peer?_setPeer_ne hb net _
  channels := by simp [channelsAt, peer?_setPeer h, h]
  scripts k := by simp only [script?, peer?_setPeer h, h, Option.bind_some, opening_drop]

/-- What an attempt to connect can do: nothing where there is nobody, use up one refusal, or open one channel behind the
others. -/
theorem dial_cases (net : Network) (a : Address) :
    (net.peer? a = none ∧ net.dial a = (.error (net.nobody a), net)) ∨
    (∃ fault net', net.opening? a = some (.refused fault) ∧ net.dial a = (.error fault, net') ∧
      net.script? a 0 = none ∧ Attempted net net' a []) ∨
    ∃ script net', net.dial a = (.ok ⟨a, (net.channelsAt a).length⟩, net') ∧ net.script? a 0 = some script ∧
      Attempted net net' a [.ofScript script] := by
  unfold dial
  cases hp : net.peer? a with
  | none => exact .inl ⟨rfl, rfl⟩
  | some p =>
    right
    cases ho : p.opening 0 with
    | refused fault =>
      left
      have hopening : net.opening? a = some (.refused fault) := by rw [opening?, hp, Option.map_some, ho]
      have hs : net.script? a 0 = none := by simp [script?, hp, ho, Opening.script?]
      have hatt := attempted_setPeer hp []
      rw [List.append_nil] at hatt
      rw [opening_zero] at ho
      exact ⟨fault, _, hopening, by simp only [Peer.accept, ho]; rfl, hs, hatt⟩
    | accepted script =>
      right
      have hs : net.script? a 0 = some script := by simp [script?, hp, ho, Opening.script?]
      rw [opening_zero] at ho
      refine ⟨script, _, ?_, hs, attempted_setPeer hp [.ofScript script]⟩
      simp only [Peer.accept, ho, channelsAt, hp]
      rfl

/-! ## Replacing a channel -/

variable {net : Network} {id : ChannelId}

theorem peer?_setChannel (net : Network) {a : Address} (h : a ≠ id.address) (ch : Channel) :
    (net.setChannel id ch).peer? a = net.peer? a := by
  unfold setChannel
  split
  · rfl
  · exact peer?_setPeer_ne h net _

theorem channelsAt_setChannel (net : Network) (id : ChannelId) (ch : Channel) :
    (net.setChannel id ch).channelsAt id.address = (net.channelsAt id.address).set id.number ch := by
  unfold setChannel
  cases hp : net.peer? id.address with
  | none => simp [channelsAt, hp]
  | some p => simp [channelsAt, peer?_setPeer hp, hp]

theorem script?_setChannel (net : Network) (id : ChannelId) (ch : Channel) (a : Address) (k : Nat) :
    (net.setChannel id ch).script? a k = net.script? a k := by
  unfold script?
  by_cases h : a = id.address
  · subst h
    unfold setChannel
    cases hp : net.peer? id.address with
    | none => simp [hp]
    | some p => simp [peer?_setPeer hp, Peer.opening]
  · rw [peer?_setChannel net h]

/-- `net'` is `net` with the channel `id` now standing as `ch`. -/
structure Rewritten (net net' : Network) (id : ChannelId) (ch : Channel) : Prop where
  elsewhere : ∀ a, a ≠ id.address → net'.peer? a = net.peer? a
  channels : net'.channelsAt id.address = (net.channelsAt id.address).set id.number ch
  scripts : ∀ a k, net'.script? a k = net.script? a k

theorem rewritten_setChannel (net : Network) (id : ChannelId) (ch : Channel) :
    Rewritten net (net.setChannel id ch) id ch where
  elsewhere _ h := peer?_setChannel net h ch
  channels := channelsAt_setChannel net id ch
  scripts := script?_setChannel net id ch

theorem Rewritten.refl {ch : Channel} (h : net.channel? id = some ch) : Rewritten net net id ch where
  elsewhere _ _ := rfl
  channels := by
    rw [channel?_eq] at h
    obtain ⟨hlt, rfl⟩ := List.getElem?_eq_some_iff.1 h
    exact (List.set_getElem_self hlt).symm
  scripts _ _ := rfl

theorem Rewritten.trans {net₁ net₂ : Network} {ch₁ ch₂ : Channel} (h₁ : Rewritten net net₁ id ch₁)
    (h₂ : Rewritten net₁ net₂ id ch₂) : Rewritten net net₂ id ch₂ where
  elsewhere a ha := (h₂.elsewhere a ha).trans (h₁.elsewhere a ha)
  channels := by rw [h₂.channels, h₁.channels, List.set_set]
  scripts a k := (h₂.scripts a k).trans (h₁.scripts a k)

theorem Rewritten.channel? {net' : Network} {ch old : Channel} (hw : Rewritten net net' id ch)
    (h : net.channel? id = some old) : net'.channel? id = some ch := by
  rw [channel?_eq] at h ⊢
  obtain ⟨hlt, -⟩ := List.getElem?_eq_some_iff.1 h
  rw [hw.channels, List.getElem?_set_self hlt]

theorem Rewritten.channel?_ne {net' : Network} {other : ChannelId} {ch : Channel} (hw : Rewritten net net' id ch)
    (h : other ≠ id) : net'.channel? other = net.channel? other := by
  rw [channel?_eq, channel?_eq]
  by_cases ha : other.address = id.address
  · have hn : id.number ≠ other.number := by
      intro hn
      obtain ⟨a, k⟩ := id
      obtain ⟨b, m⟩ := other
      simp only at ha hn
      exact h (by rw [ha, hn])
    rw [ha, hw.channels, List.getElem?_set_ne hn]
  · unfold channelsAt
    rw [hw.elsewhere _ ha]

/-- The channel that an attempt opened, rewritten, is as if the attempt had opened it so. -/
theorem Attempted.rewritten {net' net'' : Network} {a : Address} {ch₀ ch : Channel} (h : Attempted net net' a [ch₀])
    (hw : Rewritten net' net'' ⟨a, (net.channelsAt a).length⟩ ch) : Attempted net net'' a [ch] where
  elsewhere b hb := (hw.elsewhere b hb).trans (h.elsewhere b hb)
  channels := by
    have hset := hw.channels
    simp only [h.channels] at hset
    rw [hset]
    simp
  scripts k := (hw.scripts a k).trans (h.scripts k)

theorem deliver_eq {ch : Channel} (h : net.channel? id = some ch) (frame : Bytes) :
    net.deliver id frame = ((ch.deliver frame).1, net.setChannel id (ch.deliver frame).2) := by
  unfold deliver
  rw [h]

theorem receive_eq {ch : Channel} (h : net.channel? id = some ch) :
    net.receive id = (ch.receive.1, net.setChannel id ch.receive.2) := by
  unfold receive
  rw [h]

end Network

/-! ## What a channel has to say -/

namespace Channel

/-- The answers to the commands to come: the replies of the unread octets in order, and then the error that ends them. -/
def answers (ch : Channel) : List (Except DecodeError Reply) :=
  let (replies, e) := Wire.readAll (Wire.readReply ch.ending) ch.unread
  replies.map .ok ++ [.error e]

theorem answers_ne_nil (ch : Channel) : ch.answers ≠ [] := by
  simp [answers]

/-- The error is the last answer. -/
theorem length_of_error {ch : Channel} {j : Nat} {e : DecodeError} (h : ch.answers[j]? = some (.error e)) :
    ch.answers.length = j + 1 := by
  simp only [answers, List.getElem?_append, List.length_map] at h
  split_ifs at h with hj
  · rw [List.getElem?_map] at h
    obtain ⟨r, -, hr⟩ := Option.map_eq_some_iff.1 h
    contradiction
  · have hlt := (List.getElem?_eq_some_iff.1 h).1
    simp only [List.length_singleton] at hlt
    simp only [answers, List.length_append, List.length_map, List.length_singleton]
    omega

/-- After a reply there is one more answer at least. -/
theorem lt_length_of_ok {ch : Channel} {j : Nat} {r : Reply} (h : ch.answers[j]? = some (.ok r)) :
    j + 1 < ch.answers.length := by
  have hlt := (List.getElem?_eq_some_iff.1 h).1
  simp only [answers, List.getElem?_append, List.length_map] at h
  split_ifs at h with hj
  · simp only [answers, List.length_append, List.length_map, List.length_singleton]
    omega
  · have hlast := (List.getElem?_eq_some_iff.1 h).2
    simp at hlast

/-- Reading takes the first answer. -/
theorem receive_cases (ch : Channel) :
    (∃ r rest, ch.receive = (.ok r, { ch with unread := rest }) ∧
      ch.answers = .ok r :: answers { ch with unread := rest }) ∨
    ∃ e rest, ch.receive = (.error e, { ch with unread := rest }) ∧ ch.answers = [.error e] := by
  unfold receive Wire.reply
  cases hread : Wire.readReply ch.ending ch.unread with
  | value r rest h =>
    have hp : (Wire.readReply ch.ending ch.unread).toPair = (.ok r, rest) := by rw [hread]; rfl
    refine .inl ⟨r, rest, rfl, ?_⟩
    simp only [answers, Wire.readAll_of_value hp, List.map_cons, List.cons_append]
  | failure e rest =>
    have hp : (Wire.readReply ch.ending ch.unread).toPair = (.error e, rest) := by rw [hread]; rfl
    refine .inr ⟨e, rest, rfl, ?_⟩
    simp only [answers, Wire.readAll_of_error hp, List.map_nil, List.nil_append]

end Channel

end RespClient
