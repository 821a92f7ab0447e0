/-
How far an operation of one connection can reach, whatever the state of the connection and of the network (`Reaches`): it
writes and reads on the channel the connection holds and on channels it opens, no other; what it writes are whole frames of
commands that are known beforehand; and it ends up holding the channel it held, one that it opened, or none.

Operations that leave the setup commands alone (`Conducts`) compose, so each is a few lines: dialling, writing and reading
are the only contacts with the network.
-/
import RespClient.Proofs.Exchange

namespace RespClient

/-- The frames received on a channel, oldest first. -/
def Network.frames (net : Network) (id : ChannelId) : List Bytes :=
  ((net.channel? id).map fun ch => ch.received.reverse).getD []

/-- From the connection `c` on the network `net` to `c'` on `net'`, with commands of the list sent. -/
structure Reaches (commands : List Command) (c : Connection) (net : Network) (c' : Connection) (net' : Network) :
    Prop where
  /-- channels stay, and those of others stay as they are -/
  others : ∀ id, c.channel ≠ some id → (net.channel? id).isSome → net'.channel? id = net.channel? id
  kept : ∀ id, (net.channel? id).isSome → (net'.channel? id).isSome
  frames : ∀ id, ∃ sent : List Command, sent ⊆ commands ∧ net'.frames id = net.frames id ++ sent.map Command.frame
  holds : ∀ id, c'.channel = some id → c.channel = some id ∨ net.channel? id = none ∧ (net'.channel? id).isSome

structure Conducts (commands : List Command) (c : Connection) (net : Network) (c' : Connection) (net' : Network) : Prop
    extends Reaches commands c net c' net' where
  setup : c'.setup = c.setup
  endpoint : c'.endpoint = c.endpoint
  /-- new channels lead to the endpoint -/
  opened : ∀ id, net.channel? id = none → (net'.channel? id).isSome → id.address = c.endpoint.address

variable {commands : List Command} {c c₁ c₂ : Connection} {net net₁ net₂ : Network} {id : ChannelId}

/-- Nothing sent: the channel is kept or dropped. -/
theorem Reaches.idle (commands : List Command) (net : Network) (hch : c₁.channel = c.channel ∨ c₁.channel = none) :
    Reaches commands c net c₁ net where
  others _ _ _ := rfl
  kept _ h := h
  frames id := ⟨[], List.nil_subset _, by rw [List.map_nil, List.append_nil]⟩
  holds id hid := by
    rcases hch with hch | hch
    · exact .inl (hch.symm.trans hid)
    · rw [hch] at hid
      contradiction

namespace Conducts

theorem idle (commands : List Command) (net : Network) (hset : c₁.setup = c.setup) (hend : c₁.endpoint = c.endpoint)
    (hch : c₁.channel = c.channel ∨ c₁.channel = none) : Conducts commands c net c₁ net where
  toReaches := .idle commands net hch
  setup := hset
  endpoint := hend
  opened id hnone hsome := by
    rw [hnone] at hsome
    contradiction

theorem refl (commands : List Command) (c : Connection) (net : Network) : Conducts commands c net c net :=
  idle commands net rfl rfl (.inl rfl)

theorem mono {more : List Command} (h : Conducts commands c net c₁ net₁) (hsub : commands ⊆ more) :
    Conducts more c net c₁ net₁ where
  setup := h.setup
  endpoint := h.endpoint
  opened := h.opened
  others := h.others
  kept := h.kept
  frames id := by
    obtain ⟨sent, hsent, hframes⟩ := h.frames id
    exact ⟨sent, List.Subset.trans hsent hsub, hframes⟩
  holds := h.holds

theorem trans (h₁ : Conducts commands c net c₁ net₁) (h₂ : Conducts commands c₁ net₁ c₂ net₂) :
    Conducts commands c net c₂ net₂ where
  setup := h₂.setup.trans h₁.setup
  endpoint := h₂.endpoint.trans h₁.endpoint
  opened id hnone hsome := by
    by_cases hmid : (net₁.channel? id).isSome
    · exact h₁.opened id hnone hmid
    · rw [h₂.opened id (by simpa using hmid) hsome, h₁.endpoint]
  others id hid hsome := by
    have hid₁ : c₁.channel ≠ some id := by
      intro hc₁
      rcases h₁.holds id hc₁ with h | ⟨h, -⟩
      · exact hid h
      · rw [h] at hsome
        contradiction
    rw [h₂.others id hid₁ (h₁.kept id hsome), h₁.others id hid hsome]
  kept id hsome := h₂.kept id (h₁.kept id hsome)
  frames id := by
    obtain ⟨sent₁, hsent₁, hframes₁⟩ := h₁.frames id
    obtain ⟨sent₂, hsent₂, hframes₂⟩ := h₂.frames id
    refine ⟨sent₁ ++ sent₂, List.append_subset.2 ⟨hsent₁, hsent₂⟩, ?_⟩
    rw [hframes₂, hframes₁, List.map_append, List.append_assoc]
  holds id hid := by
    rcases h₂.holds id hid with hid₁ | ⟨hnone, hsome⟩
    · exact (h₁.holds id hid₁).imp_right fun h => ⟨h.1, h₂.kept id h.2⟩
    · refine .inr ⟨?_, hsome⟩
      by_contra hne
      have hkept := h₁.kept id (Option.isSome_iff_ne_none.2 hne)
      rw [hnone] at hkept
      contradiction

/-- Steps in sequence, the second only after a success. -/
theorem andThen {α β : Type} {o : Outcome Connection α} {next : α → Connection → Network → Outcome Connection β}
    (h : Conducts commands c net o.state o.network) (hnext : ∀ a,
      Conducts commands o.state o.network (next a o.state o.network).state (next a o.state o.network).network) :
    Conducts commands c net (o.andThen next).state (o.andThen next).network := by
  unfold Outcome.andThen
  cases o.result with
  | error e => exact h
  | ok a => exact h.trans (hnext a)

/-- The channel held was written to or read from. -/
theorem of_rewritten {ch ch₁ : Channel} {sent : List Command} (hid : c.channel = some id)
    (hold : net.channel? id = some ch) (hnet : net.Rewritten net₁ id ch₁) (hsent : sent ⊆ commands)
    (hrec : ch₁.received.reverse = ch.received.reverse ++ sent.map Command.frame) (hset : c₁.setup = c.setup)
    (hend : c₁.endpoint = c.endpoint) (hch : c₁.channel = c.channel ∨ c₁.channel = none) :
    Conducts commands c net c₁ net₁ where
  setup := hset
  endpoint := hend
  opened other hnone hsome := by
    by_cases h : other = id
    · rw [h, hold] at hnone
      contradiction
    · rw [hnet.channel?_ne h, hnone] at hsome
      contradiction
  others other hne _ := hnet.channel?_ne fun h => hne (h ▸ hid)
  kept other hsome := by
    by_cases h : other = id
    · rw [h, hnet.channel? hold]
      rfl
    · rw [hnet.channel?_ne h]
      exact hsome
  frames other := by
    unfold Network.frames
    by_cases h : other = id
    · refine ⟨sent, hsent, ?_⟩
      rw [h, hnet.channel? hold, hold]
      exact hrec
    · refine ⟨[], List.nil_subset _, ?_⟩
      rw [hnet.channel?_ne h, List.map_nil, List.append_nil]
  holds other hother := by
    rcases hch with hch | hch
    · exact .inl (hch.symm.trans hother)
    · rw [hch] at hother
      contradiction

end Conducts

namespace Network.Attempted

variable {net net' : Network} {a : Address} {new : List Channel} {id : ChannelId}

/-- The channels opened before an attempt stay as they are. -/
theorem channel? (h : Attempted net net' a new) (hsome : (net.channel? id).isSome) :
    net'.channel? id = net.channel? id := by
  obtain ⟨ch, hch⟩ := Option.isSome_iff_exists.1 hsome
  rw [channel?_eq] at hch
  rw [channel?_eq, channel?_eq]
  by_cases ha : id.address = a
  · have hlt := (List.getElem?_eq_some_iff.1 hch).1
    subst ha
    rw [h.channels, List.getElem?_append_left hlt]
  · unfold channelsAt
    rw [h.elsewhere _ ha]

/-- A new channel has not received anything. -/
theorem frames (h : Attempted net net' a new) (hnew : ∀ ch ∈ new, ch.received = []) :
    net'.frames id = net.frames id := by
  by_cases hsome : (net.channel? id).isSome
  · unfold Network.frames
    rw [h.channel? hsome]
  · have hnone : net.channel? id = none := by simpa using hsome
    have hreceived : ∀ ch, net'.channel? id = some ch → ch.received = [] := by
      intro ch hch
      rw [channel?_eq] at hch hnone
      by_cases ha : id.address = a
      · subst ha
        rw [List.getElem?_eq_none_iff] at hnone
        rw [h.channels, List.getElem?_append_right hnone] at hch
        exact hnew ch (List.mem_of_getElem? hch)
      · unfold channelsAt at hch hnone
        rw [h.elsewhere _ ha, hnone] at hch
        contradiction
    unfold Network.frames
    rw [hnone]
    cases hch : net'.channel? id with
    | none => rfl
    | some ch =>
      simp [hreceived ch hch]

end Network.Attempted

namespace Connection

variable {net : Network}

/-- An attempt to open, with the channel held afterwards. -/
theorem conducts_of_attempted {c c₁ : Connection} {net₁ : Network} {new : List Channel} (commands : List Command)
    (hatt : net.Attempted net₁ c.endpoint.address new) (hnew : ∀ ch ∈ new, ch.received = [])
    (hset : c₁.setup = c.setup) (hend : c₁.endpoint = c.endpoint) (hch : c₁.channel = c.channel ∨
      new ≠ [] ∧ c₁.channel = some ⟨c.endpoint.address, (net.channelsAt c.endpoint.address).length⟩) :
    Conducts commands c net c₁ net₁ where
  setup := hset
  endpoint := hend
  opened id hnone hsome := by
    by_contra ha
    rw [Network.channel?_eq] at hnone hsome
    unfold Network.channelsAt at hnone hsome
    rw [hatt.elsewhere _ ha, hnone] at hsome
    contradiction
  others id _ hsome := hatt.channel? hsome
  kept id hsome := by
    rw [hatt.channel? hsome]
    exact hsome
  frames id := ⟨[], List.nil_subset _, by rw [hatt.frames hnew, List.map_nil, List.append_nil]⟩
  holds id hid := by
    rcases hch with hch | ⟨hne, hch⟩
    · exact .inl (hch.symm.trans hid)
    · obtain rfl := Option.some.inj (hch.symm.trans hid)
      have hpos : 0 < new.length := List.length_pos_iff.2 hne
      rw [Network.channel?_eq, Network.channel?_eq]
      refine .inr ⟨List.getElem?_eq_none_iff.2 (Nat.le_refl _), ?_⟩
      rw [hatt.channels, List.getElem?_append_right (Nat.le_refl _)]
      simpa using hpos

theorem writeOpen_conducts (command : Command) (c : Connection) (net : Network) :
    Conducts [command] c net (c.writeOpen command net).state (c.writeOpen command net).network := by
  cases hid : c.channel with
  | none =>
    simp only [writeOpen, prepare_channel, hid]
    exact .idle _ net rfl rfl (.inl rfl)
  | some id =>
    cases hch : net.channel? id with
    | none =>
      simp only [writeOpen, prepare_channel, hid, Network.deliver, hch]
      exact .idle _ net rfl rfl (.inr rfl)
    | some ch =>
      rcases writeOpen_cases command hid hch with ⟨net₁, -, hnet, hwrite⟩ | ⟨net₁, -, hnet, hwrite⟩
      · rw [hwrite]
        exact .of_rewritten hid hch hnet (List.nil_subset _) (List.append_nil _).symm rfl rfl (.inr rfl)
      · rw [hwrite]
        exact .of_rewritten hid hch hnet (List.Subset.refl [command]) List.reverse_cons rfl rfl (.inl rfl)

theorem readOpen_conducts (commands : List Command) (c : Connection) (net : Network) :
    Conducts commands c net (c.readOpen net).state (c.readOpen net).network := by
  cases hid : c.channel with
  | none =>
    simp only [readOpen, hid]
    exact .refl _ c net
  | some id =>
    cases hch : net.channel? id with
    | none =>
      simp only [readOpen, hid, Network.receive, hch]
      exact .idle _ net rfl rfl (.inr rfl)
    | some ch =>
      have hsame := (List.append_nil ch.received.reverse).symm
      obtain ⟨net₁, rest, hnet, ⟨r, hread, -⟩ | ⟨e, hread, -⟩⟩ := readOpen_cases hid hch
      · rw [hread]
        exact .of_rewritten hid hch hnet (List.nil_subset _) hsame rfl rfl (.inl rfl)
      · rw [hread]
        exact .of_rewritten hid hch hnet (List.nil_subset _) hsame rfl rfl (.inr rfl)

theorem exchange_conducts (command : Command) (c : Connection) (net : Network) :
    Conducts [command] c net (c.exchange command net).state (c.exchange command net).network :=
  (c.writeOpen_conducts command net).andThen fun _ => readOpen_conducts _ _ _

/-- Setup commands send frames of their own only. -/
theorem runSetup_conducts (commands : List Command) (c : Connection) (net : Network) :
    Conducts commands c net (runSetup commands c net).state (runSetup commands c net).network := by
  induction commands generalizing c net with
  | nil => exact .refl _ c net
  | cons command commands ih =>
    have hfirst : Conducts (command :: commands) c net (c.exchange command net).state (c.exchange command net).network :=
      (c.exchange_conducts command net).mono (by simp)
    refine hfirst.andThen fun reply => ?_
    cases reply with
    | error e => exact .refl _ _ _
    | _ => exact (ih _ _).mono (List.subset_cons_self command commands)

/-- Dialling opens a channel, which has received nothing. -/
theorem dial_conducts (commands : List Command) (c : Connection) (net : Network) :
    match c.dial net with
    | (.error _, net₁) => Conducts commands c net c net₁
    | (.ok id, net₁) => Conducts commands c net { c with channel := some id } net₁ := by
  have hempty : ∀ s, ∀ ch ∈ [Channel.ofScript s], ch.received = [] := by
    intro s ch hch
    rw [List.mem_singleton.1 hch]
    rfl
  rcases c.dial_cases net with ⟨fault, -, hd⟩ | ⟨fault, net₁, -, hd, -, hatt⟩ | ⟨s, net₁, -, hatt, ⟨-, hd⟩ | hd⟩
  · rw [hd]
    exact .refl _ c net
  · rw [hd]
    exact conducts_of_attempted _ hatt (List.forall_mem_nil _) rfl rfl (.inl rfl)
  · rw [hd]
    exact conducts_of_attempted _ hatt (hempty s) rfl rfl (.inl rfl)
  · rw [hd]
    exact conducts_of_attempted _ hatt (hempty s) rfl rfl (.inr ⟨List.cons_ne_nil _ _, rfl⟩)

theorem connect_conducts (c : Connection) (net : Network) :
    Conducts c.setup c net (c.connect net).state (c.connect net).network := by
  unfold connect
  cases hc : c.channel with
  | some id =>
    rw [if_pos (by simp [isConnected, hc])]
    exact .refl _ c net
  | none =>
    rw [if_neg (by simp [isConnected, hc])]
    have hdial := c.dial_conducts c.setup net
    revert hdial
    rcases c.dial net with ⟨fault | id, net₁⟩
    · exact id
    · intro hdial
      have hsetup := runSetup_conducts c.setup { c with channel := some id } net₁
      simp only
      cases (runSetup c.setup { c with channel := some id } net₁).result with
      | ok _ => exact hdial.trans hsetup
      | error e => exact (hdial.trans hsetup).trans (.idle _ _ rfl rfl (.inr rfl))

theorem ensure_conducts (c : Connection) (net : Network) :
    Conducts c.setup c net (c.ensure net).state (c.ensure net).network := by
  unfold ensure
  split_ifs
  · exact .refl _ c net
  · exact c.connect_conducts net

theorem read_conducts (c : Connection) (net : Network) :
    Conducts c.setup c net (c.read net).state (c.read net).network :=
  (c.ensure_conducts net).andThen fun _ => readOpen_conducts _ _ _

theorem write_conducts (command : Command) (c : Connection) (net : Network) :
    Conducts (command :: c.setup) c net (c.write command net).state (c.write command net).network :=
  ((c.ensure_conducts net).mono (List.subset_cons_self _ _)).andThen fun _ =>
    (writeOpen_conducts command _ _).mono (by simp)

theorem execute_conducts (command : Command) (c : Connection) (net : Network) :
    Conducts (command :: c.setup) c net (c.execute command net).state (c.execute command net).network := by
  have hwrite := c.write_conducts command net
  refine hwrite.andThen fun _ => ?_
  have hread := (c.write command net).state.read_conducts (c.write command net).network
  rw [hwrite.setup] at hread
  exact hread.mono (List.subset_cons_self _ _)

end Connection

end RespClient
