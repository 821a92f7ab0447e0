/-
Opening a cluster: all of its members, or none that was not open before.

- `Opens`: members one after the other, each found open or opened. It says nothing of failures.
- `undo`: the members that were not open before are closed again.
- `connectAll_cases`: all members are opened; or those before one that fails are, and that is undone. The induction is on the
  members still to be opened.
- `opens_channel?`, `opens_peer?`: what opening members leaves alone.
- `all_or_nothing`: what a success and what a failure leaves, and that the members of a run keep their channels.
-/
import RespClient.Proofs.ClusterRouting
import RespClient.Proofs.FailedOpening

namespace RespClient.Cluster

open Connection (Alike)

/-! ## Opening in order -/

/-- The members one after the other, each found open or opened, from one network to the next. -/
inductive Opens : List (String × Connection) → Network → List (String × Connection) → Network → Prop where
  | nil (net : Network) : Opens [] net [] net
  | found {m : String × Connection} {ms ms' : List (String × Connection)} {net net' : Network} :
      m.2.isConnected = true → Opens ms net ms' net' → Opens (m :: ms) net (m :: ms') net'
  | opened {m : String × Connection} {ms ms' : List (String × Connection)} {net net' : Network} :
      m.2.isConnected = false → (m.2.connect net).result = .ok () → Opens ms (m.2.connect net).network ms' net' →
      Opens (m :: ms) net ((m.1, (m.2.connect net).state) :: ms') net'

/-- The members afterwards, those closed again that were not open before. -/
def undo (before after : List (String × Connection)) : List (String × Connection) :=
  List.zipWith (fun m m' => if m.2.isConnected then m' else (m'.1, m'.2.disconnect)) before after

variable {c : Cluster} {m m' : String × Connection} {ms ms' : List (String × Connection)} {net net' : Network}
  {e : ClientError} {id : ChannelId}

theorem undo_cons_of_open (h : m.2.isConnected = true) : undo (m :: ms) (m' :: ms') = m' :: undo ms ms' := by
  rw [undo, List.zipWith_cons_cons, if_pos h]
  rfl

theorem undo_cons_of_closed (h : m.2.isConnected = false) :
    undo (m :: ms) (m' :: ms') = (m'.1, m'.2.disconnect) :: undo ms ms' := by
  rw [undo, List.zipWith_cons_cons, if_neg (by simp [h])]
  rfl

/-- Members `before` were opened one after the other, and then `m` failed. -/
structure FailsAt (ms : List (String × Connection)) (net : Network) (e : ClientError)
    (before : List (String × Connection)) (m : String × Connection) (after opened : List (String × Connection))
    (net₁ : Network) : Prop where
  members : ms = before ++ m :: after
  opens : Opens before net opened net₁
  closed : m.2.isConnected = false
  error : (m.2.connect net₁).result = .error e

/-- What is left then: the members before it closed again, those after it as they were, and the network as it left it. -/
def failure (e : ClientError) (before : List (String × Connection)) (m : String × Connection)
    (after opened : List (String × Connection)) (net₁ : Network) : Outcome (List (String × Connection)) Unit :=
  ⟨.error e, undo before opened ++ (m.1, (m.2.connect net₁).state) :: after, (m.2.connect net₁).network⟩

/-- **All members are opened, or one fails and the opening of those before it is undone.** -/
theorem connectAll_cases (ms : List (String × Connection)) (net : Network) :
    (∃ ms' net', Opens ms net ms' net' ∧ connectAll ms net = ⟨.ok (), ms', net'⟩) ∨
    ∃ e before m after opened net₁, FailsAt ms net e before m after opened net₁ ∧
      connectAll ms net = failure e before m after opened net₁ := by
  induction ms generalizing net with
  | nil => exact .inl ⟨[], net, .nil net, rfl⟩
  | cons m ms ih =>
    cases hm : m.2.isConnected with
    | true =>
      have hfirst : connectAll (m :: ms) net = (connectAll ms net).within (m :: ·) := by
        simp only [connectAll, hm, ↓reduceIte]
      rw [hfirst]
      rcases ih net with ⟨ms', net', hopens, h⟩ | ⟨e, before, x, after, opened, net₁, hfails, h⟩
      · rw [h]
        exact .inl ⟨m :: ms', net', .found hm hopens, rfl⟩
      · rw [h]
        refine .inr ⟨e, m :: before, x, after, m :: opened, net₁, ?_, ?_⟩
        · exact ⟨by rw [hfails.members, List.cons_append], .found hm hfails.opens, hfails.closed, hfails.error⟩
        · rw [failure, failure, undo_cons_of_open hm, List.cons_append]
          rfl
    | false =>
      cases hr : (m.2.connect net).result with
      | error e =>
        refine .inr ⟨e, [], m, ms, [], net, ⟨rfl, .nil net, hm, hr⟩, ?_⟩
        simp only [connectAll, hm, Bool.false_eq_true, ↓reduceIte, hr]
        rfl
      | ok _ =>
        rcases ih (m.2.connect net).network with ⟨ms', net', hopens, h⟩ | ⟨e, before, x, after, opened, net₁, hfails, h⟩
        · refine .inl ⟨(m.1, (m.2.connect net).state) :: ms', net', .opened hm hr hopens, ?_⟩
          simp only [connectAll, hm, Bool.false_eq_true, ↓reduceIte, hr, h]
          rfl
        · refine .inr ⟨e, m :: before, x, after, (m.1, (m.2.connect net).state) :: opened, net₁, ?_, ?_⟩
          · exact ⟨by rw [hfails.members, List.cons_append], .opened hm hr hfails.opens, hfails.closed, hfails.error⟩
          · rw [failure, undo_cons_of_closed hm, List.cons_append]
            simp only [connectAll, hm, Bool.false_eq_true, ↓reduceIte, hr, h]
            rfl

/-! ## What is left alone -/

/-- Channels that were there stay as they are. -/
theorem opens_channel? (h : Opens ms net ms' net') (hid : (net.channel? id).isSome) :
    net'.channel? id = net.channel? id := by
  induction h with
  | nil => rfl
  | found _ _ ih => exact ih hid
  | opened hm _ _ ih =>
    have hfirst := Connection.channel?_connect hm hid
    rw [ih (by rw [hfirst]; exact hid), hfirst]

/-- Only the peers of members that are not open are contacted. -/
theorem opens_peer? {a : Address} (h : Opens ms net ms' net')
    (ha : ∀ m ∈ ms, m.2.isConnected = false → a ≠ m.2.endpoint.address) : net'.peer? a = net.peer? a := by
  induction h with
  | nil => rfl
  | found _ _ ih => exact ih fun x hx => ha x (List.mem_cons_of_mem _ hx)
  | opened hm _ _ ih =>
    rw [ih fun x hx => ha x (List.mem_cons_of_mem _ hx)]
    exact Connection.peer?_connect hm (ha _ List.mem_cons_self hm)

/-! ## The members afterwards -/

/-- The same member: an open one entirely, another one but for its room for frames. -/
structure Same (m m' : String × Connection) : Prop where
  id : m'.1 = m.1
  alike : m.2.Alike m'.2
  kept : m.2.isConnected = true → m' = m

/-- The same server and setup commands under the same id. -/
structure SameEntry (m m' : String × Connection) : Prop where
  id : m'.1 = m.1
  endpoint : m'.2.endpoint = m.2.endpoint
  setup : m'.2.setup = m.2.setup

/-- An open member, the same one if it was open before. -/
structure Ready (m m' : String × Connection) : Prop extends SameEntry m m' where
  isOpen : m'.2.isConnected = true
  kept : m.2.isConnected = true → m' = m

theorem Same.refl (m : String × Connection) : Same m m := ⟨rfl, .refl m.2, fun _ => rfl⟩

theorem Same.sameEntry (h : Same m m') : SameEntry m m' := ⟨h.id, h.alike.endpoint, h.alike.setup⟩

/-- A member that was not open, and is none now. -/
theorem same_of_closed {d : Connection} (hm : m.2.isConnected = false) (h : m.2.Alike d) : Same m (m.1, d) := by
  refine ⟨rfl, h, fun hopen => ?_⟩
  rw [hm] at hopen
  contradiction

theorem opens_ready (h : Opens ms net ms' net') : List.Forall₂ Ready ms ms' := by
  induction h with
  | nil => exact .nil
  | found hm _ ih => exact .cons ⟨⟨rfl, rfl, rfl⟩, hm, fun _ => rfl⟩ ih
  | @opened m _ _ net _ hm hr _ ih =>
    have hends := Connection.connect_ends hm net
    refine .cons ⟨⟨rfl, hends.endpoint, (m.2.connect_conducts net).setup⟩, hends.isConnected_of_ok hr, ?_⟩ ih
    intro hopen
    rw [hm] at hopen
    contradiction

/-- What was opened and undone is the same. -/
theorem undo_same (h : Opens ms net ms' net') : List.Forall₂ Same ms (undo ms ms') := by
  induction h with
  | nil => exact .nil
  | found hm _ ih =>
    rw [undo_cons_of_open hm]
    exact .cons (.refl _) ih
  | opened hm _ _ ih =>
    rw [undo_cons_of_closed hm]
    exact .cons (same_of_closed hm (Connection.alike_of_connect_disconnect hm)) ih

/-- After a failure every member is the same. -/
theorem failure_same {before after opened : List (String × Connection)} {net₁ : Network}
    (h : FailsAt ms net e before m after opened net₁) :
    List.Forall₂ Same ms (failure e before m after opened net₁).state := by
  rw [h.members]
  refine List.rel_append (undo_same h.opens) (.cons ?_ (List.forall₂_same.2 fun x _ => .refl x))
  exact same_of_closed h.closed (Connection.alike_of_connect_error h.closed h.error)

/-! ## Opening a cluster -/

/-- What opening a cluster leaves. -/
structure ConnectLaw (c : Cluster) (net : Network) : Prop where
  /-- after a success the members were found open or opened in order, and all are open -/
  succeeded : (c.connect net).result = .ok () →
    Opens c.members net (c.connect net).state.members (c.connect net).network ∧
    List.Forall₂ Ready c.members (c.connect net).state.members
  /-- after a failure the error is that of the first member that could not be opened; those opened before it are closed
  again, and those after it were left alone -/
  failed : ∀ e, (c.connect net).result = .error e → ∃ before m after opened net₁,
    FailsAt c.members net e before m after opened net₁ ∧
    (c.connect net).state.members = undo before opened ++ (m.1, (m.2.connect net₁).state) :: after ∧
    (c.connect net).network = (m.2.connect net₁).network ∧
    ∀ a, (∀ x ∈ before ++ [m], x.2.isConnected = false → a ≠ x.2.endpoint.address) →
      (c.connect net).network.peer? a = net.peer? a
  /-- so every member is what it was; exactly those are open that were -/
  undone : ∀ e, (c.connect net).result = .error e → List.Forall₂ Same c.members (c.connect net).state.members ∧
    (c.connect net).state.members.map (·.2.isConnected) = c.members.map (·.2.isConnected)
  /-- in either case the channels that were there stay as they are, -/
  channels : ∀ id, (net.channel? id).isSome → (c.connect net).network.channel? id = net.channel? id
  /-- and so do the ring, the ids, the endpoints and the setup commands -/
  ring : (c.connect net).state.ring = c.ring
  entries : List.Forall₂ SameEntry c.members (c.connect net).state.members

theorem forall₂_map_isConnected (h : List.Forall₂ Same ms ms') :
    ms'.map (·.2.isConnected) = ms.map (·.2.isConnected) := by
  induction h with
  | nil => rfl
  | cons hm _ ih => rw [List.map_cons, List.map_cons, hm.alike.isConnected, ih]

theorem connect_law (c : Cluster) (net : Network) : ConnectLaw c net := by
  have hconnect : c.connect net = (connectAll c.members net).within fun members => { c with members } := rfl
  rcases connectAll_cases c.members net with ⟨ms, net', hopens, h⟩ | ⟨e, before, m, after, opened, net₁, hfails, h⟩
  · rw [h] at hconnect
    have hready := opens_ready hopens
    refine ⟨?_, ?_, ?_, ?_, ?_, ?_⟩ <;> rw [hconnect]
    · exact fun _ => ⟨hopens, hready⟩
    · exact fun e he => nomatch he
    · exact fun e he => nomatch he
    · exact fun id hid => opens_channel? hopens hid
    · rfl
    · exact hready.imp fun _ _ hm => hm.toSameEntry
  · rw [h] at hconnect
    have hsame := failure_same hfails
    refine ⟨?_, ?_, ?_, ?_, ?_, ?_⟩ <;> rw [hconnect]
    · exact fun he => nomatch he
    · rintro e' he'
      obtain rfl : e = e' := Except.error.inj he'
      refine ⟨before, m, after, opened, net₁, hfails, rfl, rfl, fun a ha => ?_⟩
      have hm : a ≠ m.2.endpoint.address := ha m (by simp) hfails.closed
      refine (Connection.peer?_connect hfails.closed hm).trans (opens_peer? hfails.opens fun x hx => ?_)
      exact ha x (List.mem_append_left _ hx)
    · exact fun _ _ => ⟨hsame, forall₂_map_isConnected hsame⟩
    · intro id hid
      have hbefore := opens_channel? hfails.opens hid
      refine (Connection.channel?_connect hfails.closed ?_).trans hbefore
      rw [hbefore]
      exact hid
    · rfl
    · exact hsame.imp fun _ _ hm => hm.sameEntry

/-- The second member refuses: the first one is closed again, and the third one was not asked. -/
example :
    let entry (host : String) : String × Connection := (host, { endpoint := { host, port := 1 } })
    let c : Cluster := { members := [entry "a", entry "b", entry "c"] }
    let net : Network :=
      ⟨[(.host "a" 1, { coming := [] }), (.host "b" 1, { coming := [.refused .refused] }), (.host "c" 1, { coming := [] })]⟩
    let o := c.connect net
    o.result.isOk = false ∧ o.state.members.map (·.2.isConnected) = [false, false, false] ∧
    o.network.peers.map (·.2.channels.length) = [1, 0, 0] := by
  cbv

end RespClient.Cluster

namespace RespClient.ClusterRouting

/-- **All or nothing.** Opening a cluster opens every member, or it leaves open exactly those that were, with their
channels; and in every cluster that a run leads to, the channels of open members are there to be kept. -/
theorem all_or_nothing : (∀ c net, Cluster.ConnectLaw c net) ∧
    ∀ net ops, ∀ m ∈ (run net ops).cluster.members, ∀ id, m.2.channel = some id →
      ((run net ops).net.channel? id).isSome ∧
      ((run net ops).step .connect).net.channel? id = (run net ops).net.channel? id := by
  refine ⟨Cluster.connect_law, fun net ops m hm id hid => ?_⟩
  have hmember : m.2 ∈ (run net ops).connections := List.mem_append_left _ (List.mem_map_of_mem hm)
  have hthere := (inv_run net ops Crc32.checksum).apart.held m.2 hmember id hid
  exact ⟨hthere, (Cluster.connect_law (run net ops).cluster (run net ops).net).channels id hthere⟩

end RespClient.ClusterRouting
