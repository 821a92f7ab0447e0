/-
The text of a place tells the place. A host may hold colons, digits and brackets and look like a host with a port; it is
still told apart, by its last colon.

- `SamePlace`: host and port are the same, or the path of the socket.
- `identity_eq_iff`: endpoints have one identity iff they lie at the same place.
- `Cluster.connections_foldl_add`, `Replication.slaves_foldl_add`: members join under their node ids, which are identities
  where nobody has an alias.
- `place_law`: connections without an alias share a member iff they lie at the same place, and nobody is replaced by a
  connection to another place.
-/
import RespClient.Proofs.ClusterRouting
import RespClient.Proofs.ReplicaRegistry
import RespClient.Proofs.UriRoundTrip

namespace RespClient

/-! ## Places -/

namespace Endpoint

variable {p q : Endpoint}

/-- Two endpoints lie at the same place: host and port are the same, or the path of the socket, where no path is an empty
one. -/
def SamePlace (p q : Endpoint) : Prop :=
  p.scheme = q.scheme ∧ (p.scheme = .tcp → p.host = q.host ∧ p.port = q.port) ∧
    (p.scheme = .unix → p.path.getD "" = q.path.getD "")

/-- The host as it stands before the port. -/
def hostText (e : Endpoint) : List Char :=
  if ':' ∈ e.host.toList then '[' :: (e.host.toList ++ [']']) else e.host.toList

theorem authority_toList (e : Endpoint) : e.authority.toList = e.hostText ++ ':' :: (toString e.port).toList := by
  unfold authority hostText
  by_cases hcolon : ':' ∈ e.host.toList <;> simp [hcolon]

/-- The last colon is the one before the port. -/
theorem cutLast?_authority (e : Endpoint) :
    cutLast? ':' e.authority.toList = some (e.hostText, (toString e.port).toList) := by
  have hport : ':' ∉ (toString e.port).toList := by
    intro hmem
    exact absurd (isDigit_of_mem_port hmem) (by decide)
  rw [authority_toList]
  exact cutLast?_append e.hostText hport

/-- A host is in brackets iff there is a colon in it, so the brackets are known for what they are. -/
theorem colon_mem_hostText (e : Endpoint) : ':' ∈ e.hostText ↔ ':' ∈ e.host.toList := by
  unfold hostText
  split_ifs with hcolon <;> simp [hcolon]

theorem host_eq_of_hostText_eq (h : p.hostText = q.hostText) : p.host = q.host := by
  have hcolon : ':' ∈ p.host.toList ↔ ':' ∈ q.host.toList := by
    rw [← colon_mem_hostText, ← colon_mem_hostText, h]
  refine String.toList_inj.1 ?_
  unfold hostText at h
  by_cases hp : ':' ∈ p.host.toList
  · rw [if_pos hp, if_pos (hcolon.1 hp)] at h
    exact List.append_cancel_right (List.cons.inj h).2
  · rwa [if_neg hp, if_neg (mt hcolon.2 hp)] at h

/-- A port is read back. -/
theorem port_eq_of_toString_eq (h : toString p.port = toString q.port) : p.port = q.port := by
  have hread : ∀ e : Endpoint, (Scalar.text (toString e.port)).toNatBelow UInt16.size "port" = .ok e.port.toNat :=
    fun e => Scalar.toNatBelow_toString "port" e.port.toNat_lt (by decide)
  have hsame := (hread p).symm.trans ((congrArg (fun text => (Scalar.text text).toNatBelow _ _) h).trans (hread q))
  exact UInt16.toNat_inj.1 (Except.ok.inj hsame)

/-- Host and port are read off the text. -/
theorem authority_eq_iff : p.authority = q.authority ↔ p.host = q.host ∧ p.port = q.port := by
  constructor
  · intro h
    have hcut := p.cutLast?_authority
    rw [h, q.cutLast?_authority] at hcut
    obtain ⟨hhost, hport⟩ := Prod.mk.inj (Option.some.inj hcut)
    exact ⟨(host_eq_of_hostText_eq hhost).symm, (port_eq_of_toString_eq (String.toList_inj.1 hport)).symm⟩
  · rintro ⟨hhost, hport⟩
    unfold authority
    rw [hhost, hport]

/-- **The text of a place tells the place.** -/
theorem identity_eq_iff : p.identity = q.identity ↔ p.SamePlace q := by
  rw [← String.toList_inj, identity_toList, identity_toList]
  unfold SamePlace place
  cases hp : p.scheme with
  | tcp =>
    cases hq : q.scheme with
    | tcp => simp [String.toList_inj, authority_eq_iff]
    | unix => simp [Scheme.name]
  | unix =>
    cases hq : q.scheme with
    | tcp => simp [Scheme.name]
    | unix => simp [String.toList_inj]

/-- No place is called the master. -/
theorem identity_ne_masterId (e : Endpoint) : e.identity ≠ Replication.masterId := by
  intro heq
  have hmem : ':' ∈ e.identity.toList := by
    rw [identity_toList]
    exact List.mem_append_right _ List.mem_cons_self
  rw [heq] at hmem
  exact absurd hmem (by decide)

end Endpoint

/-! ## Joining -/

/-- A connection without an alias goes by its place. -/
theorem Connection.nodeId_of_plain {c : Connection} (h : c.endpoint.label = none) : c.nodeId = c.endpoint.identity := by
  rw [nodeId, Endpoint.nodeId, h, Option.getD_none]

/-- Two connections to the same place. -/
def Together (c d : Connection) : Prop := c.endpoint.SamePlace d.endpoint

theorem nodeId_eq_iff {c d : Connection} (hc : c.endpoint.label = none) (hd : d.endpoint.label = none) :
    c.nodeId = d.nodeId ↔ Together c d := by
  rw [Connection.nodeId_of_plain hc, Connection.nodeId_of_plain hd, Endpoint.identity_eq_iff, Together]

/-- Connections without an alias have joined one after the other: they have their seats by place. -/
theorem exists_seats_by_place {conns : List Connection} (hplain : ∀ c ∈ conns, c.endpoint.label = none) :
    ∃ seat, Keyed.Seats Together conns (Keyed.collect Connection.nodeId conns) seat := by
  obtain ⟨seat, hseat⟩ := Keyed.exists_seats Connection.nodeId conns
  refine ⟨seat, hseat.lt, fun i j hi hj => (hseat.shared i j hi hj).trans ?_, hseat.latest⟩
  exact nodeId_eq_iff (hplain _ (List.getElem_mem hi)) (hplain _ (List.getElem_mem hj))

/-- Who joins in place of another one, both without an alias, joins at his place. -/
theorem together_of_not_mem_put {members : List Connection} {c d : Connection} (hd : d ∈ members)
    (hgone : d ∉ Keyed.put Connection.nodeId members c) (hc : c.endpoint.label = none) (hd' : d.endpoint.label = none) :
    Together d c := by
  by_contra hne
  exact hgone (Keyed.mem_put.2 (.inr ⟨hd, mt (nodeId_eq_iff hd' hc).1 hne⟩))

namespace Cluster

theorem connections_add_eq {c : Cluster} (hown : ∀ m ∈ c.members, m.1 = m.2.nodeId) (conn : Connection) :
    (c.add conn).connections = Keyed.put Connection.nodeId c.connections conn := by
  have hids : c.connections.map Connection.nodeId = c.members.map Prod.fst := by
    rw [connections, List.map_map]
    exact List.map_congr_left fun m hm => (hown m hm).symm
  have hany : c.members.any (·.1 == conn.nodeId) = true ↔ conn.nodeId ∈ c.connections.map Connection.nodeId := by
    rw [hids]
    simp
  unfold Keyed.put
  rw [connections, members_add]
  by_cases hmem : conn.nodeId ∈ c.connections.map Connection.nodeId
  · rw [if_pos (hany.2 hmem), if_pos hmem, connections, List.map_map, List.map_map]
    refine List.map_congr_left fun m hm => ?_
    by_cases hid : m.1 = conn.nodeId
    · simp [hid, ← hown m hm]
    · simp [hid, ← hown m hm]
  · rw [if_neg (mt hany.1 hmem), if_neg hmem, List.map_append]
    rfl

/-- The members of a cluster of connections that joined one after the other. -/
theorem connections_foldl_add (conns : List Connection) :
    (conns.foldl Cluster.add {}).connections = Keyed.collect Connection.nodeId conns := by
  have hown : ∀ conns : List Connection, ∀ m ∈ (conns.foldl Cluster.add {}).members, m.1 = m.2.nodeId := by
    intro conns
    induction conns using List.reverseRecOn with
    | nil => exact List.forall_mem_nil _
    | append_singleton conns conn ih =>
      rw [List.foldl_concat]
      exact own_add ih conn
  induction conns using List.reverseRecOn with
  | nil => rfl
  | append_singleton conns conn ih =>
    rw [List.foldl_concat, connections_add_eq (hown conns), ih, Keyed.collect_concat]

end Cluster

namespace Replication

theorem slaves_add_eq {r : Replication} (hr : Registered r) (conn : Connection) : (r.add conn).slaves =
    if conn.nodeId = masterId then r.slaves else Keyed.put Connection.nodeId r.slaves conn := slaves_add hr conn

theorem registered_foldl_add (conns : List Connection) : Registered (conns.foldl Replication.add {}) := by
  have hrun := ReplicaRegistry.registered_run (conns.map fun c => (⟨[]⟩, .add c))
  rwa [ReplicaRegistry.run, List.foldl_map] at hrun

/-- The slaves of a set of connections that joined one after the other. -/
theorem slaves_foldl_add (conns : List Connection) : (conns.foldl Replication.add {}).slaves =
    Keyed.collect Connection.nodeId (conns.filter (·.nodeId ≠ masterId)) := by
  induction conns using List.reverseRecOn with
  | nil => rfl
  | append_singleton conns conn ih =>
    rw [List.foldl_concat, slaves_add_eq (registered_foldl_add conns), List.filter_append]
    by_cases hm : conn.nodeId = masterId
    · rw [if_pos hm, ih, List.filter_cons_of_neg (by simpa using hm), List.filter_nil, List.append_nil]
    · rw [if_neg hm, ih, List.filter_cons_of_pos (by simpa using hm), List.filter_nil, Keyed.collect_concat]

end Replication

/-! ## The law -/

/-- **Places and members.** Endpoints have one identity iff they lie at the same place. So connections without an alias that
joined a cluster one after the other, in whatever order, share a member iff they lie at the same place, and every member is
the last connection to its place; and so do the slaves of a replicated set, with or without masters among those who joined.
In every cluster and every set that a run leads to, whoever makes way for a connection lies at its place, if both are without
an alias. -/
theorem place_law :
    (∀ p q : Endpoint, p.identity = q.identity ↔ p.SamePlace q) ∧
    (∀ conns : List Connection, (∀ c ∈ conns, c.endpoint.label = none) →
      ∃ seat, Keyed.Seats Together conns (conns.foldl Cluster.add {}).connections seat) ∧
    (∀ conns : List Connection, (∀ c ∈ conns, c.endpoint.label = none ∨ c.nodeId = Replication.masterId) →
      ∃ seat, Keyed.Seats Together (conns.filter (·.endpoint.label = none)) (conns.foldl Replication.add {}).slaves seat) ∧
    (∀ net ops (c d : Connection), c.endpoint.label = none → d.endpoint.label = none →
      d ∈ (ClusterRouting.run net ops).cluster.connections →
      d ∉ ((ClusterRouting.run net ops).cluster.add c).connections → Together d c) ∧
    ∀ steps (c d : Connection), c.endpoint.label = none → d.endpoint.label = none →
      d ∈ (ReplicaRegistry.run steps).slaves → d ∉ ((ReplicaRegistry.run steps).add c).slaves → Together d c := by
  refine ⟨fun p q => Endpoint.identity_eq_iff, ?_, ?_, ?_, ?_⟩
  · intro conns hplain
    rw [Cluster.connections_foldl_add]
    exact exists_seats_by_place hplain
  · intro conns hplain
    have hslaves : conns.filter (·.nodeId ≠ Replication.masterId) = conns.filter (·.endpoint.label = none) := by
      refine List.filter_congr fun c hc => decide_eq_decide.2 ⟨(hplain c hc).resolve_right, fun hlabel => ?_⟩
      rw [Connection.nodeId_of_plain hlabel]
      exact c.endpoint.identity_ne_masterId
    rw [Replication.slaves_foldl_add, hslaves]
    exact exists_seats_by_place fun c hc => of_decide_eq_true (List.mem_filter.1 hc).2
  · intro net ops c d hc hd hmem hgone
    rw [Cluster.connections_add_eq (ClusterRouting.inv_run net ops Crc32.checksum).agrees.own] at hgone
    exact together_of_not_mem_put hmem hgone hc hd
  · intro steps c d hc hd hmem hgone
    rw [Replication.slaves_add_eq (ReplicaRegistry.registered_run steps)] at hgone
    split_ifs at hgone
    · exact absurd hmem hgone
    · exact together_of_not_mem_put hmem hgone hc hd

/-- Hosts with colons and brackets, one of them twice, and sockets without a path and with an empty one. -/
theorem place_law_brackets :
    let host (name : String) : Connection := { endpoint := { host := name, port := 1 } }
    let socket (path : Option String) : Connection := { endpoint := { scheme := .unix, path } }
    let master : Connection := { endpoint := { label := some "master" } }
    let conns := [host "::1", host "[::1]", socket none, host "a", host "a:1", socket (some ""), host "::1"]
    (∀ c ∈ conns, c.endpoint.label = none) ∧ (∀ c ∈ master :: conns, c.endpoint.label = none ∨ c.nodeId = "master") ∧
    (∃ seat, Keyed.Seats Together conns (conns.foldl Cluster.add {}).connections seat) ∧
    (∃ seat, Keyed.Seats Together conns ((master :: conns).foldl Replication.add {}).slaves seat) ∧
    (conns.foldl Cluster.add {}).connections.map Connection.identity =
      ["tcp://[::1]:1", "tcp://[[::1]]:1", "unix://", "tcp://a:1", "tcp://[a:1]:1"] := by
  intro host socket master conns
  have hplain : ∀ c ∈ conns, c.endpoint.label = none := by simp [conns, host, socket]
  have hmaster : ∀ c ∈ master :: conns, c.endpoint.label = none ∨ c.nodeId = "master" :=
    List.forall_mem_cons.2 ⟨.inr rfl, fun c hc => .inl (hplain c hc)⟩
  refine ⟨hplain, hmaster, place_law.2.1 conns hplain, place_law.2.2.1 (master :: conns) hmaster, ?_⟩
  rw [Cluster.connections_foldl_add]
  cbv

end RespClient
