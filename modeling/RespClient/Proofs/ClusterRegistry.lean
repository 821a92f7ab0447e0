/-
The members of a cluster and its ring: two stores of the same ids, changed by the same two operations.

- `Agrees`: ids are distinct, each is its connection's node id, and the ring holds the ids with the weights of their
  endpoints. `agrees_add`, `agrees_remove`: joining and leaving keep that; so does whatever leaves the `roster` alone.
- `Agrees.add?_eq`, `Agrees.remove?_eq`: with the usual number of replicas neither of them stops the program.
- `serves_eq`: a command is served by the node that the ring names, which is a member.
- `locate_eq_ok_iff`, `exists_locate_iff`: which member that is, and when there is one.
- `serves_congr`: who serves depends on the weights of the members only.
-/
import RespClient.Cluster
import RespClient.Proofs.Keyed
import RespClient.Proofs.RingHistory

namespace RespClient.Cluster

/-! ## Members and ring -/

/-- The ids of the members with their endpoints, in order. -/
def roster (c : Cluster) : List (String × Endpoint) := c.members.map fun m => (m.1, m.2.endpoint)

/-- The weight of a server. -/
def weightOf (e : Endpoint) : Nat := (e.weight.map UInt32.toNat).getD Ring.defaultWeight

/-- The ids of the members with their weights, in order. -/
def weights (c : Cluster) : List (String × Nat) := c.members.map fun m => (m.1, weightOf m.2.endpoint)

/-- Ids are distinct and each its connection's node id, and a ring of the given hash and the usual replicas holds them with
their weights. -/
structure Agrees (hash : Bytes → UInt32) (c : Cluster) : Prop where
  distinct : (c.members.map Prod.fst).Nodup
  own : ∀ m ∈ c.members, m.1 = m.2.nodeId
  nodes : c.ring.nodes = c.weights
  sound : c.ring.Sound
  hash : c.ring.hash = hash
  replicas : c.ring.replicas = Ring.defaultReplicas

variable {hash : Bytes → UInt32} {c c' : Cluster} {conn : Connection} {command : Command} {name : String}

theorem agrees_empty (hash : Bytes → UInt32) : Agrees hash { ring := .empty Ring.defaultReplicas hash } where
  distinct := List.nodup_nil
  own := List.forall_mem_nil _
  nodes := rfl
  sound := Ring.sound_empty ..
  hash := rfl
  replicas := rfl

namespace Agrees

/-- Only the ring and the roster matter. -/
theorem congr (hc : Agrees hash c) (hring : c'.ring = c.ring) (hroster : c'.roster = c.roster) : Agrees hash c' where
  distinct := by
    have hids : ∀ d : Cluster, d.members.map Prod.fst = d.roster.map Prod.fst := by
      intro d
      rw [roster, List.map_map]
      rfl
    rw [hids, hroster, ← hids]
    exact hc.distinct
  own m hm := by
    have hentry : (m.1, m.2.endpoint) ∈ c.roster := hroster ▸ List.mem_map_of_mem hm
    obtain ⟨d, hd, hsame⟩ := List.mem_map.1 hentry
    obtain ⟨hid, hend⟩ := Prod.mk.inj hsame
    rw [← hid, hc.own d hd, Connection.nodeId, hend]
    rfl
  nodes := by
    have hweights : ∀ d : Cluster, d.weights = d.roster.map fun m => (m.1, weightOf m.2) := by
      intro d
      rw [roster, List.map_map]
      rfl
    rw [hring, hweights, hroster, ← hweights]
    exact hc.nodes
  sound := hring ▸ hc.sound
  hash := hring ▸ hc.hash
  replicas := hring ▸ hc.replicas

theorem ids (hc : Agrees hash c) : c.ring.nodes.map Prod.fst = c.members.map Prod.fst := by
  rw [hc.nodes, weights, List.map_map]
  rfl

theorem contains (hc : Agrees hash c) (id : String) : c.ring.contains id = c.members.any (·.1 == id) := by
  rw [Ring.contains, hc.nodes, weights, List.any_map]
  rfl

end Agrees

/-! ## Joining and leaving -/

theorem members_add (c : Cluster) (conn : Connection) : (c.add conn).members =
    if c.members.any (·.1 == conn.nodeId) then
      c.members.map fun m => if m.1 == conn.nodeId then (conn.nodeId, conn) else m
    else c.members ++ [(conn.nodeId, conn)] := rfl

theorem ring_add (c : Cluster) (conn : Connection) :
    (c.add conn).ring = c.ring.add conn.nodeId (conn.endpoint.weight.map UInt32.toNat) := rfl

theorem distinct_add (hdistinct : (c.members.map Prod.fst).Nodup) (conn : Connection) :
    ((c.add conn).members.map Prod.fst).Nodup := by
  rw [members_add]
  split_ifs with hany
  · rw [List.map_map]
    have hsame : (Prod.fst ∘ fun m : String × Connection => if m.1 == conn.nodeId then (conn.nodeId, conn) else m) =
        Prod.fst := by
      funext m
      by_cases hid : m.1 = conn.nodeId <;> simp [hid]
    rw [hsame]
    exact hdistinct
  · have hnew : conn.nodeId ∉ c.members.map Prod.fst := by simpa using hany
    rw [List.map_append]
    exact List.nodup_append_comm.1 (List.nodup_cons.2 ⟨hnew, hdistinct⟩)

/-- Who joins stands under his node id. -/
theorem own_add (hown : ∀ m ∈ c.members, m.1 = m.2.nodeId) (conn : Connection) :
    ∀ m ∈ (c.add conn).members, m.1 = m.2.nodeId := by
  intro m hm
  rw [members_add] at hm
  split_ifs at hm with hany
  · obtain ⟨d, hd, rfl⟩ := List.mem_map.1 hm
    split_ifs with hid
    · rfl
    · exact hown d hd
  · rcases List.mem_append.1 hm with hm | hm
    · exact hown m hm
    · rw [List.mem_singleton.1 hm]

theorem agrees_add (hc : Agrees hash c) (conn : Connection) : Agrees hash (c.add conn) where
  distinct := distinct_add hc.distinct conn
  own := own_add hc.own conn
  nodes := by
    show c.ring.joined conn.nodeId _ = _
    rw [Ring.joined, hc.contains, weights, members_add]
    split_ifs with hany
    · rw [hc.nodes, weights, List.map_map, List.map_map]
      refine List.map_congr_left fun m _ => ?_
      by_cases hid : m.1 = conn.nodeId <;> simp [hid, weightOf]
    · rw [hc.nodes, weights, List.map_append]
      rfl
  sound := by
    rw [ring_add]
    exact hc.sound.add _ _
  hash := by
    rw [ring_add]
    exact (c.ring.hash_change (.add _ _)).trans hc.hash
  replicas := by
    rw [ring_add]
    exact (c.ring.replicas_change (.add _ _)).trans hc.replicas

/-- Nobody has the name, or the member at a place leaves. -/
theorem remove_cases (c : Cluster) (name : String) :
    c.remove name = (none, c) ∨ ∃ i : Fin c.members.length, c.find? name = some i ∧ c.remove name =
      (some (c.member i).2, { members := c.members.eraseIdx i, ring := c.ring.remove (c.member i).1 }) := by
  unfold remove
  cases hfind : c.find? name with
  | none => exact .inl rfl
  | some i => exact .inr ⟨i, rfl, rfl⟩

theorem own_remove (hown : ∀ m ∈ c.members, m.1 = m.2.nodeId) (name : String) :
    ∀ m ∈ (c.remove name).2.members, m.1 = m.2.nodeId := by
  rcases c.remove_cases name with h | ⟨i, -, h⟩
  · rw [h]
    exact hown
  · rw [h]
    exact fun m hm => hown m (List.mem_of_mem_eraseIdx hm)

theorem agrees_remove (hc : Agrees hash c) (name : String) : Agrees hash (c.remove name).2 := by
  have hown := own_remove hc.own name
  rcases c.remove_cases name with h | ⟨i, -, h⟩
  · rw [h]
    exact hc
  · rw [h] at hown ⊢
    have hcontains : c.ring.contains (c.member i).1 = true := by
      rw [hc.contains, List.any_eq_true]
      exact ⟨c.members[i], List.getElem_mem i.2, beq_self_eq_true _⟩
    refine ⟨?_, hown, ?_, hc.sound.remove _, ?_, ?_⟩
    · exact hc.distinct.sublist ((List.eraseIdx_sublist ..).map Prod.fst)
    · -- the place on the one side, the id on the other
      show (c.ring.remove (c.member i).1).nodes = (c.members.eraseIdx i).map _
      rw [Ring.remove, if_pos hcontains, Keyed.eraseIdx_eq_filter hc.distinct i.2]
      show c.ring.nodes.filter _ = _
      rw [hc.nodes, weights, List.filter_map]
      refine congrArg _ (List.filter_congr fun m _ => ?_)
      rw [Bool.eq_iff_iff, Function.comp_apply, bne_iff_ne, decide_eq_true_iff]
      exact Iff.rfl
    · exact (c.ring.hash_change (.remove _)).trans hc.hash
    · exact (c.ring.replicas_change (.remove _)).trans hc.replicas

/-! ## Nobody is stopped -/

namespace Agrees

/-- A weight is a 32-bit word, and so its product with the usual number of replicas fits. -/
theorem weightOf_fits (e : Endpoint) : Ring.defaultReplicas * weightOf e < UInt64.size := by
  have hweight : weightOf e < UInt32.size := by
    unfold weightOf
    cases e.weight with
    | none => decide
    | some w => exact w.toNat_lt_size
  unfold Ring.defaultReplicas
  unfold UInt32.size at hweight
  unfold UInt64.size
  omega

theorem fitting (hc : Agrees hash c) : c.ring.Fitting := by
  intro n hn
  rw [hc.nodes] at hn
  obtain ⟨m, -, rfl⟩ := List.mem_map.1 hn
  rw [hc.replicas]
  exact weightOf_fits m.2.endpoint

theorem add?_eq (hc : Agrees hash c) (conn : Connection) : c.add? conn = some (c.add conn) := by
  have hfits : (Ring.Change.add conn.nodeId (conn.endpoint.weight.map UInt32.toNat)).Fits c.ring.replicas := by
    rw [hc.replicas]
    exact weightOf_fits conn.endpoint
  have hring := (hc.fitting.change?_eq _).trans (if_pos hfits)
  exact congrArg (Option.map _) hring

theorem remove?_eq (hc : Agrees hash c) (name : String) : c.remove? name = some (c.remove name) := by
  unfold remove? remove
  cases c.find? name with
  | none => rfl
  | some i =>
    have hring := (hc.fitting.change?_eq (.remove (c.member i).1)).trans (if_pos trivial)
    exact congrArg (Option.map _) hring

end Agrees

/-! ## Who serves -/

/-- The id of the member that serves a command. -/
def serves (c : Cluster) (command : Command) : Except ClientError String :=
  (c.locate command).map fun i => (c.member i).1

theorem mem_ids_of_owner (hc : Agrees hash c) {h : UInt32} {node : String} (howner : c.ring.owner h = some node) :
    node ∈ c.members.map Prod.fst := by
  obtain ⟨p, hp, rfl⟩ := hc.sound.owner_eq_some_iff.1 howner
  obtain ⟨w, hw, -⟩ := hc.sound.mem_marks.1 hp.1
  rw [← hc.ids]
  exact List.mem_map_of_mem hw

/-- **The node that the ring names is a member and serves.** -/
theorem serves_eq (hc : Agrees hash c) (command : Command) : c.serves command =
    match command.routingKey with
    | none => .error (.notSupported (.overCluster command.id))
    | some key =>
      match c.ring.owner (hash key) with
      | none => .error (.configuration .emptyCluster)
      | some node => .ok node := by
  unfold serves locate locateKey
  cases hkey : command.routingKey with
  | none => rfl
  | some key =>
    simp only [Ring.ownerOf, hc.hash]
    cases howner : c.ring.owner (hash key) with
    | none => rfl
    | some node =>
      simp only
      cases hfind : c.members.findFinIdx? (·.1 == node) with
      | none =>
        obtain ⟨m, hm, hid⟩ := List.mem_map.1 (mem_ids_of_owner hc howner)
        exact absurd (beq_iff_eq.2 hid) (List.findFinIdx?_eq_none_iff.1 hfind m hm)
      | some i => exact congrArg _ (beq_iff_eq.1 (List.findFinIdx?_eq_some_iff.1 hfind).1)

/-- Distinct ids: the member is known by its id. -/
theorem locate_eq_ok_iff_serves (hc : Agrees hash c) {i : Fin c.members.length} :
    c.locate command = .ok i ↔ c.serves command = .ok (c.member i).1 := by
  unfold serves
  cases c.locate command with
  | error e => simp [Except.map]
  | ok j =>
    simp only [Except.map, Except.ok.injEq]
    exact ⟨fun hij => by rw [hij], fun hid => Fin.ext (Keyed.place_unique hc.distinct j.2 i.2 hid)⟩

theorem locate_eq_ok_iff (hc : Agrees hash c) {i : Fin c.members.length} : c.locate command = .ok i ↔
    ∃ key, command.routingKey = some key ∧ c.ring.owner (hash key) = some (c.member i).1 := by
  rw [locate_eq_ok_iff_serves hc, serves_eq hc]
  cases command.routingKey with
  | none => simp
  | some key =>
    simp only [Option.some.injEq, exists_eq_left']
    cases c.ring.owner (hash key) <;> simp

/-- There is a member to serve if there is a key and some member has a point. -/
theorem exists_locate_iff (hc : Agrees hash c) : (∃ i, c.locate command = .ok i) ↔
    command.routingKey.isSome ∧ ∃ m ∈ c.members, 0 < c.ring.pointCount m.1 := by
  have hpoints : ∀ h, (∃ m ∈ c.members, 0 < c.ring.pointCount m.1) ↔ c.ring.owner h ≠ none := by
    intro h
    rw [ne_eq, hc.sound.owner_eq_none_iff]
    constructor
    · rintro ⟨m, -, hm⟩ hempty
      obtain ⟨p, hp, -⟩ := Ring.pointCount_pos_iff.1 hm
      rw [hempty] at hp
      contradiction
    · intro hne
      obtain ⟨node, hnode⟩ := Option.ne_none_iff_exists'.1 (mt hc.sound.owner_eq_none_iff.1 hne : c.ring.owner h ≠ none)
      obtain ⟨m, hm, rfl⟩ := List.mem_map.1 (mem_ids_of_owner hc hnode)
      obtain ⟨p, hp, hid⟩ := hc.sound.owner_eq_some_iff.1 hnode
      exact ⟨m, hm, Ring.pointCount_pos_iff.2 ⟨p, hp.1, hid⟩⟩
  have hserves : (∃ i, c.locate command = .ok i) ↔ ∃ node, c.serves command = .ok node := by
    unfold serves
    cases c.locate command <;> simp [Except.map]
  rw [hserves, serves_eq hc]
  cases command.routingKey with
  | none => simp
  | some key =>
    rw [hpoints (hash key)]
    simp only
    cases c.ring.owner (hash key) <;> simp

/-- The ring knows members only. -/
theorem locate_ne_unknownNode (hc : Agrees hash c) (node : String) :
    c.locate command ≠ .error (.configuration (.unknownNode node)) := by
  intro hlocate
  have hserves : c.serves command = .error (.configuration (.unknownNode node)) := by
    rw [serves, hlocate]
    rfl
  rw [serves_eq hc] at hserves
  split at hserves
  · cases hserves
  · split at hserves <;> cases hserves

theorem locate_of_keyless (hkey : command.routingKey = none) :
    c.locate command = .error (.notSupported (.overCluster command.id)) := by
  rw [locate, hkey]
  rfl

/-- Equal weights, whatever the order: the same member serves. -/
theorem serves_congr (hc : Agrees hash c) (hc' : Agrees hash c') (hweights : ∀ n, n ∈ c.weights ↔ n ∈ c'.weights)
    (command : Command) : c.serves command = c'.serves command := by
  have howner : ∀ h, c.ring.owner h = c'.ring.owner h := by
    refine hc.sound.owner_congr hc'.sound (hc.sound.mem_marks_congr hc'.sound ?_ ?_ ?_)
    · rw [hc.hash, hc'.hash]
    · rw [hc.replicas, hc'.replicas]
    · rw [hc.nodes, hc'.nodes]
      exact hweights
  rw [serves_eq hc, serves_eq hc']
  simp only [howner]

end RespClient.Cluster
