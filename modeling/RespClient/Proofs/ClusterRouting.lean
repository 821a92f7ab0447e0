/-
A cluster in a world: the cluster, the connections that its user holds beside it, and the network. Members join, serve
and leave; the user works with the connections he holds, and with members that a lookup handed out to him.

- `inv_run`: at any time members and ring agree, and each channel belongs to one connection.
- `World.Serves`: what serving a command does; it concerns the member it goes to, his channel and those he opens.
- `World.Law`: who serves a command, and that nothing happens where nobody does.
- `cluster_law`: that holds over every run, and runs that end with the same weights route alike. The hash of the ring can be
  any; a run is of the usual one unless another is given.
-/
import RespClient.Proofs.ClusterRegistry
import RespClient.Proofs.KeyTags
import RespClient.Proofs.Ownership

namespace RespClient.ClusterRouting

open ReplicaRouting (Use Apart)
open Cluster (Agrees)

/-! ## Runs -/

inductive Op where
  /-- a new connection, which the user holds -/
  | create (e : Endpoint)
  | use (k : Nat) (u : Use)
  /-- the i-th member is handed out and used -/
  | work (i : Nat) (u : Use)
  /-- the k-th connection held joins the cluster -/
  | add (k : Nat)
  | remove (name : String)
  | connect
  | disconnect
  | write (command : Command)
  | read (command : Command)
  | execute (command : Command)
  | executeOn (name : String) (command : Command)

structure World where
  cluster : Cluster := {}
  /-- the connections that the user holds -/
  free : List Connection := []
  net : Network

namespace World

/-- The world after an operation of the cluster. -/
def after {α : Type} (w : World) (o : Outcome Cluster α) : World := { w with cluster := o.state, net := o.network }

/-- The world after something was done with a member. -/
def put (w : World) (i : Fin w.cluster.members.length) (conn : Connection) (net : Network) : World :=
  { w with cluster.members := w.cluster.members.set i ((w.cluster.member i).1, conn), net }

def step (w : World) : Op → World
  | .create e => { w with free := w.free ++ [{ endpoint := e }] }
  | .use k u =>
    match w.free[k]? with
    | none => w
    | some c => { w with free := w.free.set k (u.apply c w.net).1, net := (u.apply c w.net).2 }
  | .work i u =>
    if h : i < w.cluster.members.length then
      w.put ⟨i, h⟩ (u.apply (w.cluster.member ⟨i, h⟩).2 w.net).1 (u.apply (w.cluster.member ⟨i, h⟩).2 w.net).2
    else w
  | .add k =>
    match w.free[k]? with
    | none => w
    | some c => { w with cluster := w.cluster.add c, free := w.free.eraseIdx k }
  | .remove name =>
    { w with cluster := (w.cluster.remove name).2, free := w.free ++ (w.cluster.remove name).1.toList }
  | .connect => w.after (w.cluster.connect w.net)
  | .disconnect => { w with cluster := w.cluster.disconnect }
  | .write command => w.after (w.cluster.write command w.net)
  | .read command => w.after (w.cluster.read command w.net)
  | .execute command => w.after (w.cluster.execute command w.net)
  | .executeOn name command => w.after (w.cluster.executeOn name command w.net)

end World

/-- The world of an empty cluster after some operations. -/
def run (net : Network) (ops : List Op) (hash : Bytes → UInt32 := Crc32.checksum) : World :=
  ops.foldl World.step { cluster := { ring := .empty Ring.defaultReplicas hash }, net }

theorem run_snoc (net : Network) (ops : List Op) (op : Op) (hash : Bytes → UInt32) :
    run net (ops ++ [op]) hash = (run net ops hash).step op := by
  unfold run
  rw [List.foldl_append, List.foldl_cons, List.foldl_nil]

end RespClient.ClusterRouting

namespace RespClient.Cluster

open ReplicaRouting (Apart)

/-! ## Members -/

def connections (c : Cluster) : List Connection := c.members.map Prod.snd

/-- The connections of the members but one. -/
def others (c : Cluster) (i : Fin c.members.length) : List Connection := (c.members.eraseIdx i).map Prod.snd

variable {c : Cluster}

theorem connections_split (c : Cluster) (i : Fin c.members.length) :
    c.connections.Perm ((c.member i).2 :: c.others i) :=
  (List.getElem_cons_eraseIdx_perm i.2).symm.map Prod.snd

theorem connections_set (c : Cluster) (i : Fin c.members.length) (conn : Connection) :
    ((c.members.set i ((c.member i).1, conn)).map Prod.snd).Perm (conn :: c.others i) :=
  (List.set_perm_cons_eraseIdx i.2 _).map Prod.snd

theorem mem_others {i j : Fin c.members.length} (h : j ≠ i) : (c.member j).2 ∈ c.others i := by
  refine List.mem_map_of_mem (List.mem_eraseIdx_iff_getElem?.2 ⟨j, fun hij => h (Fin.ext hij), ?_⟩)
  exact List.getElem?_eq_getElem j.2

/-- Who joins takes a place, and the one who had it is gone. -/
theorem connections_add (hdistinct : (c.members.map Prod.fst).Nodup) (conn : Connection) :
    ∃ rest, rest.Sublist c.connections ∧ (c.add conn).connections.Perm (conn :: rest) := by
  unfold connections
  rw [members_add]
  by_cases hany : c.members.any (·.1 == conn.nodeId) = true
  · obtain ⟨m, hm, hid⟩ := List.any_eq_true.1 hany
    obtain ⟨i, hi, rfl⟩ := List.getElem_of_mem hm
    have hid : c.members[i].1 = conn.nodeId := beq_iff_eq.1 hid
    have hset : (c.members.map fun m => if m.1 == conn.nodeId then (conn.nodeId, conn) else m) =
        c.members.set i (c.members[i].1, conn) := by
      rw [Keyed.set_eq_map hdistinct hi, hid]
      simp only [beq_iff_eq]
    rw [if_pos hany, hset]
    exact ⟨c.others ⟨i, hi⟩, (List.eraseIdx_sublist ..).map Prod.snd, c.connections_set ⟨i, hi⟩ conn⟩
  · rw [if_neg hany, List.map_append]
    exact ⟨_, .refl _, List.perm_append_singleton conn _⟩

/-- Nobody gets lost by leaving. -/
theorem connections_remove (c : Cluster) (name : String) :
    ((c.remove name).1.toList ++ (c.remove name).2.connections).Perm c.connections := by
  rcases c.remove_cases name with h | ⟨i, -, h⟩
  · rw [h]
    exact .refl _
  · rw [h]
    exact (c.connections_split i).symm

theorem roster_set (c : Cluster) (i : Fin c.members.length) {conn : Connection}
    (hend : conn.endpoint = (c.member i).2.endpoint) :
    ({ c with members := c.members.set i ((c.member i).1, conn) } : Cluster).roster = c.roster := by
  unfold roster
  rw [List.map_set, hend]
  refine List.ext_getElem (by simp) fun j hj _ => ?_
  rw [List.getElem_set]
  split_ifs with hij
  · subst hij
    rw [List.getElem_map]
    rfl
  · rfl

/-! ## Opening all -/

/-- The first member acts, and then perhaps the others; he may be closed again. -/
theorem connectAll_cons (m : String × Connection) (ms : List (String × Connection)) (net : Network) :
    ∃ conn net₁, Conducts m.2.setup m.2 net conn net₁ ∧
      ((connectAll (m :: ms) net).state = (m.1, conn) :: ms ∧ (connectAll (m :: ms) net).network = net₁ ∨
       ∃ last, (last = conn ∨ last = conn.disconnect) ∧
        (connectAll (m :: ms) net).state = (m.1, last) :: (connectAll ms net₁).state ∧
        (connectAll (m :: ms) net).network = (connectAll ms net₁).network) := by
  by_cases hopen : m.2.isConnected = true
  · refine ⟨m.2, net, .refl _ _ _, .inr ⟨m.2, .inl rfl, ?_⟩⟩
    simp only [connectAll, if_pos hopen]
    exact ⟨rfl, rfl⟩
  · refine ⟨_, _, m.2.connect_conducts net, ?_⟩
    simp only [connectAll, if_neg hopen]
    cases (m.2.connect net).result with
    | error e => exact .inl ⟨rfl, rfl⟩
    | ok _ =>
      right
      simp only
      cases (connectAll ms (m.2.connect net).network).result with
      | ok _ => exact ⟨_, .inl rfl, rfl, rfl⟩
      | error e => exact ⟨_, .inr rfl, rfl, rfl⟩

theorem roster_connectAll (ms : List (String × Connection)) (net : Network) :
    ((connectAll ms net).state.map fun m => (m.1, m.2.endpoint)) = ms.map fun m => (m.1, m.2.endpoint) := by
  induction ms generalizing net with
  | nil => rfl
  | cons m ms ih =>
    obtain ⟨conn, net₁, hcond, ⟨hstate, -⟩ | ⟨last, hlast, hstate, -⟩⟩ := connectAll_cons m ms net
    · rw [hstate, List.map_cons, hcond.endpoint, List.map_cons]
    · have hend : last.endpoint = m.2.endpoint := by
        rcases hlast with rfl | rfl <;> exact hcond.endpoint
      rw [hstate, List.map_cons, hend, ih, List.map_cons]

theorem apart_connectAll {ms : List (String × Connection)} {rest : List Connection} {net : Network}
    (h : Apart net (ms.map Prod.snd ++ rest)) :
    Apart (connectAll ms net).network ((connectAll ms net).state.map Prod.snd ++ rest) := by
  induction ms generalizing rest net with
  | nil => exact h
  | cons m ms ih =>
    obtain ⟨conn, net₁, hcond, hcases⟩ := connectAll_cons m ms net
    have hfirst : Apart net₁ (conn :: (ms.map Prod.snd ++ rest)) := h.reaches hcond.toReaches
    rcases hcases with ⟨hstate, hnet⟩ | ⟨last, hlast, hstate, hnet⟩
    · rw [hstate, hnet]
      exact hfirst
    · have hafter := (ih (hfirst.perm List.perm_middle.symm)).perm List.perm_middle
      rw [hstate, hnet]
      rcases hlast with rfl | rfl
      · exact hafter
      · exact (hafter.sublist (List.sublist_cons_self ..)).cons_closed rfl

/-! ## Routing -/

variable {α : Type} {op : Connection → Network → Outcome Connection α} {command : Command} {net : Network}

theorem route_of_error {e : ClientError} (h : c.locate command = .error e) :
    c.route command op net = ⟨.error e, c, net⟩ := by
  unfold route
  rw [h]

theorem route_of_ok {i : Fin c.members.length} (h : c.locate command = .ok i) :
    c.route command op net = c.onMember i op net := by
  unfold route
  rw [h]

end RespClient.Cluster

namespace RespClient.ClusterRouting

open ReplicaRouting (Use Apart)
open Cluster (Agrees)

/-! ## Acting -/

/-- The command that an operation routes, and what is to be done with the member it goes to. -/
def Op.routed? : Op → Option (Command × Use)
  | .write command => some (command, .write command)
  | .read command => some (command, .read)
  | .execute command => some (command, .execute command)
  | _ => none

namespace World

/-- Every connection of the world. -/
def connections (w : World) : List Connection := w.cluster.connections ++ w.free

/-- At any time members and ring agree, and each channel belongs to one connection. -/
structure Inv (hash : Bytes → UInt32) (w : World) : Prop where
  agrees : Agrees hash w.cluster
  apart : Apart w.net w.connections

variable {hash : Bytes → UInt32} {w w' : World} {op : Op} {command : Command} {u : Use}
  {i : Fin w.cluster.members.length} {commands : List Command} {id : ChannelId}

/-- An operation that routes does with the member what its use does. -/
theorem step_route (w : World) (hop : op.routed? = some (command, u)) :
    ∃ (α : Type) (f : Connection → Network → Outcome Connection α),
      (∀ c net, ((f c net).state, (f c net).network) = u.apply c net) ∧
      w.step op = w.after (w.cluster.route command f w.net) := by
  cases op with
  | write sent =>
    cases hop
    exact ⟨Unit, Connection.write command, fun _ _ => rfl, rfl⟩
  | read asked =>
    cases hop
    exact ⟨Reply, Connection.read, fun _ _ => rfl, rfl⟩
  | execute sent =>
    cases hop
    exact ⟨Reply, Connection.execute command, fun _ _ => rfl, rfl⟩
  | _ => contradiction

/-- Routing is to use the member that the command goes to. -/
theorem step_routed (hop : op.routed? = some (command, u)) (hi : w.cluster.locate command = .ok i) :
    w.step op = w.put i (u.apply (w.cluster.member i).2 w.net).1 (u.apply (w.cluster.member i).2 w.net).2 := by
  obtain ⟨α, f, hf, hstep⟩ := w.step_route hop
  rw [hstep, Cluster.route_of_ok hi, ← hf]
  rfl

theorem step_refused {e : ClientError} (hop : op.routed? = some (command, u))
    (he : w.cluster.locate command = .error e) : w.step op = w := by
  obtain ⟨α, f, -, hstep⟩ := w.step_route hop
  rw [hstep, Cluster.route_of_error he]
  rfl

theorem conducts_routed (hop : op.routed? = some (command, u)) (c : Connection) (net : Network) :
    Conducts (command :: c.setup) c net (u.apply c net).1 (u.apply c net).2 := by
  cases op with
  | write sent =>
    cases hop
    exact c.write_conducts command net
  | read asked =>
    cases hop
    exact (c.read_conducts net).mono (List.subset_cons_self _ _)
  | execute sent =>
    cases hop
    exact c.execute_conducts command net
  | _ => contradiction

/-! ## At any time -/

namespace Inv

theorem put (h : Inv hash w) {conn : Connection} {net : Network}
    (hreach : Reaches commands (w.cluster.member i).2 w.net conn net)
    (hend : conn.endpoint = (w.cluster.member i).2.endpoint) : Inv hash (w.put i conn net) where
  agrees := h.agrees.congr rfl (w.cluster.roster_set i hend)
  apart := by
    have hbefore := h.apart.perm ((w.cluster.connections_split i).append_right w.free)
    exact (hbefore.reaches hreach).perm ((w.cluster.connections_set i conn).append_right w.free).symm

theorem use_member (h : Inv hash w) (i : Fin w.cluster.members.length) (u : Use) :
    Inv hash (w.put i (u.apply (w.cluster.member i).2 w.net).1 (u.apply (w.cluster.member i).2 w.net).2) := by
  obtain ⟨commands, hreach⟩ := u.reaches (w.cluster.member i).2 w.net
  exact h.put hreach (u.endpoint _ _)

theorem routed (h : Inv hash w) (hop : op.routed? = some (command, u)) : Inv hash (w.step op) := by
  cases hlocate : w.cluster.locate command with
  | error e =>
    rw [step_refused hop hlocate]
    exact h
  | ok i =>
    rw [step_routed hop hlocate]
    exact h.use_member i u

/-- The user has one connection in his hand. -/
theorem apart_hand (h : Inv hash w) {k : Nat} (hk : k < w.free.length) :
    Apart w.net (w.free[k] :: (w.cluster.connections ++ w.free.eraseIdx k)) :=
  h.apart.perm (((List.getElem_cons_eraseIdx_perm hk).symm.append_left _).trans List.perm_middle)

theorem use (h : Inv hash w) (k : Nat) (u : Use) : Inv hash (w.step (.use k u)) := by
  cases hc : w.free[k]? with
  | none =>
    simp only [step, hc]
    exact h
  | some c =>
    simp only [step, hc]
    obtain ⟨hk, rfl⟩ := List.getElem?_eq_some_iff.1 hc
    obtain ⟨commands, hreach⟩ := u.reaches w.free[k] w.net
    refine ⟨h.agrees, ((h.apart_hand hk).reaches hreach).perm ?_⟩
    exact List.perm_middle.symm.trans ((List.set_perm_cons_eraseIdx hk _).symm.append_left _)

theorem add (h : Inv hash w) (k : Nat) : Inv hash (w.step (.add k)) := by
  cases hc : w.free[k]? with
  | none =>
    simp only [step, hc]
    exact h
  | some c =>
    simp only [step, hc]
    obtain ⟨hk, rfl⟩ := List.getElem?_eq_some_iff.1 hc
    obtain ⟨rest, hrest, hperm⟩ := Cluster.connections_add h.agrees.distinct w.free[k]
    refine ⟨Cluster.agrees_add h.agrees _, ?_⟩
    exact ((h.apart_hand hk).sublist ((hrest.append_right _).cons_cons _)).perm (hperm.append_right _).symm

theorem remove (h : Inv hash w) (name : String) : Inv hash (w.step (.remove name)) where
  agrees := Cluster.agrees_remove h.agrees name
  apart := by
    have hperm := (w.cluster.connections_remove name).symm.append_right w.free
    rw [List.append_assoc] at hperm
    refine h.apart.perm (hperm.trans (List.perm_append_comm.trans (.of_eq ?_)))
    exact List.append_assoc _ _ _

end Inv

/-- **No operation breaks the invariant.** -/
theorem inv_step (h : Inv hash w) (op : Op) : Inv hash (w.step op) := by
  cases op with
  | create e =>
    have hnew := h.apart.cons_closed (c := { endpoint := e }) rfl
    exact ⟨h.agrees, hnew.perm ((List.perm_append_singleton _ _).symm.trans (.of_eq (List.append_assoc _ _ _)))⟩
  | use k u => exact h.use k u
  | work i u =>
    simp only [step]
    split_ifs with hi
    · exact h.use_member ⟨i, hi⟩ u
    · exact h
  | add k => exact h.add k
  | remove name => exact h.remove name
  | connect =>
    refine ⟨h.agrees.congr rfl (Cluster.roster_connectAll _ _), ?_⟩
    exact Cluster.apart_connectAll h.apart
  | disconnect =>
    refine ⟨h.agrees.congr rfl ?_, ?_⟩
    · show ((w.cluster.members.map fun m => (m.1, m.2.disconnect)).map fun m => (m.1, m.2.endpoint)) = _
      rw [List.map_map]
      rfl
    · have hfree : Apart w.net w.free := h.apart.sublist (List.sublist_append_right _ _)
      refine hfree.append_closed fun c hc => ?_
      obtain ⟨m, hm, rfl⟩ := List.mem_map.1 hc
      obtain ⟨d, -, rfl⟩ := List.mem_map.1 hm
      rfl
  | write command => exact h.routed rfl
  | read command => exact h.routed rfl
  | execute command => exact h.routed rfl
  | executeOn name command =>
    simp only [step, Cluster.executeOn]
    cases w.cluster.find? name with
    | none => exact h
    | some i => exact h.use_member i (.execute command)

end World

theorem inv_run (net : Network) (ops : List Op) (hash : Bytes → UInt32) : (run net ops hash).Inv hash := by
  induction ops using List.reverseRecOn with
  | nil => exact ⟨Cluster.agrees_empty hash, List.forall_mem_nil _, .nil⟩
  | append_singleton ops op ih =>
    rw [run_snoc]
    exact World.inv_step ih op

/-! ## What one step obeys -/

namespace World

/-- A command was served by the member at a place: it did what it does when used, on its own channel or on new ones to its
server, and nothing else is different. -/
structure Serves (w : World) (i : Fin w.cluster.members.length) (command : Command) (u : Use) (w' : World) : Prop where
  own : w' = w.put i (u.apply (w.cluster.member i).2 w.net).1 (u.apply (w.cluster.member i).2 w.net).2
  touched : ∀ id, w'.net.channel? id ≠ w.net.channel? id → (w.cluster.member i).2.channel = some id ∨
    w.net.channel? id = none ∧ id.address = (w.cluster.member i).2.endpoint.address
  others : ∀ j ≠ i, ∀ id, (w.cluster.member j).2.channel = some id → w'.net.channel? id = w.net.channel? id
  frames : ∀ id, ∃ sent : List Command, sent ⊆ command :: (w.cluster.member i).2.setup ∧
    w'.net.frames id = w.net.frames id ++ sent.map Command.frame

/-- What holds of every world that a run leads to. -/
structure Law (hash : Bytes → UInt32) (w : World) : Prop where
  agrees : Agrees hash w.cluster
  /-- nobody who joins stops the program, and nobody who leaves -/
  joins : ∀ conn, w.cluster.add? conn = some (w.cluster.add conn)
  leaves : ∀ name, w.cluster.remove? name = some (w.cluster.remove name)
  /-- the member whose id owns the hash of the routing key -/
  located : ∀ command i, w.cluster.locate command = .ok i ↔
    ∃ key, command.routingKey = some key ∧ w.cluster.ring.owner (hash key) = some (w.cluster.member i).1
  located_iff : ∀ command, (∃ i, w.cluster.locate command = .ok i) ↔
    command.routingKey.isSome ∧ ∃ m ∈ w.cluster.members, 0 < w.cluster.ring.pointCount m.1
  known : ∀ command node, w.cluster.locate command ≠ .error (.configuration (.unknownNode node))
  keyless : ∀ command : Command, command.routingKey = none ↔
    command.keys = [] ∨ ∃ key ∈ command.keys, ∃ key' ∈ command.keys, keyTag key ≠ keyTag key'
  unserved : ∀ command, command.routingKey = none →
    w.cluster.locate command = .error (.notSupported (.overCluster command.id))
  served : ∀ op command u i, op.routed? = some (command, u) → w.cluster.locate command = .ok i →
    w.Serves i command u (w.step op)
  refused : ∀ command e, w.cluster.locate command = .error e →
    w.cluster.write command w.net = ⟨.error e, w.cluster, w.net⟩ ∧
    w.cluster.read command w.net = ⟨.error e, w.cluster, w.net⟩ ∧
    w.cluster.execute command w.net = ⟨.error e, w.cluster, w.net⟩

variable {hash : Bytes → UInt32} {w : World} {op : Op} {command : Command} {u : Use}
  {i : Fin w.cluster.members.length}

theorem serves_routed (h : Inv hash w) (hop : op.routed? = some (command, u)) (hi : w.cluster.locate command = .ok i) :
    w.Serves i command u (w.step op) := by
  have hcond := conducts_routed hop (w.cluster.member i).2 w.net
  rw [step_routed hop hi]
  refine ⟨rfl, ?_, ?_, hcond.frames⟩
  · intro id hid
    cases hold : w.net.channel? id with
    | none =>
      rw [hold] at hid
      exact .inr ⟨rfl, hcond.opened id hold (Option.isSome_iff_ne_none.2 hid)⟩
    | some ch =>
      refine .inl ?_
      by_contra hne
      exact hid (hcond.others id hne (by rw [hold]; rfl))
  · intro j hj id hid
    have hsplit := h.apart.perm ((w.cluster.connections_split i).append_right w.free)
    exact hsplit.untouched hcond.toReaches (List.mem_append_left _ (Cluster.mem_others hj)) hid

theorem law (h : Inv hash w) : w.Law hash where
  agrees := h.agrees
  joins := h.agrees.add?_eq
  leaves := h.agrees.remove?_eq
  located _ _ := Cluster.locate_eq_ok_iff h.agrees
  located_iff _ := Cluster.exists_locate_iff h.agrees
  known _ node := Cluster.locate_ne_unknownNode h.agrees node
  keyless _ := Command.routingKey_eq_none_iff
  unserved _ := Cluster.locate_of_keyless
  served _ _ _ _ := serves_routed h
  refused _ _ he := ⟨Cluster.route_of_error he, Cluster.route_of_error he, Cluster.route_of_error he⟩

end World

/-- **The cluster law.** Over every run, whatever the hash, members and ring agree; a command with a routing key is served by
the member whose id owns the key's hash, if any member has a point, and by him alone; a command without one is refused and
changes nothing. Two runs that end with the same ids and weights have every command served under the same id. -/
theorem cluster_law (hash : Bytes → UInt32) (net net' : Network) (ops ops' : List Op) :
    (run net ops hash).Law hash ∧
    ((∀ n, n ∈ (run net ops hash).cluster.weights ↔ n ∈ (run net' ops' hash).cluster.weights) →
      ∀ command, (run net ops hash).cluster.serves command = (run net' ops' hash).cluster.serves command) := by
  have h := inv_run net ops hash
  have h' := inv_run net' ops' hash
  exact ⟨World.law h, fun hweights command => Cluster.serves_congr h.agrees h'.agrees hweights command⟩

/-- Two ways to two servers, the second in the other order and with a third one that leaves again; the hash is the usual
one. -/
theorem cluster_law_detour :
    let create (name : String) : Op := .create { label := some name, weight := some 1 }
    let w := run ⟨[]⟩ [create "a", create "b", .add 0, .add 0]
    let w' := run ⟨[]⟩ [create "b", create "c", create "a", .add 1, .add 0, .remove "c", .add 0]
    let get : Command := { spec := .named "get" .first .read, arguments := [[107]] }
    (∀ command, w.cluster.serves command = w'.cluster.serves command) ∧ ∃ i, w.cluster.locate get = .ok i := by
  intro create w w' get
  have hweights : w.cluster.weights = [("a", 1), ("b", 1)] := by decide
  have hweights' : w'.cluster.weights = [("b", 1), ("a", 1)] := by decide
  obtain ⟨hlaw, hsame⟩ := cluster_law Crc32.checksum ⟨[]⟩ ⟨[]⟩ [create "a", create "b", .add 0, .add 0]
    [create "b", create "c", create "a", .add 1, .add 0, .remove "c", .add 0]
  refine ⟨hsame fun n => ?_, (hlaw.located_iff get).2 ⟨by decide, ?_⟩⟩
  · rw [hweights, hweights']
    exact (List.Perm.swap ("b", 1) ("a", 1) []).mem_iff
  · have hnode : ("a", 1) ∈ w.cluster.ring.nodes := by
      rw [hlaw.agrees.nodes, hweights]
      exact List.mem_cons_self
    obtain ⟨m, hm, hid⟩ : ∃ m ∈ w.cluster.members, m.1 = "a" := by decide
    refine ⟨m, hm, ?_⟩
    rw [hid, hlaw.agrees.sound.pointCount_eq_share hnode, Ring.share, hlaw.agrees.replicas]
    decide

end RespClient.ClusterRouting
