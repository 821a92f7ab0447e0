/-
A client in a world: the client, the connections that its user holds beside it, and the network. Its topology is any of the
three kinds; the user works with the topology behind it as well, and with members that were handed out to him.

- `Inv`: each channel belongs to one connection, and the ids of a cluster's members are distinct.
- `Inv.perform`: whatever finds a member and runs there keeps that; so executing does, with all its attempts.
- `inv_run`: it is so at any time.
-/
import RespClient.Proofs.Places

namespace RespClient

open ReplicaRouting (Use Apart)

namespace Topology

/-! ## Joining and leaving -/

/-- A connection joins. Single servers have no members to join. -/
def add? (conn : Connection) : Topology → Option Topology
  | .single _ => none
  | .cluster c => some (.cluster (c.add conn))
  | .replication r => some (.replication (r.add conn))

/-- The member that a name stands for leaves. -/
def remove (name : String) : Topology → Option Connection × Topology
  | .single conn => (none, .single conn)
  | .cluster c => ((c.remove name).1, .cluster (c.remove name).2)
  | .replication r => ((r.remove name).1, .replication (r.remove name).2)

def switchTo (name : String) : Topology → Topology
  | .replication r => .replication (r.switchTo name).2
  | t => t

def setRule (id : String) (rule : ReadRule) : Topology → Topology
  | .replication r => .replication (r.setRule id rule)
  | t => t

/-- The ids that the members of a cluster stand under. -/
def ids : Topology → List String
  | .cluster c => c.members.map Prod.fst
  | _ => []

variable {t t' : Topology} {p : Place} {conn : Connection} {name : String} {net : Network} {free : List Connection}

theorem connections_add? (hdistinct : t.ids.Nodup) (h : t.add? conn = some t') :
    ∃ rest, rest.Sublist t.connections ∧ t'.connections.Perm (conn :: rest) := by
  cases t with
  | single c => cases h
  | cluster c =>
    obtain rfl := Option.some.inj h
    exact Cluster.connections_add hdistinct conn
  | replication r =>
    obtain rfl := Option.some.inj h
    exact r.members_add conn

theorem distinct_add? (hdistinct : t.ids.Nodup) (h : t.add? conn = some t') : t'.ids.Nodup := by
  cases t with
  | single c => cases h
  | cluster c =>
    obtain rfl := Option.some.inj h
    exact Cluster.distinct_add hdistinct conn
  | replication r =>
    obtain rfl := Option.some.inj h
    exact List.nodup_nil

theorem connections_remove (t : Topology) (name : String) :
    ((t.remove name).1.toList ++ (t.remove name).2.connections).Perm t.connections := by
  cases t with
  | single c => exact .refl _
  | cluster c => exact c.connections_remove name
  | replication r => exact r.members_remove name

theorem ids_remove (t : Topology) (name : String) : (t.remove name).2.ids.Sublist t.ids := by
  cases t with
  | cluster c =>
    rcases c.remove_cases name with h | ⟨i, -, h⟩
    · simp only [remove, h]
      exact .refl _
    · simp only [remove, h]
      exact (List.eraseIdx_sublist _ _).map Prod.fst
  | _ => exact .refl _

theorem connections_switchTo (t : Topology) (name : String) : (t.switchTo name).connections = t.connections := by
  cases t with
  | replication r =>
    simp only [switchTo, Replication.switchTo]
    split <;> rfl
  | _ => rfl

theorem ids_switchTo (t : Topology) (name : String) : (t.switchTo name).ids = t.ids := by
  cases t <;> rfl

theorem connections_setRule (t : Topology) (id : String) (rule : ReadRule) :
    (t.setRule id rule).connections = t.connections := by
  cases t <;> rfl

theorem ids_setRule (t : Topology) (id : String) (rule : ReadRule) : (t.setRule id rule).ids = t.ids := by
  cases t <;> rfl

/-! ## Other operations -/

theorem ids_setMember (t : Topology) (p : Place) (conn : Connection) : (t.setMember p conn).ids = t.ids := by
  cases t with
  | cluster c => cases p with
    | node i =>
      simp only [setMember, ids]
      refine List.ext_getElem (by simp) fun j _ _ => ?_
      simp only [List.getElem_map, List.getElem_modify]
      split_ifs <;> rfl
    | _ => rfl
  | single c => cases p <;> rfl
  | replication r => cases p <;> rfl

theorem ids_route (t : Topology) (target : Option String) (command : Command) :
    (t.route target command).2.ids = t.ids := by
  rcases t.route_cases target command with h | ⟨r, current, turn, rfl, h⟩ <;> rw [h]
  rfl

theorem ids_connect (t : Topology) (net : Network) : (t.connect net).state.ids = t.ids := by
  cases t with
  | cluster c =>
    have hids : ∀ ms : List (String × Connection), ms.map Prod.fst =
        (ms.map fun m => (m.1, m.2.endpoint)).map Prod.fst := by
      intro ms
      rw [List.map_map]
      rfl
    show (Cluster.connectAll c.members net).state.map Prod.fst = c.members.map Prod.fst
    rw [hids, Cluster.roster_connectAll, ← hids]
  | _ => rfl

theorem ids_disconnect (t : Topology) : t.disconnect.ids = t.ids := by
  cases t with
  | cluster c =>
    simp only [disconnect, Cluster.disconnect, ids, List.map_map]
    rfl
  | _ => rfl

theorem apart_connect (h : Apart net (t.connections ++ free)) :
    Apart (t.connect net).network ((t.connect net).state.connections ++ free) := by
  cases t with
  | single c => exact Apart.reaches h (c.connect_conducts net).toReaches
  | cluster c => exact Cluster.apart_connectAll h
  | replication r => exact ReplicaRouting.World.apart_step (w := ⟨r, free, net⟩) h .connect

theorem channel_of_mem_disconnect (h : conn ∈ t.disconnect.connections) : conn.channel = none := by
  cases t with
  | single c =>
    obtain rfl := List.mem_singleton.1 h
    rfl
  | cluster c =>
    obtain ⟨m, hm, rfl⟩ := List.mem_map.1 h
    obtain ⟨d, -, rfl⟩ := List.mem_map.1 hm
    rfl
  | replication r => exact Replication.channel_of_mem_disconnect h

end Topology

namespace ClientRuns

/-! ## Runs -/

/-- What a client is made of in the beginning. -/
inductive Kind where
  | single (e : Endpoint)
  | cluster (ring : Ring)
  | replication

/-- A topology with which nothing was done yet. -/
def Kind.topology : Kind → Topology
  | .single e => .single { endpoint := e }
  | .cluster ring => .cluster { ring }
  | .replication => .replication {}

inductive Op where
  /-- a new connection, which the user holds -/
  | create (e : Endpoint)
  | use (k : Nat) (u : Use)
  /-- a member is handed out and used -/
  | work (p : Place) (u : Use)
  /-- the member that is to serve a command is asked for -/
  | choose (command : Command)
  /-- the k-th connection held joins the topology -/
  | add (k : Nat)
  | remove (name : String)
  | switchTo (name : String)
  | setRule (id : String) (rule : ReadRule)
  | connect
  | disconnect
  /-- the topology writes, reads and executes, without the client -/
  | write (command : Command)
  | read (command : Command)
  | execute (target : Option String) (command : Command)
  | define (spec : CommandSpec)
  | run (target : Option String) (command : Command)

structure World where
  client : Client
  /-- the connections that the user holds -/
  free : List Connection := []
  net : Network

namespace World

def topology (w : World) : Topology := w.client.topology

/-- The world after an operation of the client. -/
def after {α : Type} (w : World) (o : Outcome Client α) : World := { w with client := o.state, net := o.network }

/-- The world after an operation of the topology. -/
def put {α : Type} (w : World) (o : Outcome Topology α) : World :=
  { w with client := w.client.setTopology o.state, net := o.network }

def step (w : World) : Op → World
  | .create e => { w with free := w.free ++ [{ endpoint := e }] }
  | .use k u =>
    match w.free[k]? with
    | none => w
    | some c => { w with free := w.free.set k (u.apply c w.net).1, net := (u.apply c w.net).2 }
  | .work p u =>
    match w.topology.member? p with
    | none => w
    | some c =>
      { w with client := w.client.setTopology (w.topology.setMember p (u.apply c w.net).1), net := (u.apply c w.net).2 }
  | .choose command => { w with client := w.client.setTopology (w.topology.route none command).2 }
  | .add k =>
    match w.free[k]? with
    | none => w
    | some c =>
      match w.topology.add? c with
      | none => w
      | some t => { w with client := w.client.setTopology t, free := w.free.eraseIdx k }
  | .remove name =>
    { w with
      client := w.client.setTopology (w.topology.remove name).2
      free := w.free ++ (w.topology.remove name).1.toList }
  | .switchTo name => { w with client := w.client.setTopology (w.topology.switchTo name) }
  | .setRule id rule => { w with client := w.client.setTopology (w.topology.setRule id rule) }
  | .connect => w.after (w.client.connect w.net)
  | .disconnect => { w with client := w.client.disconnect }
  | .write command => w.put (w.topology.write command w.net)
  | .read command => w.put (w.topology.read command w.net)
  | .execute target command => w.after (w.client.roundTrip target command w.net)
  | .define spec => { w with client := w.client.define spec }
  | .run target command => w.after (w.client.run target command w.net)

end World

/-- The world of a new client after some operations. -/
def run (kind : Kind) (catalogue : Catalogue) (options : Options) (net : Network) (ops : List Op) : World :=
  ops.foldl World.step { client := { topology := kind.topology, catalogue, options }, net }

theorem run_snoc (kind : Kind) (catalogue : Catalogue) (options : Options) (net : Network) (ops : List Op) (op : Op) :
    run kind catalogue options net (ops ++ [op]) = (run kind catalogue options net ops).step op := by
  unfold run
  rw [List.foldl_append, List.foldl_cons, List.foldl_nil]

/-! ## At any time -/

namespace World

/-- Every connection of the world. -/
def connections (w : World) : List Connection := w.topology.connections ++ w.free

structure Inv (w : World) : Prop where
  apart : Apart w.net w.connections
  distinct : w.topology.ids.Nodup

variable {w : World} {p : Place} {conn conn' : Connection} {net' : Network} {commands : List Command} {α : Type}
  {op : Connection → Network → Outcome Connection α}

namespace Inv

/-- A member acted. -/
theorem member (h : Inv w) (hm : w.topology.member? p = some conn) (hr : Reaches commands conn w.net conn' net') :
    Inv { w with client := w.client.setTopology (w.topology.setMember p conn'), net := net' } where
  apart := by
    obtain ⟨rest, hperm, hset, -⟩ := Topology.connections_split hm
    have hbefore := h.apart.perm (hperm.append_right w.free)
    exact (hbefore.reaches hr).perm ((hset conn').append_right w.free).symm
  distinct := by
    show (w.topology.setMember p conn').ids.Nodup
    rw [Topology.ids_setMember]
    exact h.distinct

/-- A place was found. -/
theorem route (h : Inv w) (target : Option String) (command : Command) :
    Inv { w with client := w.client.setTopology (w.topology.route target command).2 } where
  apart := by
    show Apart w.net ((w.topology.route target command).2.connections ++ w.free)
    rw [Topology.connections_route]
    exact h.apart
  distinct := by
    show (w.topology.route target command).2.ids.Nodup
    rw [Topology.ids_route]
    exact h.distinct

/-- A place was found and the member there acted. -/
theorem perform (h : Inv w) (target : Option String) (command : Command)
    (hop : ∀ c net, ∃ commands, Reaches commands c net (op c net).state (op c net).network) :
    Inv (w.put (w.topology.perform target command op w.net)) := by
  have hroute := h.route target command
  unfold Topology.perform
  rcases htarget : w.topology.route target command with ⟨e | p, t⟩
  · rw [htarget] at hroute
    exact hroute
  · rw [htarget] at hroute
    simp only [Topology.onMember]
    cases hm : t.member? p with
    | none => exact hroute
    | some conn =>
      obtain ⟨commands, hr⟩ := hop conn w.net
      exact hroute.member hm hr

theorem dispatch (h : Inv w) (target : Option String) (command : Command) :
    Inv (w.after (w.client.dispatch target command w.net)) := by
  rw [Client.dispatch_eq]
  exact h.perform target command fun c net => ⟨_, (c.dispatch_conducts w.client.options.retry command net).toReaches⟩

theorem settle (h : Inv w) (target : Option String) (command : Command) (reply : Reply) :
    Inv (w.after (w.client.settle target command reply w.net)) := by
  unfold Client.settle
  split
  · exact h
  · split
    · exact h
    · next eval _ =>
      have hdispatch := h.dispatch target eval
      unfold Outcome.andThen
      split <;> exact hdispatch

theorem run (h : Inv w) (target : Option String) (command : Command) :
    Inv (w.after (w.client.run target command w.net)) := by
  have hdispatch := h.dispatch target command
  unfold Client.run Outcome.andThen
  split
  · exact hdispatch.settle target command _
  · exact hdispatch

/-- The user has one connection in his hand. -/
theorem apart_hand (h : Inv w) {k : Nat} (hk : k < w.free.length) :
    Apart w.net (w.free[k] :: (w.topology.connections ++ w.free.eraseIdx k)) :=
  h.apart.perm (((List.getElem_cons_eraseIdx_perm hk).symm.append_left _).trans List.perm_middle)

theorem use (h : Inv w) (k : Nat) (u : Use) : Inv (w.step (.use k u)) := by
  simp only [step]
  split
  · exact h
  · next c hc =>
    obtain ⟨hk, rfl⟩ := List.getElem?_eq_some_iff.1 hc
    obtain ⟨commands, hr⟩ := u.reaches w.free[k] w.net
    refine ⟨((h.apart_hand hk).reaches hr).perm ?_, h.distinct⟩
    exact List.perm_middle.symm.trans ((List.set_perm_cons_eraseIdx hk _).symm.append_left _)

theorem add (h : Inv w) (k : Nat) : Inv (w.step (.add k)) := by
  simp only [step]
  split
  · exact h
  · next c hc =>
    obtain ⟨hk, rfl⟩ := List.getElem?_eq_some_iff.1 hc
    split
    · exact h
    · next t ht =>
      obtain ⟨rest, hrest, hperm⟩ := Topology.connections_add? h.distinct ht
      refine ⟨?_, Topology.distinct_add? h.distinct ht⟩
      exact ((h.apart_hand hk).sublist ((hrest.append_right _).cons_cons _)).perm (hperm.append_right _).symm

theorem remove (h : Inv w) (name : String) : Inv (w.step (.remove name)) where
  apart := by
    have hperm := (w.topology.connections_remove name).symm.append_right w.free
    rw [List.append_assoc] at hperm
    refine h.apart.perm (hperm.trans (List.perm_append_comm.trans (.of_eq ?_)))
    exact List.append_assoc _ _ _
  distinct := h.distinct.sublist (w.topology.ids_remove name)

end Inv

/-- **No operation breaks the invariant.** -/
theorem inv_step (h : Inv w) (op : Op) : Inv (w.step op) := by
  cases op with
  | create e =>
    have hnew := h.apart.cons_closed (c := { endpoint := e }) rfl
    exact ⟨hnew.perm ((List.perm_append_singleton _ _).symm.trans (.of_eq (List.append_assoc _ _ _))), h.distinct⟩
  | use k u => exact h.use k u
  | work p u =>
    simp only [step]
    split
    · exact h
    · next c hc =>
      obtain ⟨commands, hr⟩ := u.reaches c w.net
      exact h.member hc hr
  | choose command => exact h.route none command
  | add k => exact h.add k
  | remove name => exact h.remove name
  | switchTo name =>
    refine ⟨?_, (congrArg List.Nodup (w.topology.ids_switchTo name)).mpr h.distinct⟩
    show Apart w.net ((w.topology.switchTo name).connections ++ w.free)
    rw [Topology.connections_switchTo]
    exact h.apart
  | setRule id rule =>
    refine ⟨?_, (congrArg List.Nodup (w.topology.ids_setRule id rule)).mpr h.distinct⟩
    show Apart w.net ((w.topology.setRule id rule).connections ++ w.free)
    rw [Topology.connections_setRule]
    exact h.apart
  | connect =>
    refine ⟨Topology.apart_connect h.apart, ?_⟩
    exact (congrArg List.Nodup (w.topology.ids_connect w.net)).mpr h.distinct
  | disconnect =>
    refine ⟨?_, (congrArg List.Nodup w.topology.ids_disconnect).mpr h.distinct⟩
    have hfree : Apart w.net w.free := h.apart.sublist (List.sublist_append_right _ _)
    exact hfree.append_closed fun c hc => Topology.channel_of_mem_disconnect hc
  | write command =>
    simp only [step, Topology.write_eq]
    exact h.perform none command fun c net => ⟨_, (c.write_conducts command net).toReaches⟩
  | read command =>
    simp only [step, Topology.read_eq]
    exact h.perform none command fun c net => ⟨_, (c.read_conducts net).toReaches⟩
  | execute target command =>
    simp only [step, Client.roundTrip_eq]
    exact h.perform target command fun c net => ⟨_, (c.execute_conducts command net).toReaches⟩
  | define spec => exact ⟨h.apart, h.distinct⟩
  | run target command => exact h.run target command

end World

/-- **At any time each channel belongs to one connection.** -/
theorem inv_run (kind : Kind) (catalogue : Catalogue) (options : Options) (net : Network) (ops : List Op) :
    (run kind catalogue options net ops).Inv := by
  induction ops using List.reverseRecOn with
  | nil =>
    cases kind with
    | single e => exact ⟨Apart.cons_closed ⟨List.forall_mem_nil _, .nil⟩ rfl, List.nodup_nil⟩
    | cluster ring => exact ⟨⟨List.forall_mem_nil _, .nil⟩, List.nodup_nil⟩
    | replication => exact ⟨⟨List.forall_mem_nil _, .nil⟩, List.nodup_nil⟩
  | append_singleton ops op ih =>
    rw [run_snoc]
    exact World.inv_step ih op

end ClientRuns

end RespClient
