/-
Commands carried out in two halves: writing a command, and reading a reply for it. Each half finds its member by itself, and
finding one may change what is found next: a slave was picked, the master came into use, a channel was opened.

- `perform_andThen`: two operations on the member that a command goes to are one operation of that member, since the second
  one finds him again.
- `execute_eq_halves`: so writing and then reading is executing.
- `frames_of_write`, `read_of_channel`: the frame is the last one on the channel from which the reply is read.
- `halves_law`: all that, for clusters, replicated sets and whatever else a client talks to.
-/
import RespClient.Proofs.Places
import RespClient.Proofs.OpenState

namespace RespClient

/-! ## One connection -/

namespace Connection

variable {c : Connection} {net : Network} {command : Command} {id : ChannelId}

/-- What was written to the open channel is its last frame. -/
theorem frames_of_writeOpen (hid : c.channel = some id) (h : (c.writeOpen command net).result = .ok ()) :
    ∃ before, (c.writeOpen command net).network.frames id = before ++ [command.frame] := by
  cases hch : net.channel? id with
  | none => simp [writeOpen, hid, Network.deliver, hch] at h
  | some ch =>
    rcases writeOpen_cases command hid hch with ⟨net', -, -, hwrite⟩ | ⟨net', -, hnet, hwrite⟩
    · rw [hwrite] at h
      cases h
    · rw [hwrite]
      refine ⟨ch.received.reverse, ?_⟩
      simp only [Network.frames, hnet.channel? hch, Option.map_some, Option.getD_some, List.reverse_cons]

/-- What was written is the last frame of the channel in use. -/
theorem frames_of_write (h : (c.write command net).result = .ok ()) :
    ∃ id before, (c.write command net).state.channel = some id ∧
      (c.write command net).network.frames id = before ++ [command.frame] := by
  unfold write Outcome.andThen at h ⊢
  cases hensure : (c.ensure net).result with
  | error e => simp [hensure] at h
  | ok _ =>
    simp only [hensure] at h ⊢
    obtain ⟨id, hid⟩ := Option.isSome_iff_exists.1 ((c.ensure_ends net).isConnected_of_ok hensure)
    obtain ⟨before, hframes⟩ := frames_of_writeOpen hid h
    refine ⟨id, before, ?_, hframes⟩
    -- writing keeps the channel or drops it
    have hopen := (writeOpen_ends command ((c.ensure_ends net).isConnected_of_ok hensure) _).isConnected_of_ok h
    unfold writeOpen at hopen ⊢
    simp only [prepare_channel, hid] at hopen ⊢
    split at hopen
    · exact hid
    · cases hopen

/-- A reply is read from the channel in use. -/
theorem read_of_channel (net : Network) (hid : c.channel = some id) :
    (c.read net).result = (net.receive id).1.mapError (.ofDecode c.identity) ∧
    (c.read net).network = (net.receive id).2 := by
  have hopen : c.isConnected = true := by simp [isConnected, hid]
  simp only [read, ensure, hopen, ↓reduceIte, Outcome.andThen, readOpen, hid]
  cases (net.receive id).1 <;> exact ⟨rfl, rfl⟩

end Connection

/-! ## Members -/

namespace Topology

variable {α β : Type} {t : Topology} {command : Command} {net : Network}

/-- **Two operations of the member at a place are one,** if the first one leads to the same server as before. -/
theorem perform_andThen {op : Connection → Network → Outcome Connection α}
    (hop : ∀ c net, (op c net).state.endpoint = c.endpoint) (next : α → Connection → Network → Outcome Connection β)
    (target : Option String) (command : Command) (t : Topology) (net : Network) :
    (t.perform target command op net).andThen (fun a t net => t.perform target command (next a) net) =
      t.perform target command (fun c net => (op c net).andThen next) net := by
  unfold perform
  rcases hroute : t.route target command with ⟨e | p, t'⟩
  · rfl
  · simp only [onMember]
    cases hm : t'.member? p with
    | none => rfl
    | some conn =>
      simp only [Outcome.andThen, Outcome.within]
      cases hr : (op conn net).result with
      | error e => rfl
      | ok a =>
        have hagain := route_again hroute hm (hop conn net)
        simp only [hagain, member?_setMember hm, setMember_setMember]

theorem write_endpoint (command : Command) (c : Connection) (net : Network) :
    (c.write command net).state.endpoint = c.endpoint := (c.write_ends command net).endpoint

/-- **Writing and then reading is executing.** -/
theorem execute_eq_halves (t : Topology) (command : Command) (net : Network) :
    t.execute command net = (t.write command net).andThen fun _ t net => t.read command net := by
  have hread : (fun (_ : Unit) (t : Topology) (net : Network) => t.read command net) =
      fun _ t net => t.perform none command Connection.read net := by
    funext _ t net
    exact t.read_eq command net
  rw [hread, execute_eq, write_eq, perform_andThen (write_endpoint command)]
  rfl

/-- The member that a command was written to: it is found again, and holds the channel. -/
structure Addressed (t : Topology) (command : Command) (net : Network) (p : Place) (conn : Connection) (id : ChannelId) :
    Prop where
  first : (t.route none command).1 = .ok p
  second : ((t.write command net).state.route none command).1 = .ok p
  member : (t.write command net).state.member? p = some conn
  channel : conn.channel = some id
  /-- the command is the last one that was written there -/
  last : ∃ before, (t.write command net).network.frames id = before ++ [command.frame]
  /-- the reply is read there -/
  network : ((t.write command net).state.read command (t.write command net).network).network =
    ((t.write command net).network.receive id).2
  reply : ((t.write command net).state.read command (t.write command net).network).result =
    ((t.write command net).network.receive id).1.mapError (.ofDecode conn.identity)

theorem exists_addressed (h : (t.write command net).result = .ok ()) : ∃ p conn id, Addressed t command net p conn id := by
  have hwrite := t.write_eq command net
  unfold perform at hwrite
  rcases hroute : t.route none command with ⟨e | p, t'⟩
  · simp only [hroute] at hwrite
    rw [hwrite] at h
    cases h
  · simp only [hroute, onMember] at hwrite
    cases hm : t'.member? p with
    | none =>
      simp only [hm] at hwrite
      rw [hwrite] at h
      cases h
    | some conn =>
      simp only [hm] at hwrite
      rw [hwrite] at h
      obtain ⟨id, before, hid, hframes⟩ := Connection.frames_of_write h
      have hagain := route_again hroute hm (write_endpoint command conn net)
      have hmember := member?_setMember hm (conn.write command net).state
      obtain ⟨hreply, hnetwork⟩ := Connection.read_of_channel (conn.write command net).network hid
      have hread : ((t.write command net).state.read command (t.write command net).network) =
          ((conn.write command net).state.read (conn.write command net).network).within
            ((t'.setMember p (conn.write command net).state).setMember p) := by
        rw [hwrite, read_eq]
        simp only [perform, Outcome.within, hagain, onMember, hmember]
      refine ⟨p, (conn.write command net).state, id, ?_⟩
      exact {
        first := congrArg Prod.fst hroute
        second := by
          rw [hwrite]
          exact congrArg Prod.fst hagain
        member := by
          rw [hwrite]
          exact hmember
        channel := hid
        last := by
          rw [hwrite]
          exact ⟨before, hframes⟩
        network := by
          rw [hread, hwrite]
          exact hnetwork
        reply := by
          rw [hread, hwrite]
          exact hreply }

end Topology

/-- **The two halves and the whole.** Whatever state a cluster or a replicated set is in and whatever the network does:
writing a command and, if that succeeds, reading a reply for it gives the result, the state and the network of executing
the command; and both halves turn to the same member, on the same channel. -/
theorem halves_law (command : Command) (net : Network) :
    (∀ c : Cluster, (c.write command net).andThen (fun _ c net => c.read command net) = c.execute command net) ∧
    (∀ r : Replication, (r.write command net).andThen (fun _ r net => r.read command net) = r.execute command net) ∧
    ∀ t : Topology, (t.write command net).result = .ok () → ∃ p conn id, t.Addressed command net p conn id := by
  refine ⟨fun c => ?_, fun r => ?_, fun t h => Topology.exists_addressed h⟩
  · have h := (Topology.cluster c).execute_eq_halves command net
    have hwithin := Outcome.within_andThen (fun _ _ _ => rfl : ∀ (_ : Unit) (c : Cluster) net,
      (Topology.cluster c).read command net = (c.read command net).within .cluster) (c.write command net)
    exact Outcome.within_injective (fun _ _ => Topology.cluster.inj) (hwithin.symm.trans h.symm)
  · have h := (Topology.replication r).execute_eq_halves command net
    have hwithin := Outcome.within_andThen (fun _ _ _ => rfl : ∀ (_ : Unit) (r : Replication) net,
      (Topology.replication r).read command net = (r.read command net).within .replication) (r.write command net)
    exact Outcome.within_injective (fun _ _ => Topology.replication.inj) (hwithin.symm.trans h.symm)

/-- A write takes a set over to its master, whose channel it opens; the reply is read there. -/
example :
    let conn (name : String) : Connection := { endpoint := { host := name, port := 1, label := some name } }
    let r : Replication := { master := some (conn "master"), slaves := [conn "slave"], current := some (.slave 0) }
    let net : Network := ⟨[(.host "master" 1, { coming := [.accepted { octets := Bytes.ofText "+OK\r\n" }] })]⟩
    let set : Command := { spec := .named "set" .first .write, arguments := [[107], [118]] }
    let first := r.write set net
    let second := first.state.read set first.network
    first.state.current = some .master ∧ second.network.log (.host "master" 1) = [set.frame] ∧
    second.result.isOk = true := by
  cbv

end RespClient
