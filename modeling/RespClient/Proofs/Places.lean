/-
The members of a topology by their places, for all kinds of topologies alike: what a member is, how it is replaced, and at
which place a command is carried out.

- `member?_setMember`, `member?_setMember_ne`, `setMember_setMember`: places can be read and written independently.
- `connections_split`: a member apart from the others.
- `execute_eq` and its siblings: every operation finds a place first (`route`) and then runs at the member there.
- `route_again`: looked for again, the place is the same, whatever the member did meanwhile.
-/
import RespClient.Client
import RespClient.Proofs.Attempts
import RespClient.Proofs.ClusterRouting
import RespClient.Proofs.ReplicaPromotion

namespace RespClient

/-- Where a member stands: alone, at an index of a cluster, or in a role of a replicated set. -/
inductive Place where
  | only
  | node (i : Nat)
  | role (ρ : Role)
  deriving DecidableEq

/-! ## Clusters -/

namespace Cluster

variable {c c' : Cluster} {command : Command} {name : String}

/-- Which member a name stands for depends on ids and endpoints only. -/
theorem find?_congr (hroster : c'.roster = c.roster) (name : String) :
    (c'.find? name).map Fin.val = (c.find? name).map Fin.val := by
  have hfind : ∀ d : Cluster, (d.find? name).map Fin.val =
      d.roster.findIdx? fun m => m.1 == name || m.2.identity == name := by
    intro d
    unfold find? roster
    rw [List.findIdx?_map, List.findIdx?_eq_map_findFinIdx?_val]
    rfl
  rw [hfind, hfind, hroster]

/-- Which member a command goes to depends on the ring and the ids only. -/
theorem locate_congr (hroster : c'.roster = c.roster) (hring : c'.ring = c.ring) (command : Command) :
    (c'.locate command).map Fin.val = (c.locate command).map Fin.val := by
  have hfind : ∀ (d : Cluster) (node : String), (d.members.findFinIdx? (·.1 == node)).map Fin.val =
      d.roster.findIdx? (·.1 == node) := by
    intro d node
    unfold roster
    rw [List.findIdx?_map, List.findIdx?_eq_map_findFinIdx?_val]
    rfl
  unfold locate locateKey
  cases command.routingKey with
  | none => rfl
  | some key =>
    simp only [hring]
    cases c.ring.ownerOf key with
    | none => rfl
    | some node =>
      have hsame := (hfind c' node).trans ((congrArg _ hroster).trans (hfind c node).symm)
      simp only
      cases hc' : c'.members.findFinIdx? (·.1 == node) with
      | none =>
        rw [hc', Option.map_none, eq_comm, Option.map_eq_none_iff] at hsame
        rw [hsame]
        rfl
      | some i =>
        rw [hc', Option.map_some, eq_comm, Option.map_eq_some_iff] at hsame
        obtain ⟨j, hj, hij⟩ := hsame
        rw [hj]
        exact congrArg Except.ok hij.symm

/-- Commands of the same routing key go to the same member. -/
theorem locate_of_routingKey {other : Command} {i : Fin c.members.length} (hkey : other.routingKey = command.routingKey)
    (h : c.locate command = .ok i) : c.locate other = .ok i := by
  unfold locate at h ⊢
  rw [hkey]
  cases hsome : command.routingKey with
  | none =>
    rw [hsome] at h
    cases h
  | some key =>
    rw [hsome] at h
    exact h

/-- A key that nobody serves is no fault of a channel. -/
theorem resets_of_locate {e : ClientError} (h : c.locate command = .error e) : e.resets = false := by
  unfold locate locateKey at h
  split at h
  · obtain rfl := Except.error.inj h
    rfl
  · split at h
    · obtain rfl := Except.error.inj h
      rfl
    · split at h
      · obtain rfl := Except.error.inj h
        rfl
      · cases h

end Cluster

/-! ## Replicated sets -/

namespace Replication

variable {r r' : Replication} {command : Command} {ρ : Role} {conn conn' : Connection}

theorem member?_setMember (h : r.member? ρ = some conn) (conn' : Connection) :
    (r.setMember ρ conn').member? ρ = some conn' := by
  cases ρ with
  | master => rfl
  | slave i =>
    obtain ⟨hi, -⟩ := List.getElem?_eq_some_iff.1 (show r.slaves[i]? = some conn from h)
    exact List.getElem?_set_self hi

theorem setMember_setMember (r : Replication) (ρ : Role) (conn conn' : Connection) :
    (r.setMember ρ conn).setMember ρ conn' = r.setMember ρ conn' := by
  cases ρ with
  | master => rfl
  | slave i => simp [setMember]

theorem isComplete_setMember (h : r.member? ρ = some conn) (conn' : Connection) :
    (r.setMember ρ conn').isComplete = r.isComplete := by
  cases ρ with
  | master =>
    have hm : r.master = some conn := h
    simp [isComplete, setMember, hm]
  | slave i =>
    have hsame : (r.slaves.set i conn').isEmpty = r.slaves.isEmpty := by
      rw [Bool.eq_iff_iff, List.isEmpty_iff_length_eq_zero, List.isEmpty_iff_length_eq_zero, List.length_set]
    simp only [isComplete, setMember, hsame]

theorem reads_setMember (r : Replication) (ρ : Role) (conn : Connection) (command : Command) :
    (r.setMember ρ conn).reads command = r.reads command := by
  cases ρ <;> rfl

/-- Which member a name stands for depends on the endpoints only. -/
theorem find?_setMember (h : r.member? ρ = some conn) (hend : conn'.endpoint = conn.endpoint) (name : String) :
    (r.setMember ρ conn').find? name = r.find? name := by
  have hsame : conn'.answersTo name = conn.answersTo name := by
    unfold Connection.answersTo Connection.nodeId Connection.identity
    rw [hend]
  cases ρ with
  | master =>
    have hm : r.master = some conn := h
    simp [find?, setMember, hm, hsame]
  | slave i =>
    obtain ⟨hi, rfl⟩ := List.getElem?_eq_some_iff.1 (show r.slaves[i]? = some conn from h)
    have hslaves : (r.slaves.set i conn').map (·.answersTo name) = r.slaves.map (·.answersTo name) := by
      rw [List.map_set, hsame]
      exact List.ext_getElem (by simp) fun j _ _ => by grind
    have hfind : (r.slaves.set i conn').findIdx? (·.answersTo name) = r.slaves.findIdx? (·.answersTo name) := by
      have hid : ∀ l : List Connection, l.findIdx? (·.answersTo name) = (l.map (·.answersTo name)).findIdx? id := by
        intro l
        rw [List.findIdx?_map]
        rfl
      rw [hid, hslaves, ← hid]
    simp only [find?, setMember, hfind]

theorem resets_of_reads {e : ClientError} (h : r.reads command = .error e) : e.resets = false := by
  unfold reads at h
  split at h
  · cases h
  · cases haccess : command.spec.access with
    | unsupported =>
      simp only [haccess, Except.error.injEq] at h
      subst h
      rfl
    | _ => simp [haccess] at h

theorem resets_of_choose {e : ClientError} (h : (r.choose command).1 = .error e) : e.resets = false := by
  unfold choose at h
  split_ifs at h
  · obtain rfl := Except.error.inj h
    rfl
  · cases hreads : r.reads command with
    | error e' =>
      simp only [hreads, Except.error.injEq] at h
      exact h ▸ resets_of_reads hreads
    | ok reads => cases reads <;> cases hcur : r.current <;> simp [hreads, hcur] at h

/-- A member chosen is chosen again, whatever it did meanwhile. -/
theorem choose_again (h : r.choose command = (.ok ρ, r')) (hm : r'.member? ρ = some conn) (conn' : Connection) :
    (r'.setMember ρ conn').choose command = (.ok ρ, r'.setMember ρ conn') := by
  rcases r.choose_cases command with ⟨e, he⟩ | ⟨ρ', turn, hρ', hc, hcases⟩
  · rw [he] at h
    cases h
  · obtain ⟨hρ, rfl⟩ := Prod.mk.inj (hρ'.symm.trans h)
    obtain rfl := Except.ok.inj hρ
    have hcomplete := (isComplete_setMember hm conn').trans hc
    have hcurrent := setMember_current { r with current := some ρ', turn } ρ' conn'
    rcases hcases with ⟨hreads, rfl⟩ | ⟨hreads, -⟩
    · rw [choose_of_write hcomplete ((reads_setMember ..).trans hreads)]
      rfl
    · exact choose_of_read hcomplete ((reads_setMember ..).trans hreads) hcurrent

end Replication

/-! ## Topologies -/

namespace Topology

def member? : Topology → Place → Option Connection
  | .single conn, .only => some conn
  | .cluster c, .node i => c.members[i]?.map Prod.snd
  | .replication r, .role ρ => r.member? ρ
  | _, _ => none

/-- The topology with the connection of a member replaced. -/
def setMember : Topology → Place → Connection → Topology
  | .single _, .only, conn => .single conn
  | .cluster c, .node i, conn => .cluster { c with members := c.members.modify i fun m => (m.1, conn) }
  | .replication r, .role ρ, conn => .replication (r.setMember ρ conn)
  | t, _, _ => t

def connections : Topology → List Connection
  | .single conn => [conn]
  | .cluster c => c.connections
  | .replication r => r.members

variable {t t' : Topology} {p q : Place} {conn conn' : Connection}

theorem member?_node (c : Cluster) (i : Fin c.members.length) :
    (Topology.cluster c).member? (.node i) = some (c.member i).2 := by
  simp [member?, Cluster.member]

theorem setMember_node (c : Cluster) (i : Fin c.members.length) (conn : Connection) :
    (Topology.cluster c).setMember (.node i) conn =
      .cluster { c with members := c.members.set i ((c.member i).1, conn) } := by
  simp only [setMember]
  rw [List.modify_eq_set_get _ i.2]
  rfl

/-- A place with a member is of the topology's kind. -/
theorem member?_cases (h : t.member? p = some conn) :
    (t = .single conn ∧ p = .only) ∨
    (∃ c, ∃ i : Fin c.members.length, t = .cluster c ∧ p = .node i ∧ (c.member i).2 = conn) ∨
    ∃ r ρ, t = .replication r ∧ p = .role ρ ∧ r.member? ρ = some conn := by
  cases t with
  | single c =>
    cases p with
    | only => exact .inl ⟨congrArg _ (Option.some.inj h), rfl⟩
    | _ => contradiction
  | cluster c =>
    cases p with
    | node i =>
      obtain ⟨m, hm, rfl⟩ := Option.map_eq_some_iff.1 (show c.members[i]?.map Prod.snd = some conn from h)
      obtain ⟨hi, rfl⟩ := List.getElem?_eq_some_iff.1 hm
      exact .inr (.inl ⟨c, ⟨i, hi⟩, rfl, rfl, rfl⟩)
    | _ => contradiction
  | replication r =>
    cases p with
    | role ρ => exact .inr (.inr ⟨r, ρ, rfl, rfl, h⟩)
    | _ => contradiction

theorem member?_setMember (h : t.member? p = some conn) (conn' : Connection) :
    (t.setMember p conn').member? p = some conn' := by
  rcases member?_cases h with ⟨rfl, rfl⟩ | ⟨c, i, rfl, rfl, rfl⟩ | ⟨r, ρ, rfl, rfl, hr⟩
  · rfl
  · simp [setMember, member?]
  · exact Replication.member?_setMember hr conn'

theorem member?_setMember_ne (h : q ≠ p) (conn : Connection) : (t.setMember p conn).member? q = t.member? q := by
  cases t with
  | single c =>
    cases p with
    | only => cases q with
      | only => contradiction
      | _ => rfl
    | _ => rfl
  | cluster c =>
    cases p with
    | node i => cases q with
      | node j =>
        have hij : i ≠ j := fun hij => h (by rw [hij])
        simp [setMember, member?, hij]
      | _ => rfl
    | _ => rfl
  | replication r =>
    cases p with
    | role ρ => cases q with
      | role ρ' => exact Replication.member?_setMember_ne r (fun hρ => h (by rw [hρ])) conn
      | _ => rfl
    | _ => rfl

theorem setMember_setMember (t : Topology) (p : Place) (conn conn' : Connection) :
    (t.setMember p conn).setMember p conn' = t.setMember p conn' := by
  cases t with
  | single c => cases p <;> rfl
  | cluster c => cases p with
    | node i => simp [setMember, List.modify_modify_eq, Function.comp_def]
    | _ => rfl
  | replication r => cases p with
    | role ρ => exact congrArg _ (r.setMember_setMember ρ conn conn')
    | _ => rfl

/-- A member apart from the others: it can be replaced, and the rest stays. -/
theorem connections_split (h : t.member? p = some conn) :
    ∃ rest, t.connections.Perm (conn :: rest) ∧ (∀ conn', (t.setMember p conn').connections.Perm (conn' :: rest)) ∧
      ∀ q ≠ p, ∀ d, t.member? q = some d → d ∈ rest := by
  rcases member?_cases h with ⟨rfl, rfl⟩ | ⟨c, i, rfl, rfl, rfl⟩ | ⟨r, ρ, rfl, rfl, hr⟩
  · refine ⟨[], .refl _, fun _ => .refl _, fun q hq d hd => ?_⟩
    cases q <;> contradiction
  · refine ⟨c.others i, c.connections_split i, fun conn' => ?_, fun q hq d hd => ?_⟩
    · rw [setMember_node]
      exact c.connections_set i conn'
    · rcases member?_cases hd with ⟨hkind, -⟩ | ⟨c', j, hkind, rfl, rfl⟩ | ⟨r, ρ, hkind, -⟩
      · contradiction
      · obtain rfl := Topology.cluster.inj hkind
        exact Cluster.mem_others fun hij => hq (by rw [hij])
      · contradiction
  · obtain ⟨rest, hperm, hset, hothers⟩ := Replication.members_split hr
    refine ⟨rest, hperm, hset, fun q hq d hd => ?_⟩
    cases q with
    | role ρ' => exact hothers ρ' (fun hρ => hq (by rw [hρ])) d hd
    | _ => contradiction

/-! ## Finding a place -/

/-- The place of the member that a command goes to, or that a name stands for, and the topology with that member in use. -/
def route (target : Option String) (command : Command) : Topology → Except ClientError Place × Topology
  | .single conn =>
    match target with
    | none => (.ok .only, .single conn)
    | some name => (.error (.notSupported (.addressing name)), .single conn)
  | .cluster c =>
    match target with
    | none => (((c.locate command).map Fin.val).map .node, .cluster c)
    | some name =>
      match (c.find? name).map Fin.val with
      | some i => (.ok (.node i), .cluster c)
      | none => (.error (.configuration (.unknownConnection name)), .cluster c)
  | .replication r =>
    match target with
    | none => ((r.choose command).1.map .role, .replication (r.choose command).2)
    | some name =>
      match r.find? name with
      | some ρ => (.ok (.role ρ), .replication r)
      | none => (.error (.configuration (.unknownAlias name)), .replication r)

variable {α : Type}

/-- Runs an operation of the member at a place. -/
def onMember (p : Place) (op : Connection → Network → Outcome Connection α) (t : Topology) (net : Network) :
    Outcome Topology α :=
  match t.member? p with
  | some conn => (op conn net).within (t.setMember p)
  | none => ⟨.error Replication.membersMissing, t, net⟩

/-- Finds a place and runs an operation of the member there. -/
def perform (target : Option String) (command : Command) (op : Connection → Network → Outcome Connection α)
    (t : Topology) (net : Network) : Outcome Topology α :=
  match t.route target command with
  | (.ok p, t) => t.onMember p op net
  | (.error e, t) => ⟨.error e, t, net⟩

section Perform

variable (op : Connection → Network → Outcome Connection α) (command : Command) (name : String) (net : Network)

theorem onMember_node (c : Cluster) (i : Fin c.members.length) :
    (Topology.cluster c).onMember (.node i) op net = (c.onMember i op net).within .cluster := by
  unfold onMember
  rw [member?_node]
  simp only [Cluster.onMember, Outcome.within, setMember_node]

theorem onMember_role (r : Replication) (ρ : Role) :
    (Topology.replication r).onMember (.role ρ) op net = (r.onMember ρ op net).within .replication := by
  unfold onMember Replication.onMember
  simp only [member?]
  cases r.member? ρ <;> rfl

theorem perform_cluster (c : Cluster) :
    (Topology.cluster c).perform none command op net = (c.route command op net).within .cluster := by
  unfold perform Cluster.route
  cases h : c.locate command with
  | error e => simp only [route, h]; rfl
  | ok i =>
    simp only [route, h]
    exact onMember_node op net c i

theorem perform_replication (r : Replication) :
    (Topology.replication r).perform none command op net = (r.route command op net).within .replication := by
  unfold perform Replication.route
  rcases h : r.choose command with ⟨_ | ρ, r'⟩
  · simp only [route, h]
    rfl
  · simp only [route, h]
    exact onMember_role op net r' ρ

end Perform

theorem write_eq (t : Topology) (command : Command) (net : Network) :
    t.write command net = t.perform none command (Connection.write command) net := by
  cases t with
  | single conn => rfl
  | cluster c => exact (perform_cluster _ command net c).symm
  | replication r => exact (perform_replication _ command net r).symm

theorem read_eq (t : Topology) (command : Command) (net : Network) :
    t.read command net = t.perform none command Connection.read net := by
  cases t with
  | single conn => rfl
  | cluster c => exact (perform_cluster _ command net c).symm
  | replication r => exact (perform_replication _ command net r).symm

theorem execute_eq (t : Topology) (command : Command) (net : Network) :
    t.execute command net = t.perform none command (Connection.execute command) net := by
  cases t with
  | single conn => rfl
  | cluster c => exact (perform_cluster _ command net c).symm
  | replication r => exact (perform_replication _ command net r).symm

theorem executeOn_eq (t : Topology) (name : String) (command : Command) (net : Network) :
    t.executeOn name command net = t.perform (some name) command (Connection.execute command) net := by
  cases t with
  | single conn => rfl
  | cluster c =>
    simp only [executeOn, Cluster.executeOn, perform, route]
    cases h : c.find? name with
    | none => rfl
    | some i => exact (onMember_node _ net c i).symm
  | replication r =>
    simp only [executeOn, Replication.executeOn, perform, route]
    cases h : r.find? name with
    | none => rfl
    | some ρ => exact (onMember_role _ net r ρ).symm

/-! ## Finding it again -/

variable {target : Option String} {command : Command}

/-- A place that is not found is no fault of a channel. -/
theorem resets_of_route {e : ClientError} (h : (t.route target command).1 = .error e) : e.resets = false := by
  cases t with
  | single conn =>
    cases target with
    | none => cases h
    | some name =>
      obtain rfl := Except.error.inj h
      rfl
  | cluster c =>
    cases target with
    | none =>
      simp only [route] at h
      cases hlocate : c.locate command with
      | ok i =>
        rw [hlocate] at h
        cases h
      | error e' =>
        rw [hlocate] at h
        obtain rfl := Except.error.inj h
        exact Cluster.resets_of_locate hlocate
    | some name =>
      simp only [route] at h
      split at h
      · cases h
      · obtain rfl := Except.error.inj h
        rfl
  | replication r =>
    cases target with
    | none =>
      simp only [route] at h
      cases hchoose : (r.choose command).1 with
      | ok ρ =>
        rw [hchoose] at h
        cases h
      | error e' =>
        rw [hchoose] at h
        obtain rfl := Except.error.inj h
        exact Replication.resets_of_choose hchoose
    | some name =>
      simp only [route] at h
      split at h
      · cases h
      · obtain rfl := Except.error.inj h
        rfl

/-- Finding a place may put a member of a replicated set in use, and changes nothing else. -/
theorem route_cases (t : Topology) (target : Option String) (command : Command) :
    (t.route target command).2 = t ∨ ∃ r current turn, t = .replication r ∧
      (t.route target command).2 = .replication { r with current, turn } := by
  cases t with
  | single conn => cases target <;> exact .inl rfl
  | cluster c =>
    cases target with
    | none => exact .inl rfl
    | some name =>
      simp only [route]
      split <;> exact .inl rfl
  | replication r =>
    cases target with
    | none =>
      rcases r.choose_cases command with ⟨e, he⟩ | ⟨ρ, turn, hρ, -, -⟩
      · exact .inl (congrArg replication (congrArg Prod.snd he))
      · exact .inr ⟨r, some ρ, turn, rfl, congrArg replication (congrArg Prod.snd hρ)⟩
    | some name =>
      simp only [route]
      split <;> exact .inl rfl

theorem member?_route (t : Topology) (target : Option String) (command : Command) (p : Place) :
    (t.route target command).2.member? p = t.member? p := by
  rcases t.route_cases target command with h | ⟨r, current, turn, rfl, h⟩
  · rw [h]
  · rw [h]
    cases p with
    | role ρ => exact Replication.member?_settings r current turn r.rules ρ
    | _ => rfl

theorem connections_route (t : Topology) (target : Option String) (command : Command) :
    (t.route target command).2.connections = t.connections := by
  rcases t.route_cases target command with h | ⟨r, current, turn, rfl, h⟩ <;> rw [h]
  rfl

/-- **Looked for again, the place is the same,** whatever the member there did meanwhile. -/
theorem route_again (h : t.route target command = (.ok p, t')) (hm : t'.member? p = some conn)
    (hend : conn'.endpoint = conn.endpoint) :
    (t'.setMember p conn').route target command = (.ok p, t'.setMember p conn') := by
  cases t with
  | single c =>
    cases target with
    | none =>
      cases h
      rfl
    | some name => cases h
  | cluster c =>
    have hc : t' = .cluster c := by
      have hsnd := congrArg Prod.snd h
      rcases (cluster c).route_cases target command with hkept | ⟨r, -, -, hkind, -⟩
      · exact hsnd.symm.trans hkept
      · cases hkind
    subst hc
    rcases member?_cases hm with ⟨hkind, -⟩ | ⟨c', i, hkind, rfl, rfl⟩ | ⟨r, ρ, hkind, -⟩
    · cases hkind
    · obtain rfl := Topology.cluster.inj hkind
      have hroster := c.roster_set i hend
      rw [setMember_node]
      cases target with
      | none =>
        simp only [route] at h ⊢
        rw [Cluster.locate_congr hroster rfl]
        exact congrArg (·, _) (congrArg Prod.fst h)
      | some name =>
        simp only [route, Cluster.find?_congr hroster] at h ⊢
        cases hname : (c.find? name).map Fin.val with
        | none =>
          rw [hname] at h
          cases h
        | some j =>
          rw [hname] at h
          obtain ⟨hj, -⟩ := Prod.mk.inj h
          exact congrArg (·, _) hj
    · cases hkind
  | replication r =>
    cases target with
    | none =>
      simp only [route] at h
      rcases hchoose : r.choose command with ⟨_ | ρ, r'⟩
      · rw [hchoose] at h
        cases h
      · rw [hchoose] at h
        obtain ⟨hp, rfl⟩ := Prod.mk.inj h
        obtain rfl := Except.ok.inj hp
        show ((Topology.replication (r'.setMember ρ conn')).route none command) = _
        simp only [route, Replication.choose_again hchoose hm conn']
        rfl
    | some name =>
      simp only [route] at h
      cases hname : r.find? name with
      | none =>
        rw [hname] at h
        cases h
      | some ρ =>
        rw [hname] at h
        obtain ⟨hp, rfl⟩ := Prod.mk.inj h
        obtain rfl := Except.ok.inj hp
        show ((Topology.replication (r.setMember ρ conn')).route (some name) command) = _
        simp only [route, Replication.find?_setMember hm hend, hname]
        rfl

end Topology

/-! ## Clients -/

namespace Client

variable {c : Client} {target : Option String} {command : Command} {net : Network}

theorem roundTrip_eq (target : Option String) (command : Command) (c : Client) (net : Network) :
    c.roundTrip target command net =
      (c.topology.perform target command (Connection.execute command) net).within c.setTopology := by
  cases target with
  | none => exact congrArg (·.within c.setTopology) (c.topology.execute_eq command net)
  | some name => exact congrArg (·.within c.setTopology) (c.topology.executeOn_eq name command net)

/-- **Trying again is left to the member:** both attempts find it at the same place. -/
theorem dispatch_eq (target : Option String) (command : Command) (c : Client) (net : Network) :
    c.dispatch target command net =
      (c.topology.perform target command (Connection.dispatch c.options.retry command) net).within c.setTopology := by
  unfold dispatch
  simp only [roundTrip_eq]
  unfold Topology.perform
  rcases hroute : c.topology.route target command with ⟨e | p, t⟩
  · have he : e.resets = false := Topology.resets_of_route (congrArg Prod.fst hroute)
    simp only [Outcome.within, he, Bool.false_and, Bool.false_eq_true, ↓reduceIte]
  · simp only
    cases hm : t.member? p with
    | none =>
      simp only [Topology.onMember, hm, Outcome.within]
      rfl
    | some conn =>
      simp only [Topology.onMember, hm, Outcome.within]
      cases hr : (conn.execute command net).result with
      | ok reply => simp only [Connection.dispatch, hr]
      | error e =>
        by_cases hagain : e.resets = true ∧ c.options.retry = true
        · have hend := (conn.execute_conducts command net).endpoint
          have hroute' := Topology.route_again hroute hm hend
          have hm' := Topology.member?_setMember hm (conn.execute command net).state
          simp only [Connection.dispatch, hr, hagain.1, hagain.2, Bool.and_self, ↓reduceIte]
          simp only [setTopology, hroute', hm', Topology.setMember_setMember]
        · have hno : (e.resets && c.options.retry) = false := by simpa using hagain
          simp only [Connection.dispatch, hr, hno, Bool.false_eq_true, ↓reduceIte]

end Client

end RespClient
