/-
Members addressed by name. A name stands for the first member that answers to it, be it by node id or by identity. Node ids
are distinct, but the identity of one member may be the node id of another: then the one that comes first is taken.

- `Topology.Named`: members are known by their node ids. `Keeps`: every operation but joining and leaving keeps the endpoint
  at each place, and so that.
- `named_run`: it is so at any time.
- `Topology.Leads`: what a name leads to: a place among the members, and what is left when the one there leaves.
  `exists_leads`: a name leads to the first member that answers to it.
- `World.ActsOn`: whatever is done with a name is done with that member, and with no other.
- `addressing_law`: a node id leads to its own member, unless one that comes before has it as his identity; then it leads to
  him. `addressing_shadowed`: that happens.
-/
import RespClient.Proofs.ClientRuns

namespace RespClient

/-! ## Node ids -/

namespace Topology

variable {t t' t'' : Topology} {p : Place} {conn conn' : Connection}

/-- Members of a cluster stand under their node ids; the master has the master's id, and no slave has it or that of another
slave. -/
structure Named (t : Topology) : Prop where
  own : ∀ i conn, t.member? (.node i) = some conn → t.ids[i]? = some conn.nodeId
  master : ∀ conn, t.member? (.role .master) = some conn → conn.nodeId = Replication.masterId
  slaves : ∀ i conn, t.member? (.role (.slave i)) = some conn → conn.nodeId ≠ Replication.masterId
  apart : ∀ i j c d, t.member? (.role (.slave i)) = some c → t.member? (.role (.slave j)) = some d →
    c.nodeId = d.nodeId → i = j

theorem named_single (conn : Connection) : Named (.single conn) where
  own := by rintro _ _ ⟨⟩
  master := by rintro _ ⟨⟩
  slaves := by rintro _ _ ⟨⟩
  apart := by rintro _ _ _ _ ⟨⟩

theorem named_cluster_iff {c : Cluster} : Named (.cluster c) ↔ ∀ m ∈ c.members, m.1 = m.2.nodeId := by
  constructor
  · intro h m hm
    obtain ⟨i, hi⟩ := List.mem_iff_getElem?.1 hm
    have hown := h.own i m.2 (by simp [member?, hi])
    simpa [ids, hi] using hown
  · intro h
    refine ⟨?_, by rintro _ ⟨⟩, by rintro _ _ ⟨⟩, by rintro _ _ _ _ ⟨⟩⟩
    intro i conn hconn
    obtain ⟨m, hm, rfl⟩ := Option.map_eq_some_iff.1 (show c.members[i]?.map Prod.snd = some conn from hconn)
    simp [ids, hm, h m (List.mem_of_getElem? hm)]

/-- For replicated sets that is what registering says, whoever is in use. -/
theorem named_replication_iff {r : Replication} :
    Named (.replication r) ↔ Replication.Registered { r with current := none } := by
  constructor
  · intro h
    refine ⟨?_, ?_, h.master, .inl rfl⟩
    · refine List.pairwise_map.2 (List.pairwise_iff_getElem.2 fun i j hi hj hij hid => Nat.ne_of_lt hij ?_)
      exact h.apart i j _ _ (List.getElem?_eq_getElem hi) (List.getElem?_eq_getElem hj) hid
    · intro c hc
      obtain ⟨i, hi⟩ := List.mem_iff_getElem?.1 hc
      exact h.slaves i c hi
  · intro h
    refine ⟨by rintro _ _ ⟨⟩, h.master, fun i c hc => h.slaves c (List.mem_of_getElem? hc), ?_⟩
    intro i j c d hc hd hid
    have hplace : Role.slave i = .slave j := h.member_inj hc hd hid
    exact Role.slave.inj hplace

/-! ## What keeps them -/

/-- The ids stay, and every member was at its place before, with the same endpoint. -/
structure Keeps (t t' : Topology) : Prop where
  ids : t'.ids = t.ids
  members : ∀ p conn', t'.member? p = some conn' → ∃ conn, t.member? p = some conn ∧ conn'.endpoint = conn.endpoint

namespace Keeps

theorem of_members (hids : t'.ids = t.ids) (h : ∀ p, t'.member? p = t.member? p) : Keeps t t' where
  ids := hids
  members p conn hconn := ⟨conn, (h p).symm.trans hconn, rfl⟩

theorem refl (t : Topology) : Keeps t t := of_members rfl fun _ => rfl

theorem trans (h : Keeps t t') (h' : Keeps t' t'') : Keeps t t'' where
  ids := h'.ids.trans h.ids
  members p conn'' hconn'' := by
    obtain ⟨conn', hconn', hend'⟩ := h'.members p conn'' hconn''
    obtain ⟨conn, hconn, hend⟩ := h.members p conn' hconn'
    exact ⟨conn, hconn, hend'.trans hend⟩

/-- Members that stay do so under their node ids. -/
theorem named (h : Keeps t t') (ht : Named t) : Named t' := by
  have hnode : ∀ {p conn'}, t'.member? p = some conn' → ∃ conn, t.member? p = some conn ∧ conn'.nodeId = conn.nodeId := by
    intro p conn' hconn'
    obtain ⟨conn, hconn, hend⟩ := h.members p conn' hconn'
    exact ⟨conn, hconn, congrArg Endpoint.nodeId hend⟩
  refine ⟨?_, ?_, ?_, ?_⟩
  · intro i conn' hconn'
    obtain ⟨conn, hconn, hid⟩ := hnode hconn'
    rw [h.ids, hid]
    exact ht.own i conn hconn
  · intro conn' hconn'
    obtain ⟨conn, hconn, hid⟩ := hnode hconn'
    exact hid.trans (ht.master conn hconn)
  · intro i conn' hconn'
    obtain ⟨conn, hconn, hid⟩ := hnode hconn'
    rw [hid]
    exact ht.slaves i conn hconn
  · intro i j c' d' hc' hd' heq
    obtain ⟨c, hc, hcid⟩ := hnode hc'
    obtain ⟨d, hd, hdid⟩ := hnode hd'
    exact ht.apart i j c d hc hd (hcid.symm.trans (heq.trans hdid))

/-- Equal rosters. -/
theorem of_roster {c c' : Cluster} (h : c'.roster = c.roster) : Keeps (.cluster c) (.cluster c') where
  ids := by
    have hids : ∀ d : Cluster, (Topology.cluster d).ids = d.roster.map Prod.fst := by
      intro d
      rw [Cluster.roster, List.map_map]
      rfl
    rw [hids, hids, h]
  members p conn' hconn' := by
    cases p with
    | node i =>
      obtain ⟨m', hm', rfl⟩ := Option.map_eq_some_iff.1 (show c'.members[i]?.map Prod.snd = some conn' from hconn')
      have hentry : c.roster[i]? = some (m'.1, m'.2.endpoint) := by
        rw [← h, Cluster.roster, List.getElem?_map, hm']
        rfl
      rw [Cluster.roster, List.getElem?_map] at hentry
      obtain ⟨m, hm, hsame⟩ := Option.map_eq_some_iff.1 hentry
      exact ⟨m.2, congrArg (Option.map Prod.snd) hm, (congrArg Prod.snd hsame).symm⟩
    | _ => cases hconn'

theorem of_kept {r r' : Replication} (h : Replication.Kept r r') : Keeps (.replication r) (.replication r') where
  ids := rfl
  members p conn' hconn' := by
    cases p with
    | role ρ =>
      obtain ⟨conn, hconn, hbecame⟩ := h.member? hconn'
      exact ⟨conn, hconn, hbecame.endpoint⟩
    | _ => cases hconn'

theorem setMember (h : t.member? p = some conn) (hend : conn'.endpoint = conn.endpoint) :
    Keeps t (t.setMember p conn') where
  ids := t.ids_setMember p conn'
  members q d hd := by
    by_cases hq : q = p
    · subst hq
      obtain rfl := Option.some.inj ((member?_setMember h conn').symm.trans hd)
      exact ⟨conn, h, hend⟩
    · rw [member?_setMember_ne hq] at hd
      exact ⟨d, hd, rfl⟩

theorem route (t : Topology) (target : Option String) (command : Command) : Keeps t (t.route target command).2 :=
  of_members (t.ids_route target command) (t.member?_route target command)

theorem switchTo (t : Topology) (name : String) : Keeps t (t.switchTo name) := by
  cases t with
  | replication r =>
    simp only [Topology.switchTo, Replication.switchTo]
    split
    · exact of_kept (.of_settings r _ r.turn r.rules)
    · exact refl _
  | _ => exact refl _

theorem setRule (t : Topology) (id : String) (rule : ReadRule) : Keeps t (t.setRule id rule) := by
  cases t with
  | replication r => exact of_kept (.of_settings r r.current r.turn _)
  | _ => exact refl _

theorem disconnect (t : Topology) : Keeps t t.disconnect := by
  cases t with
  | single conn =>
    exact Keeps.setMember (t := .single conn) (p := .only) rfl rfl
  | cluster c =>
    refine of_roster ?_
    rw [Cluster.roster, Cluster.roster, Cluster.disconnect, List.map_map]
    rfl
  | replication r => exact of_kept r.kept_disconnect

theorem connect (t : Topology) (net : Network) : Keeps t (t.connect net).state := by
  cases t with
  | single conn =>
    exact Keeps.setMember (t := .single conn) (p := .only) rfl (conn.connect_conducts net).endpoint
  | cluster c => exact of_roster (Cluster.roster_connectAll c.members net)
  | replication r => exact of_kept (r.kept_opened net).1

/-- A place was found and the member there acted. -/
theorem perform {α : Type} {op : Connection → Network → Outcome Connection α}
    (hop : ∀ c net, (op c net).state.endpoint = c.endpoint) (t : Topology) (target : Option String) (command : Command)
    (net : Network) : Keeps t (t.perform target command op net).state := by
  have hroute := Keeps.route t target command
  unfold Topology.perform
  rcases htarget : t.route target command with ⟨e | p, t'⟩
  · rw [htarget] at hroute
    exact hroute
  · rw [htarget] at hroute
    simp only [onMember]
    cases hm : t'.member? p with
    | none => exact hroute
    | some conn => exact hroute.trans (.setMember hm (hop conn net))

theorem dispatch (target : Option String) (command : Command) (c : Client) (net : Network) :
    Keeps c.topology (c.dispatch target command net).state.topology := by
  rw [Client.dispatch_eq]
  exact perform (fun conn net => (conn.dispatch_conducts c.options.retry command net).endpoint) _ _ _ _

theorem settle (target : Option String) (command : Command) (reply : Reply) (c : Client) (net : Network) :
    Keeps c.topology (c.settle target command reply net).state.topology := by
  unfold Client.settle
  split
  · exact .refl _
  · split
    · exact .refl _
    · next eval _ =>
      have hdispatch := dispatch target eval c net
      unfold Outcome.andThen
      split <;> exact hdispatch

theorem run (target : Option String) (command : Command) (c : Client) (net : Network) :
    Keeps c.topology (c.run target command net).state.topology := by
  have hdispatch := dispatch target command c net
  unfold Client.run Outcome.andThen
  split
  · exact hdispatch.trans (settle target command _ _ _)
  · exact hdispatch

end Keeps

/-! ## Joining and leaving -/

theorem Named.add? (h : Named t) (hadd : t.add? conn = some t') : Named t' := by
  cases t with
  | single c => cases hadd
  | cluster c =>
    obtain rfl := Option.some.inj hadd
    exact named_cluster_iff.2 (Cluster.own_add (named_cluster_iff.1 h) conn)
  | replication r =>
    obtain rfl := Option.some.inj hadd
    have hadded : ({ r with current := none } : Replication).add conn = { r.add conn with current := none } := by
      unfold Replication.add
      by_cases hm : conn.nodeId = Replication.masterId
      · rw [if_pos hm, if_pos hm]
        rfl
      · rw [if_neg hm, if_neg hm]
        cases r.slaves.findIdx? (·.nodeId == conn.nodeId) <;> rfl
    exact named_replication_iff.2 (hadded ▸ (named_replication_iff.1 h).add conn)

theorem Named.remove (h : Named t) (name : String) : Named (t.remove name).2 := by
  cases t with
  | single c => exact h
  | cluster c => exact named_cluster_iff.2 (Cluster.own_remove (named_cluster_iff.1 h) name)
  | replication r =>
    have hremoved : (({ r with current := none } : Replication).remove name).2 =
        { (r.remove name).2 with current := none } := by
      have hfind : ({ r with current := none } : Replication).find? name = r.find? name := rfl
      unfold Replication.remove
      rw [hfind]
      split <;> rfl
    exact named_replication_iff.2 (hremoved ▸ (named_replication_iff.1 h).remove name)

end Topology

/-! ## First among many -/

namespace Split

variable {α : Type} {ahead behind : List α} {a : α} {q : α → Bool}

theorem findIdx?_eq (ha : q a = true) (hahead : ∀ b ∈ ahead, q b = false) :
    (ahead ++ a :: behind).findIdx? q = some ahead.length := by
  rw [List.findIdx?_append, List.findIdx?_eq_none_iff.2 hahead, Option.none_or, List.findIdx?_cons, if_pos ha,
    Option.map_some, Nat.zero_add]

theorem set_eq (b : α) : (ahead ++ a :: behind).set ahead.length b = ahead ++ b :: behind := by
  rw [List.set_append_right _ _ (Nat.le_refl _), Nat.sub_self, List.set_cons_zero]

theorem eraseIdx_eq : (ahead ++ a :: behind).eraseIdx ahead.length = ahead ++ behind := by
  rw [List.eraseIdx_append_of_length_le (Nat.le_refl _), Nat.sub_self, List.eraseIdx_cons_zero]

end Split

/-- In a cluster, whose members stand under their node ids, the first one that answers to a name is found. -/
theorem Cluster.exists_find?_of_split {c : Cluster} {ms ms' : List (String × Connection)} {m : String × Connection}
    {name : String} (hmembers : c.members = ms ++ m :: ms') (hown : ∀ m ∈ c.members, m.1 = m.2.nodeId)
    (hanswers : m.2.answersTo name = true) (hfirst : ∀ d ∈ ms, d.2.answersTo name = false) :
    ∃ i : Fin c.members.length, i.1 = ms.length ∧ c.member i = m ∧ c.find? name = some i := by
  have htest : ∀ d ∈ c.members, (d.1 == name || d.2.identity == name) = d.2.answersTo name := by
    intro d hd
    rw [hown d hd]
    rfl
  have hfind : (c.find? name).map Fin.val = some ms.length := by
    unfold find?
    rw [← List.findIdx?_eq_map_findFinIdx?_val, hmembers]
    refine Split.findIdx?_eq ((htest m (by simp [hmembers])).trans hanswers) fun d hd => ?_
    exact (htest d (by simp [hmembers, hd])).trans (hfirst d hd)
  obtain ⟨i, hi, hplace⟩ := Option.map_eq_some_iff.1 hfind
  have hmember : c.members[i.1]? = some m := by simp [hplace, hmembers]
  exact ⟨i, hplace, Option.some.inj ((List.getElem?_eq_getElem i.2).symm.trans hmember), hi⟩

namespace Topology

variable {t : Topology} {p : Place} {conn : Connection} {name : String} {ahead behind : List Connection}

/-- The place of the member that a name stands for. A single server has no name. -/
def find? (name : String) : Topology → Option Place
  | .single _ => none
  | .cluster c => ((c.find? name).map Fin.val).map .node
  | .replication r => (r.find? name).map .role

theorem route_of_find (h : t.find? name = some p) (command : Command) : t.route (some name) command = (.ok p, t) := by
  cases t with
  | single c => cases h
  | cluster c =>
    obtain ⟨i, hi, rfl⟩ := Option.map_eq_some_iff.1 (show ((c.find? name).map Fin.val).map .node = some p from h)
    simp only [route, hi]
  | replication r =>
    obtain ⟨ρ, hρ, rfl⟩ := Option.map_eq_some_iff.1 (show (r.find? name).map .role = some p from h)
    simp only [route, hρ]

/-- A name leads to a place, and the member there stands between the others; they are left when he leaves. -/
structure Leads (t : Topology) (name : String) (p : Place) (ahead : List Connection) (conn : Connection)
    (behind : List Connection) : Prop where
  found : t.find? name = some p
  member : t.member? p = some conn
  replaced : ∀ conn', (t.setMember p conn').connections = ahead ++ conn' :: behind
  removed : (t.remove name).1 = some conn
  left : (t.remove name).2.connections = ahead ++ behind

theorem leads_node {c : Cluster} {ms ms' : List (String × Connection)} {m : String × Connection}
    (hmembers : c.members = ms ++ m :: ms') (hown : ∀ m ∈ c.members, m.1 = m.2.nodeId)
    (hanswers : m.2.answersTo name = true) (hfirst : ∀ d ∈ ms, d.2.answersTo name = false) :
    Leads (.cluster c) name (.node ms.length) (ms.map Prod.snd) m.2 (ms'.map Prod.snd) := by
  obtain ⟨i, hplace, hmember, hfind⟩ := Cluster.exists_find?_of_split hmembers hown hanswers hfirst
  have hremove : c.remove name = (some m.2, { members := c.members.eraseIdx i, ring := c.ring.remove m.1 }) := by
    simp only [Cluster.remove, hfind, hmember]
  rw [← hplace]
  refine ⟨by simp [find?, hfind], (member?_node c i).trans (by rw [hmember]), ?_, congrArg Prod.fst hremove, ?_⟩
  · intro conn'
    rw [setMember_node, hmember]
    show (c.members.set i (m.1, conn')).map Prod.snd = _
    rw [hplace, hmembers, Split.set_eq, List.map_append]
    rfl
  · show (c.remove name).2.members.map Prod.snd = _
    rw [hremove]
    show (c.members.eraseIdx i).map Prod.snd = _
    rw [hplace, hmembers, Split.eraseIdx_eq, List.map_append]

theorem leads_master {r : Replication} (hmaster : r.master = some conn) (hanswers : conn.answersTo name = true) :
    Leads (.replication r) name (.role .master) [] conn r.slaves := by
  have hfind : r.find? name = some .master := by simp [Replication.find?, hmaster, hanswers]
  refine ⟨by simp [find?, hfind], hmaster, fun _ => rfl, ?_, ?_⟩
  · simp only [remove, Replication.remove, hfind]
    exact hmaster
  · simp only [remove, Replication.remove, hfind]
    rfl

theorem leads_slave {r : Replication} (hslaves : r.slaves = ahead ++ conn :: behind)
    (hanswers : conn.answersTo name = true) (hmaster : ∀ m, r.master = some m → m.answersTo name = false)
    (hfirst : ∀ d ∈ ahead, d.answersTo name = false) :
    Leads (.replication r) name (.role (.slave ahead.length)) (r.master.toList ++ ahead) conn behind := by
  have hany : r.master.any (·.answersTo name) = false := by
    cases hm : r.master with
    | none => rfl
    | some m => exact hmaster m hm
  have hfind : r.find? name = some (.slave ahead.length) := by
    unfold Replication.find?
    rw [hany, hslaves, Split.findIdx?_eq (a := conn) hanswers hfirst]
    rfl
  have hmember : r.slaves[ahead.length]? = some conn := by simp [hslaves]
  refine ⟨by simp [find?, hfind], hmember, ?_, ?_, ?_⟩
  · intro conn'
    show r.master.toList ++ r.slaves.set ahead.length conn' = _
    rw [hslaves, Split.set_eq, List.append_assoc]
  · simp only [remove, Replication.remove, hfind]
    exact hmember
  · simp only [remove, Replication.remove, hfind]
    show r.master.toList ++ r.slaves.eraseIdx ahead.length = _
    rw [hslaves, Split.eraseIdx_eq, List.append_assoc]

/-- **A name leads to the first member that answers to it.** -/
theorem exists_leads (ht : Named t) (hkind : ∀ c, t ≠ .single c) (hsplit : t.connections = ahead ++ conn :: behind)
    (hanswers : conn.answersTo name = true) (hfirst : ∀ d ∈ ahead, d.answersTo name = false) :
    ∃ p, t.Leads name p ahead conn behind := by
  cases t with
  | single c => exact absurd rfl (hkind c)
  | cluster c =>
    obtain ⟨ms, rest, hmembers, rfl, hrest⟩ := List.map_eq_append_iff.1 (show c.members.map Prod.snd = _ from hsplit)
    obtain ⟨m, ms', rfl, rfl, rfl⟩ := List.map_eq_cons_iff.1 hrest
    refine ⟨_, leads_node hmembers (named_cluster_iff.1 ht) hanswers fun d hd => ?_⟩
    exact hfirst d.2 (List.mem_map_of_mem hd)
  | replication r =>
    have hmembers : r.master.toList ++ r.slaves = ahead ++ conn :: behind := hsplit
    cases hm : r.master with
    | none =>
      rw [hm] at hmembers
      have hleads := leads_slave hmembers hanswers (by simp [hm]) hfirst
      rw [hm] at hleads
      exact ⟨_, hleads⟩
    | some m =>
      rw [hm] at hmembers
      cases ahead with
      | nil =>
        obtain ⟨rfl, rfl⟩ := List.cons.inj (show m :: r.slaves = conn :: behind from hmembers)
        exact ⟨_, leads_master hm hanswers⟩
      | cons d ahead =>
        obtain ⟨rfl, hslaves⟩ := List.cons.inj (show m :: r.slaves = d :: (ahead ++ conn :: behind) from hmembers)
        have hmaster : ∀ m', r.master = some m' → m'.answersTo name = false := by
          intro m' hm'
          obtain rfl := Option.some.inj (hm.symm.trans hm')
          exact hfirst m List.mem_cons_self
        have hleads := leads_slave hslaves hanswers hmaster fun d hd => hfirst d (List.mem_cons_of_mem m hd)
        rw [hm] at hleads
        exact ⟨_, hleads⟩

/-- Two members have different node ids. -/
theorem Named.distinct (ht : Named t) (hids : t.ids.Nodup) : (t.connections.map Connection.nodeId).Nodup := by
  cases t with
  | single c => exact List.nodup_singleton _
  | cluster c =>
    have hown : (c.members.map Prod.snd).map Connection.nodeId = c.members.map Prod.fst := by
      rw [List.map_map]
      exact List.map_congr_left fun m hm => (named_cluster_iff.1 ht m hm).symm
    show ((c.members.map Prod.snd).map Connection.nodeId).Nodup
    rw [hown]
    exact hids
  | replication r =>
    have hr := named_replication_iff.1 ht
    show ((r.master.toList ++ r.slaves).map Connection.nodeId).Nodup
    cases hm : r.master with
    | none => exact hr.distinct
    | some m =>
      refine List.nodup_cons.2 ⟨fun hmem => ?_, hr.distinct⟩
      obtain ⟨d, hd, hid⟩ := List.mem_map.1 hmem
      exact hr.slaves d hd (hid.trans (hr.master m hm))

end Topology

namespace ClientRuns

namespace World

variable {w : World} {p : Place} {conn : Connection} {name : String} {ahead behind : List Connection}

/-! ## At any time -/

theorem named_step (hw : w.topology.Named) (op : Op) : (w.step op).topology.Named := by
  cases op with
  | create e => exact hw
  | use k u =>
    simp only [step]
    split <;> exact hw
  | work p u =>
    simp only [step]
    split
    · exact hw
    · next c hc => exact (Topology.Keeps.setMember hc (u.endpoint c w.net)).named hw
  | choose command => exact (Topology.Keeps.route w.topology none command).named hw
  | add k =>
    simp only [step]
    split
    · exact hw
    · split
      · exact hw
      · next t ht => exact hw.add? ht
  | remove name => exact hw.remove name
  | switchTo name => exact (Topology.Keeps.switchTo w.topology name).named hw
  | setRule id rule => exact (Topology.Keeps.setRule w.topology id rule).named hw
  | connect => exact (Topology.Keeps.connect w.topology w.net).named hw
  | disconnect => exact (Topology.Keeps.disconnect w.topology).named hw
  | write command =>
    simp only [step, Topology.write_eq]
    exact (Topology.Keeps.perform (fun c net => (c.write_conducts command net).endpoint) ..).named hw
  | read command =>
    simp only [step, Topology.read_eq]
    exact (Topology.Keeps.perform (fun c net => (c.read_conducts net).endpoint) ..).named hw
  | execute target command =>
    simp only [step, Client.roundTrip_eq]
    exact (Topology.Keeps.perform (fun c net => (c.execute_conducts command net).endpoint) ..).named hw
  | define spec => exact hw
  | run target command => exact (Topology.Keeps.run target command w.client w.net).named hw

end World

/-- **At any time members are known by their node ids.** -/
theorem named_run (kind : Kind) (catalogue : Catalogue) (options : Options) (net : Network) (ops : List Op) :
    (run kind catalogue options net ops).topology.Named := by
  induction ops using List.reverseRecOn with
  | nil =>
    cases kind with
    | single e => exact Topology.named_single _
    | cluster ring => exact Topology.named_cluster_iff.2 (List.forall_mem_nil _)
    | replication =>
      exact Topology.named_replication_iff.2 ⟨List.nodup_nil, List.forall_mem_nil _, by rintro _ ⟨⟩, .inl rfl⟩
  | append_singleton ops op ih =>
    rw [run_snoc]
    exact World.named_step ih op

namespace World

/-! ## What is done with a name -/

/-- Whatever is done with a name is done with one connection, a member that stands between the others; those and their
channels stay as they are. -/
structure ActsOn (w : World) (name : String) (ahead : List Connection) (conn : Connection) (behind : List Connection) :
    Prop where
  handed : (w.topology.find? name).bind w.topology.member? = some conn
  /-- executing there is executing by the connection -/
  result : ∀ command, (w.topology.executeOn name command w.net).result = (conn.execute command w.net).result
  network : ∀ command, (w.topology.executeOn name command w.net).network = (conn.execute command w.net).network
  members : ∀ command, (w.topology.executeOn name command w.net).state.connections =
    ahead ++ (conn.execute command w.net).state :: behind
  untouched : ∀ command, ∀ d ∈ ahead ++ behind, ∀ id, d.channel = some id →
    (w.topology.executeOn name command w.net).network.channel? id = w.net.channel? id
  removed : (w.topology.remove name).1 = some conn
  left : (w.topology.remove name).2.connections = ahead ++ behind
  /-- the ring of a cluster forgets the node id -/
  forgotten : ∀ c, w.topology = .cluster c → (c.remove name).2.ring = c.ring.remove conn.nodeId
  /-- the connection comes into use in a replicated set -/
  switched : ∀ r, w.topology = .replication r → (r.switchTo name).1 = .ok () ∧
    (r.switchTo name).2.inUse = some conn ∧ (r.switchTo name).2.members = r.members

theorem actsOn_of_leads (hw : Inv w) (ht : w.topology.Named) (hsplit : w.topology.connections = ahead ++ conn :: behind)
    (h : w.topology.Leads name p ahead conn behind) : w.ActsOn name ahead conn behind := by
  have hexecute : ∀ command, w.topology.executeOn name command w.net =
      (conn.execute command w.net).within (w.topology.setMember p) := by
    intro command
    rw [Topology.executeOn_eq, Topology.perform, Topology.route_of_find h.found]
    simp only [Topology.onMember, h.member]
  refine ⟨?_, ?_, ?_, ?_, ?_, h.removed, h.left, ?_, ?_⟩
  · rw [h.found, Option.bind_some, h.member]
  · intro command
    rw [hexecute]
    rfl
  · intro command
    rw [hexecute]
    rfl
  · intro command
    rw [hexecute]
    exact h.replaced _
  · intro command d hd id hid
    have hperm : (w.topology.connections ++ w.free).Perm (conn :: (ahead ++ behind ++ w.free)) := by
      rw [hsplit]
      exact List.perm_middle.append_right w.free
    rw [hexecute]
    exact (hw.apart.perm hperm).untouched (conn.execute_conducts command w.net).toReaches (List.mem_append_left _ hd) hid
  · intro c hc
    rw [hc] at h ht
    obtain ⟨i, hi, rfl⟩ := Option.map_eq_some_iff.1 (show ((c.find? name).map Fin.val).map .node = some p from h.found)
    obtain ⟨i, hfind, rfl⟩ := Option.map_eq_some_iff.1 hi
    have hconn : (c.member i).2 = conn := Option.some.inj ((Topology.member?_node c i).symm.trans h.member)
    have hid : (c.member i).1 = conn.nodeId := by
      rw [← hconn]
      exact Topology.named_cluster_iff.1 ht _ (List.getElem_mem i.2)
    simp only [Cluster.remove, hfind, hid]
  · intro r hr
    rw [hr] at h
    obtain ⟨ρ, hρ, rfl⟩ := Option.map_eq_some_iff.1 (show (r.find? name).map .role = some p from h.found)
    simp only [Replication.switchTo, hρ]
    refine ⟨trivial, ?_, rfl⟩
    exact Replication.inUse_eq_some rfl ((Replication.member?_settings r _ r.turn r.rules ρ).trans h.member)

end World

/-- **The addressing law.** Over every run, whatever is done with the node id of a member of a cluster or of a replicated set
is done with that member alone, unless one that comes before him has the id as his identity: then it is done with the first
of those, and with him alone. -/
theorem addressing_law (kind : Kind) (catalogue : Catalogue) (options : Options) (net : Network) (ops : List Op)
    (ahead behind : List Connection) (conn : Connection) :
    let w := run kind catalogue options net ops
    (∀ c, w.topology ≠ .single c) → w.topology.connections = ahead ++ conn :: behind →
      ((∀ d ∈ ahead, d.identity ≠ conn.nodeId) → w.ActsOn conn.nodeId ahead conn behind) ∧
      ∀ first d rest, ahead = first ++ d :: rest → (∀ e ∈ first, e.identity ≠ conn.nodeId) →
        d.identity = conn.nodeId → w.ActsOn conn.nodeId first d (rest ++ conn :: behind) := by
  intro w hkind hsplit
  have hw := inv_run kind catalogue options net ops
  have ht := named_run kind catalogue options net ops
  have hother : ∀ d ∈ ahead, d.nodeId ≠ conn.nodeId := by
    have hdistinct := ht.distinct hw.distinct
    rw [hsplit, List.map_append, List.map_cons] at hdistinct
    intro d hd
    exact (List.pairwise_append.1 hdistinct).2.2 _ (List.mem_map_of_mem hd) _ List.mem_cons_self
  have hsilent : ∀ d ∈ ahead, d.identity ≠ conn.nodeId → d.answersTo conn.nodeId = false := by
    intro d hd hidentity
    simp [Connection.answersTo, hother d hd, hidentity]
  constructor
  · intro hidentity
    have hanswers : conn.answersTo conn.nodeId = true := by simp [Connection.answersTo]
    obtain ⟨p, hp⟩ := Topology.exists_leads ht hkind hsplit hanswers fun d hd => hsilent d hd (hidentity d hd)
    exact World.actsOn_of_leads hw ht hsplit hp
  · rintro first d rest rfl hidentity hd
    have hanswers : d.answersTo conn.nodeId = true := by simp [Connection.answersTo, hd]
    rw [List.append_assoc, List.cons_append] at hsplit
    obtain ⟨p, hp⟩ := Topology.exists_leads ht hkind hsplit hanswers fun e he =>
      hsilent e (List.mem_append_left _ he) (hidentity e he)
    exact World.actsOn_of_leads hw ht hsplit hp

/-- Two members at one socket, the first under an alias, and a third one elsewhere. -/
def sharedSocket (kind : Kind) : World :=
  let first : Endpoint := { scheme := .unix, path := some "a.sock", label := some "x" }
  let second : Endpoint := { scheme := .unix, path := some "a.sock" }
  let third : Endpoint := { scheme := .unix, path := some "b.sock" }
  run kind .standard {} ⟨[]⟩ [.create first, .create second, .create third, .add 0, .add 0, .add 0]

/-- The law for a cluster of them: the third one is reached by his node id, the second one is not. -/
theorem addressing_law_sharedSocket : ∃ c d e, (sharedSocket (.cluster .empty)).topology.connections = [c, d, e] ∧
    ((∀ x ∈ [c, d], x.identity ≠ e.nodeId) ∧ (sharedSocket (.cluster .empty)).ActsOn e.nodeId [c, d] e []) ∧
    c.identity = d.nodeId ∧ (sharedSocket (.cluster .empty)).ActsOn d.nodeId [] c [d, e] := by
  refine ⟨_, _, _, rfl, ⟨by decide +kernel, ?_⟩, by decide +kernel, ?_⟩
  · exact (addressing_law (.cluster .empty) .standard {} ⟨[]⟩ _ [_, _] [] _ (fun _ => Topology.noConfusion) rfl).1
      (by decide +kernel)
  · exact (addressing_law (.cluster .empty) .standard {} ⟨[]⟩ _ [_] [_] _ (fun _ => Topology.noConfusion) rfl).2 [] _ []
      rfl (List.forall_mem_nil _) (by decide +kernel)

/-- **A node id need not lead to its own member,** in a cluster or in a replicated set: here it leads to the alias. -/
theorem addressing_shadowed :
    let t := (sharedSocket (.cluster .empty)).topology
    let t' := (sharedSocket .replication).topology
    (t.connections.map Connection.nodeId = ["x", "unix://a.sock", "unix://b.sock"] ∧
      ((t.find? "unix://a.sock").bind t.member?).map Connection.nodeId = some "x" ∧
      (t.remove "unix://a.sock").1.map Connection.nodeId = some "x") ∧
    t'.connections.map Connection.nodeId = ["x", "unix://a.sock", "unix://b.sock"] ∧
      ((t'.find? "unix://a.sock").bind t'.member?).map Connection.nodeId = some "x" ∧
      (t'.remove "unix://a.sock").1.map Connection.nodeId = some "x" := by
  decide +kernel

end ClientRuns

end RespClient
