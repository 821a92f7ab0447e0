/-
The members of a replicated set. Members join and leave, come into use and are used; the place in use is a number, and
yet it stands for a member.

- `Registered`: node ids are distinct, the master is called the master and nobody else is, and the place in use is taken.
- `Kept`: what every operation but joining and leaving does. Every place has the member it had, as its uses left it.
- `Follows`: members stay, perhaps at other places, and the place in use moves along; so the member in use is the same.
- `inUse_add`, `inUse_remove`: joining and leaving keep the member in use, unless it is the one replaced or leaving.
- `slaves_add`, `slaves_remove`: what they do to the slaves, said by node ids instead of places.
-/
import Mathlib.Data.List.Nodup
import RespClient.Proofs.Keyed
import RespClient.Proofs.Ownership

namespace RespClient

open ReplicaRouting (Use)

/-! ## A connection over time -/

namespace Connection

/-- The second connection is the first one after some uses of it, on whatever networks. -/
inductive Became (c : Connection) : Connection → Prop where
  | same : c.Became c
  | used {d : Connection} (u : Use) (net : Network) : c.Became d → c.Became (u.apply d net).1

namespace Became

variable {c d e : Connection}

theorem trans (hcd : c.Became d) (hde : d.Became e) : c.Became e := by
  induction hde with
  | same => exact hcd
  | used u net _ ih => exact .used u net ih

theorem endpoint (h : c.Became d) : d.endpoint = c.endpoint := by
  induction h with
  | same => rfl
  | @used d u net _ ih => exact (u.endpoint d net).trans ih

theorem nodeId (h : c.Became d) : d.nodeId = c.nodeId := congrArg Endpoint.nodeId h.endpoint

end Became

theorem became_ensure (c : Connection) (net : Network) : c.Became (c.ensure net).state := by
  unfold ensure
  split_ifs
  · exact .same
  · exact .used .connect net .same

end Connection

open Connection (Became)

namespace Replication

/-! ## Members that stay -/

def slaveIds (r : Replication) : List String := r.slaves.map Connection.nodeId

/-- Every place has the member it had, as its uses left it. -/
def Kept (r r' : Replication) : Prop := ∀ ρ, Option.Rel Became (r.member? ρ) (r'.member? ρ)

variable {r r' r'' : Replication} {ρ : Role} {name : String} {net : Network}

theorem member?_settings (r : Replication) (current : Option Role) (turn : Nat) (rules : List (String × ReadRule))
    (ρ : Role) : ({ r with current, turn, rules } : Replication).member? ρ = r.member? ρ := by
  cases ρ <;> rfl

theorem isComplete_iff : r.isComplete = true ↔ r.master.isSome ∧ r.slaves ≠ [] := by simp [isComplete]

theorem inUse_eq_some {c : Connection} (hcur : r.current = some ρ) (hc : r.member? ρ = some c) : r.inUse = some c := by
  rw [inUse, hcur, Option.bind_some, hc]

theorem inUse_eq_none (hcur : r.current = none) : r.inUse = none := by
  rw [inUse, hcur, Option.bind_none]

namespace Kept

theorem of_members (h : ∀ ρ, r'.member? ρ = r.member? ρ) : Kept r r' := by
  intro ρ
  rw [h ρ]
  cases r.member? ρ with
  | none => exact .none
  | some c => exact .some .same

theorem refl (r : Replication) : Kept r r := of_members fun _ => rfl

theorem trans (h : Kept r r') (h' : Kept r' r'') : Kept r r'' := by
  intro ρ
  have hρ := h ρ
  have hρ' := h' ρ
  generalize r.member? ρ = before, r'.member? ρ = between, r''.member? ρ = after at hρ hρ'
  cases hρ with
  | none => exact hρ'
  | some hc =>
    cases hρ' with
    | some hd => exact .some (hc.trans hd)

/-- Another member in use, another turn, other rules. -/
theorem of_settings (r : Replication) (current : Option Role) (turn : Nat) (rules : List (String × ReadRule)) :
    Kept r { r with current, turn, rules } := of_members fun _ => member?_settings ..

theorem isSome (h : Kept r r') (ρ : Role) : (r'.member? ρ).isSome = (r.member? ρ).isSome := by
  have hρ := h ρ
  generalize r.member? ρ = before, r'.member? ρ = after at hρ
  cases hρ <;> rfl

theorem member? (h : Kept r r') {c' : Connection} (hc : r'.member? ρ = some c') :
    ∃ c, r.member? ρ = some c ∧ c.Became c' := by
  have hρ := h ρ
  rw [hc] at hρ
  generalize r.member? ρ = before at hρ
  cases hρ with
  | some hbecame => exact ⟨_, rfl, hbecame⟩

theorem slaveIds_eq (h : Kept r r') : r'.slaveIds = r.slaveIds := by
  refine List.ext_getElem? fun i => ?_
  have hρ : Option.Rel Became r.slaves[i]? r'.slaves[i]? := h (.slave i)
  simp only [slaveIds, List.getElem?_map]
  generalize r.slaves[i]? = before, r'.slaves[i]? = after at hρ
  cases hρ with
  | none => rfl
  | some hc => exact congrArg some hc.nodeId

end Kept

/-- Working with one member keeps them all. -/
theorem kept_setMember {c c' : Connection} (hc : r.member? ρ = some c) (h : c.Became c') :
    Kept r (r.setMember ρ c') := by
  intro ρ'
  by_cases hρ : ρ' = ρ
  · subst hρ
    have hset : (r.setMember ρ' c').member? ρ' = some c' := by
      cases ρ' with
      | master => rfl
      | slave i =>
        obtain ⟨hlt, -⟩ := List.getElem?_eq_some_iff.1 (show r.slaves[i]? = some c from hc)
        exact List.getElem?_set_self hlt
    rw [hc, hset]
    exact .some h
  · rw [r.member?_setMember_ne hρ c']
    exact Kept.refl r ρ'

theorem setMember_current (r : Replication) (ρ : Role) (c : Connection) : (r.setMember ρ c).current = r.current := by
  cases ρ <;> rfl

theorem kept_onMember {α : Type} {op : Connection → Network → Outcome Connection α}
    (hop : ∀ c net, Became c (op c net).state) (r : Replication) (ρ : Role) (net : Network) :
    Kept r (r.onMember ρ op net).state ∧ (r.onMember ρ op net).state.current = r.current := by
  unfold onMember
  cases hc : r.member? ρ with
  | none => exact ⟨.refl r, rfl⟩
  | some c => exact ⟨kept_setMember hc (hop c net), r.setMember_current ρ _⟩

theorem kept_disconnect (r : Replication) : Kept r r.disconnect := by
  intro ρ
  have hmember : r.disconnect.member? ρ = (r.member? ρ).map Connection.disconnect := by
    cases ρ with
    | master => rfl
    | slave i => exact List.getElem?_map
  rw [hmember]
  cases r.member? ρ with
  | none => exact .none
  | some c => exact .some (.used .disconnect ⟨[]⟩ .same)

/-! ## The invariant -/

/-- Node ids are distinct, the master has the master's and no slave does, and there is a member at the place in use. -/
structure Registered (r : Replication) : Prop where
  distinct : r.slaveIds.Nodup
  slaves : ∀ c ∈ r.slaves, c.nodeId ≠ masterId
  master : ∀ c, r.master = some c → c.nodeId = masterId
  current : r.current = none ∨ r.current = some .master ∧ r.master.isSome ∨
    ∃ i < r.slaves.length, r.current = some (.slave i)

/-- There is a member at the place in use. -/
def Seated (r : Replication) : Prop := ∀ ρ, r.current = some ρ → (r.member? ρ).isSome

theorem seated_iff : Seated r ↔ r.current = none ∨ r.current = some .master ∧ r.master.isSome ∨
    ∃ i < r.slaves.length, r.current = some (.slave i) := by
  unfold Seated
  cases hcur : r.current with
  | none => simp
  | some ρ =>
    cases ρ with
    | master => simp [member?]
    | slave i => simp [member?]

theorem Kept.seated (h : Kept r r') (hcur : ∀ ρ, r'.current = some ρ → (r.member? ρ).isSome) : Seated r' := by
  intro ρ hρ
  rw [h.isSome]
  exact hcur ρ hρ

namespace Registered

variable {conn : Connection}

theorem seated (hr : Registered r) : Seated r := seated_iff.2 hr.current

/-- Two members have different node ids. -/
theorem member_inj (hr : Registered r) {ρ' : Role} {c d : Connection} (hc : r.member? ρ = some c)
    (hd : r.member? ρ' = some d) (hid : c.nodeId = d.nodeId) : ρ = ρ' := by
  cases ρ with
  | master =>
    cases ρ' with
    | master => rfl
    | slave j => exact absurd (hid ▸ hr.master c hc) (hr.slaves d (List.mem_of_getElem? hd))
  | slave i =>
    cases ρ' with
    | master => exact absurd (hid ▸ hr.master d hd) (hr.slaves c (List.mem_of_getElem? hc))
    | slave j =>
      obtain ⟨hi, rfl⟩ := List.getElem?_eq_some_iff.1 (show r.slaves[i]? = some c from hc)
      obtain ⟨hj, rfl⟩ := List.getElem?_eq_some_iff.1 (show r.slaves[j]? = some d from hd)
      rw [Keyed.place_unique hr.distinct hi hj hid]

/-- Members that stay keep the invariant, as long as there is one at the place in use. -/
theorem kept (hr : Registered r) (h : Kept r r') (hseated : Seated r') : Registered r' where
  distinct := by
    rw [h.slaveIds_eq]
    exact hr.distinct
  slaves c' hc' := by
    obtain ⟨i, hi⟩ := List.mem_iff_getElem?.1 hc'
    obtain ⟨c, hc, hbecame⟩ := h.member? (ρ := .slave i) hi
    rw [hbecame.nodeId]
    exact hr.slaves c (List.mem_of_getElem? hc)
  master c' hc' := by
    obtain ⟨c, hc, hbecame⟩ := h.member? (ρ := .master) hc'
    rw [hbecame.nodeId]
    exact hr.master c hc
  current := seated_iff.1 hseated

end Registered

/-! ## Following the member in use -/

/-- The members to be kept stay, each at the place that `move` gives; the others go, and the place in use moves along. -/
structure Follows (keep : Connection → Bool) (move : Role → Option Role) (r r' : Replication) : Prop where
  current : r'.current = r.current.bind move
  kept : ∀ ρ c, r.member? ρ = some c → keep c = true → ∃ ρ', move ρ = some ρ' ∧ r'.member? ρ' = some c
  dropped : ∀ ρ c, r.member? ρ = some c → keep c = false → move ρ = none

namespace Follows

variable {keep : Connection → Bool} {move : Role → Option Role}

/-- **The member in use stays in use if it is to be kept.** -/
theorem inUse_eq (h : Follows keep move r r') (hseated : Seated r) : r'.inUse = r.inUse.filter keep := by
  cases hcur : r.current with
  | none =>
    have hcur' : r'.current = none := by rw [h.current, hcur, Option.bind_none]
    rw [inUse_eq_none hcur', inUse_eq_none hcur, Option.filter_none]
  | some ρ =>
    have hcur' : r'.current = move ρ := by rw [h.current, hcur, Option.bind_some]
    obtain ⟨c, hc⟩ := Option.isSome_iff_exists.1 (hseated ρ hcur)
    rw [inUse_eq_some hcur hc, Option.filter_some]
    cases hk : keep c with
    | false => exact inUse_eq_none (hcur'.trans (h.dropped ρ c hc hk))
    | true =>
      obtain ⟨ρ', hmove, hc'⟩ := h.kept ρ c hc hk
      exact inUse_eq_some (hcur'.trans hmove) hc'

theorem seated (h : Follows keep move r r') (hseated : Seated r) : Seated r' := by
  intro ρ' hρ'
  rw [h.current] at hρ'
  obtain ⟨ρ, hcur, hmove⟩ := Option.bind_eq_some_iff.1 hρ'
  obtain ⟨c, hc⟩ := Option.isSome_iff_exists.1 (hseated ρ hcur)
  cases hk : keep c with
  | false =>
    rw [h.dropped ρ c hc hk] at hmove
    contradiction
  | true =>
    obtain ⟨ρ'', hmove', hc'⟩ := h.kept ρ c hc hk
    obtain rfl := Option.some.inj (hmove'.symm.trans hmove)
    exact Option.isSome_iff_exists.2 ⟨c, hc'⟩

end Follows

/-- Every place but one stays. -/
def vacate (ρ₀ ρ : Role) : Option Role := if ρ = ρ₀ then none else some ρ

theorem bind_vacate (current : Option Role) (ρ₀ : Role) :
    current.bind (vacate ρ₀) = if current = some ρ₀ then none else current := by
  cases current with
  | none => rfl
  | some ρ =>
    simp only [Option.bind_some, vacate, Option.some.injEq]

/-! ## Joining -/

/-- A connection that joins takes the place of the member with its node id, who is no longer in use, if there is one. -/
structure Takes (r : Replication) (conn : Connection) (ρ : Role) : Prop where
  old : ∀ c, r.member? ρ = some c → c.nodeId = conn.nodeId
  others : ∀ ρ' c, ρ' ≠ ρ → r.member? ρ' = some c → c.nodeId ≠ conn.nodeId
  added : r.add conn = { r.setMember ρ conn with current := if r.current = some ρ then none else r.current }

/-- Who joins is the master, takes the place of a slave, or comes after the slaves. -/
theorem add_cases (hr : Registered r) (conn : Connection) :
    (conn.nodeId = masterId ∧ r.Takes conn .master) ∨
    (conn.nodeId ≠ masterId ∧ ∃ i < r.slaves.length, r.Takes conn (.slave i)) ∨
    (conn.nodeId ≠ masterId ∧ conn.nodeId ∉ r.slaveIds ∧ r.add conn = { r with slaves := r.slaves ++ [conn] }) := by
  by_cases hm : conn.nodeId = masterId
  · refine .inl ⟨hm, ?_, ?_, ?_⟩
    · intro c hc
      rw [hm]
      exact hr.master c hc
    · intro ρ c hρ hc
      cases ρ with
      | master => contradiction
      | slave i =>
        rw [hm]
        exact hr.slaves c (List.mem_of_getElem? hc)
    · simp only [add, if_pos hm, setMember]
  · right
    cases hfind : r.slaves.findIdx? (·.nodeId == conn.nodeId) with
    | some i =>
      obtain ⟨hi, hid, -⟩ := List.findIdx?_eq_some_iff_getElem.1 hfind
      have hid : r.slaves[i].nodeId = conn.nodeId := beq_iff_eq.1 hid
      have hplace : r.member? (.slave i) = some r.slaves[i] := List.getElem?_eq_getElem hi
      refine .inl ⟨hm, i, hi, ?_, ?_, ?_⟩
      · intro c hc
        rw [← hid, Option.some.inj (hplace.symm.trans hc)]
      · intro ρ c hρ hc heq
        exact hρ (hr.member_inj hc hplace (heq.trans hid.symm))
      · simp only [add, if_neg hm, hfind, setMember]
    | none =>
      refine .inr ⟨hm, ?_, ?_⟩
      · simpa [slaveIds] using hfind
      · simp only [add, if_neg hm, hfind]

/-- Whoever is in use stays so, unless the connection takes his place. -/
theorem Takes.follows {conn : Connection} {ρ : Role} (h : r.Takes conn ρ) :
    Follows (·.nodeId != conn.nodeId) (vacate ρ) r (r.add conn) where
  current := by
    rw [h.added, bind_vacate]
  kept ρ' c hc hk := by
    have hρ : ρ' ≠ ρ := by
      rintro rfl
      exact bne_iff_ne.1 hk (h.old c hc)
    refine ⟨ρ', if_neg hρ, ?_⟩
    rw [h.added, member?_settings]
    exact (r.member?_setMember_ne hρ conn).trans hc
  dropped ρ' c hc hk := by
    by_contra hmove
    have hρ : ρ' ≠ ρ := fun heq => hmove (if_pos heq)
    exact h.others ρ' c hρ hc (by simpa using hk)

/-- Who a connection joins beside: all but the member that it replaces. -/
theorem follows_add (hr : Registered r) (conn : Connection) :
    ∃ move, Follows (·.nodeId != conn.nodeId) move r (r.add conn) := by
  rcases add_cases hr conn with ⟨-, h⟩ | ⟨-, i, -, h⟩ | ⟨hm, hnew, hadd⟩
  · exact ⟨_, h.follows⟩
  · exact ⟨_, h.follows⟩
  · have hother : ∀ ρ c, r.member? ρ = some c → c.nodeId ≠ conn.nodeId := by
      intro ρ c hc heq
      cases ρ with
      | master => exact hm (heq ▸ hr.master c hc)
      | slave i => exact hnew (heq ▸ List.mem_map_of_mem (List.mem_of_getElem? hc))
    rw [hadd]
    refine ⟨some, (Option.bind_fun_some _).symm, ?_, ?_⟩
    · intro ρ c hc _
      refine ⟨ρ, rfl, ?_⟩
      cases ρ with
      | master => exact hc
      | slave i =>
        obtain ⟨hi, -⟩ := List.getElem?_eq_some_iff.1 (show r.slaves[i]? = some c from hc)
        exact (List.getElem?_append_left hi).trans hc
    · intro ρ c hc hk
      exact absurd (by simpa using hk) (hother ρ c hc)

/-- **Joining keeps the member in use,** unless it is the one replaced; then there is none. -/
theorem inUse_add (hr : Registered r) (conn : Connection) :
    (r.add conn).inUse = r.inUse.filter (·.nodeId != conn.nodeId) := by
  obtain ⟨move, h⟩ := follows_add hr conn
  exact h.inUse_eq hr.seated

/-- The slaves after a connection joined: it stands where the slave with its node id stood, or else last. -/
theorem slaves_add (hr : Registered r) (conn : Connection) : (r.add conn).slaves =
    if conn.nodeId = masterId then r.slaves
    else if conn.nodeId ∈ r.slaveIds then r.slaves.map fun c => if c.nodeId = conn.nodeId then conn else c
    else r.slaves ++ [conn] := by
  rcases add_cases hr conn with ⟨hm, h⟩ | ⟨hm, i, hi, h⟩ | ⟨hm, hnew, hadd⟩
  · rw [h.added, if_pos hm]
    rfl
  · have hid : r.slaves[i].nodeId = conn.nodeId := h.old _ (List.getElem?_eq_getElem hi)
    have hmem : conn.nodeId ∈ r.slaveIds := hid ▸ List.mem_map_of_mem (List.getElem_mem hi)
    rw [h.added, if_neg hm, if_pos hmem, ← hid]
    exact Keyed.set_eq_map hr.distinct hi conn
  · rw [hadd, if_neg hm, if_neg hnew]

theorem slaveIds_add (hr : Registered r) (conn : Connection) : (r.add conn).slaveIds =
    if conn.nodeId = masterId ∨ conn.nodeId ∈ r.slaveIds then r.slaveIds else r.slaveIds ++ [conn.nodeId] := by
  by_cases hm : conn.nodeId = masterId
  · rw [slaveIds, slaves_add hr, if_pos hm, if_pos (.inl hm), slaveIds]
  · by_cases hmem : conn.nodeId ∈ r.slaveIds
    · rw [slaveIds, slaves_add hr, if_neg hm, if_pos hmem, if_pos (.inr hmem), List.map_map]
      refine List.map_congr_left fun c _ => ?_
      show (if c.nodeId = conn.nodeId then conn else c).nodeId = c.nodeId
      split_ifs with heq
      · exact heq.symm
      · rfl
    · rw [slaveIds, slaves_add hr, if_neg hm, if_neg hmem, if_neg (by simp [hm, hmem]), List.map_append, slaveIds]
      rfl

theorem master_add (r : Replication) (conn : Connection) :
    (r.add conn).master = if conn.nodeId = masterId then some conn else r.master := by
  unfold add
  by_cases hm : conn.nodeId = masterId
  · rw [if_pos hm, if_pos hm]
  · rw [if_neg hm, if_neg hm]
    split <;> rfl

theorem Registered.add (hr : Registered r) (conn : Connection) : Registered (r.add conn) where
  distinct := by
    rw [slaveIds_add hr]
    split_ifs with h
    · exact hr.distinct
    · have hnew : conn.nodeId ∉ r.slaveIds := fun hmem => h (.inr hmem)
      exact List.nodup_append_comm.1 (List.nodup_cons.2 ⟨hnew, hr.distinct⟩)
  slaves c hc := by
    rw [slaves_add hr] at hc
    split_ifs at hc with hm hmem
    · exact hr.slaves c hc
    · obtain ⟨d, hd, rfl⟩ := List.mem_map.1 hc
      split_ifs
      · exact hm
      · exact hr.slaves d hd
    · rcases List.mem_append.1 hc with hc | hc
      · exact hr.slaves c hc
      · rw [List.mem_singleton.1 hc]
        exact hm
  master c hc := by
    rw [master_add] at hc
    split_ifs at hc with hm
    · rw [← Option.some.inj hc]
      exact hm
    · exact hr.master c hc
  current := by
    obtain ⟨move, h⟩ := follows_add hr conn
    exact seated_iff.1 (h.seated hr.seated)

/-! ## Leaving -/

/-- Who is found by a name answers to it. -/
theorem answersTo_of_find {ρ : Role} (h : r.find? name = some ρ) :
    ∃ c, r.member? ρ = some c ∧ c.answersTo name = true := by
  unfold find? at h
  split_ifs at h with hmaster
  · obtain rfl := Option.some.inj h
    exact (Option.any_eq_true _ _).1 hmaster
  · obtain ⟨i, hi, rfl⟩ := Option.map_eq_some_iff.1 h
    obtain ⟨hlt, hanswers, -⟩ := List.findIdx?_eq_some_iff_getElem.1 hi
    exact ⟨r.slaves[i], List.getElem?_eq_getElem hlt, hanswers⟩

/-- Nobody has the name, or the master leaves, or a slave. -/
theorem remove_cases (r : Replication) (name : String) :
    (r.remove name = (none, r)) ∨
    (∃ c, r.master = some c ∧ r.remove name =
      (some c, { r with master := none, current := if r.current = some .master then none else r.current })) ∨
    ∃ i, ∃ hi : i < r.slaves.length, r.remove name =
      (some r.slaves[i], { r with slaves := r.slaves.eraseIdx i, current := withoutSlave i r.current }) := by
  unfold remove
  cases hfind : r.find? name with
  | none => exact .inl rfl
  | some ρ =>
    right
    obtain ⟨c, hc, -⟩ := answersTo_of_find hfind
    cases ρ with
    | master => exact .inl ⟨c, hc, by simp only [show r.master = some c from hc]⟩
    | slave i =>
      obtain ⟨hlt, -⟩ := List.getElem?_eq_some_iff.1 (show r.slaves[i]? = some c from hc)
      exact .inr ⟨i, hlt, by simp only [List.getElem?_eq_getElem hlt]⟩

/-- **Who leaves under a name:** the first who answers to it, the master before the slaves. -/
theorem fst_remove (r : Replication) (name : String) :
    (r.remove name).1 = (r.master.toList ++ r.slaves).find? (·.answersTo name) := by
  have hmember : (r.remove name).1 = (r.find? name).bind r.member? := by
    unfold remove
    cases r.find? name with
    | none => rfl
    | some ρ => cases ρ <;> rfl
  have hslaves : ((r.slaves.findIdx? (·.answersTo name)).map Role.slave).bind r.member? =
      r.slaves.find? (·.answersTo name) := by
    rw [Option.bind_map, List.find?_eq_bind_findIdx?_getElem?]
    rfl
  rw [hmember, find?, List.find?_append]
  cases hm : r.master with
  | none => exact hslaves
  | some m =>
    by_cases hanswers : m.answersTo name = true
    · simp [hanswers, member?, hm]
    · simpa [hanswers] using hslaves

theorem answersTo_of_remove {c : Connection} (h : (r.remove name).1 = some c) : c.answersTo name = true := by
  rw [fst_remove] at h
  exact (List.find?_eq_some_iff_append.1 h).1

/-- The slaves after a member left: all but the one with its node id. -/
theorem slaves_remove (hr : Registered r) (name : String) : (r.remove name).2.slaves =
    r.slaves.filter fun c => (r.remove name).1.map Connection.nodeId != some c.nodeId := by
  rcases r.remove_cases name with h | ⟨m, hm, h⟩ | ⟨i, hi, h⟩
  · rw [h]
    exact (List.filter_eq_self.2 fun c _ => rfl).symm
  · rw [h]
    refine (List.filter_eq_self.2 fun c hc => bne_iff_ne.2 fun heq => ?_).symm
    exact hr.slaves c hc (Option.some.inj heq ▸ hr.master m hm)
  · rw [h]
    refine (Keyed.eraseIdx_eq_filter hr.distinct hi).trans (List.filter_congr fun c _ => ?_)
    rw [Bool.eq_iff_iff, decide_eq_true_iff, bne_iff_ne, ne_eq, ne_eq, Option.map_some, Option.some_inj, eq_comm]

theorem master_remove (hr : Registered r) (name : String) : (r.remove name).2.master =
    r.master.filter fun c => (r.remove name).1.map Connection.nodeId != some c.nodeId := by
  rcases r.remove_cases name with h | ⟨m, hm, h⟩ | ⟨i, hi, h⟩
  · rw [h]
    cases r.master <;> rfl
  · rw [h, hm]
    exact (Option.filter_some_neg (by simp)).symm
  · rw [h]
    cases hm : r.master with
    | none => rfl
    | some m =>
      have hne : r.slaves[i].nodeId ≠ m.nodeId := by
        rw [hr.master m hm]
        exact hr.slaves _ (List.getElem_mem hi)
      exact (Option.filter_some_pos (by simpa using hne)).symm

/-- The slave at a place leaves: those behind him move up by one place. -/
theorem follows_eraseSlave (hr : Registered r) {i : Nat} (hi : i < r.slaves.length) :
    Follows (·.nodeId != r.slaves[i].nodeId) (fun ρ => withoutSlave i (some ρ)) r
      { r with slaves := r.slaves.eraseIdx i, current := withoutSlave i r.current } where
  current := by cases r.current <;> rfl
  kept ρ c hc hk := by
    cases ρ with
    | master => exact ⟨.master, rfl, hc⟩
    | slave j =>
      have hslave : r.slaves[j]? = some c := hc
      have hne : j ≠ i := by
        rintro rfl
        obtain ⟨_, rfl⟩ := List.getElem?_eq_some_iff.1 hslave
        exact bne_iff_ne.1 hk rfl
      by_cases hlt : j < i
      · refine ⟨.slave j, ?_, (List.getElem?_eraseIdx_of_lt hlt).trans hslave⟩
        simp [withoutSlave, hne, Nat.not_lt_of_lt hlt]
      · refine ⟨.slave (j - 1), ?_, ?_⟩
        · have hgt : i < j := by omega
          simp [withoutSlave, hne, hgt]
        · have hge : i ≤ j - 1 := by omega
          refine (List.getElem?_eraseIdx_of_ge hge).trans ?_
          rw [Nat.sub_add_cancel (by omega)]
          exact hslave
  dropped ρ c hc hk := by
    have hplace : r.member? (.slave i) = some r.slaves[i] := List.getElem?_eq_getElem hi
    obtain rfl : ρ = .slave i := hr.member_inj hc hplace (by simpa using hk)
    exact if_pos rfl

/-- Who a member leaves behind: all the others. -/
theorem follows_remove (hr : Registered r) (name : String) :
    ∃ move, Follows (fun c => (r.remove name).1.map Connection.nodeId != some c.nodeId) move r (r.remove name).2 := by
  rcases r.remove_cases name with h | ⟨m, hm, h⟩ | ⟨i, hi, h⟩
  · rw [h]
    exact ⟨some, (Option.bind_fun_some _).symm, fun ρ c hc _ => ⟨ρ, rfl, hc⟩, fun _ _ _ hk => nomatch hk⟩
  · rw [h]
    refine ⟨vacate .master, (bind_vacate ..).symm, ?_, ?_⟩
    · intro ρ c hc hk
      cases ρ with
      | master =>
        obtain rfl := Option.some.inj (hm.symm.trans hc)
        exact absurd rfl (bne_iff_ne.1 hk)
      | slave j => exact ⟨.slave j, rfl, hc⟩
    · intro ρ c hc hk
      obtain rfl : Role.master = ρ := hr.member_inj hm hc (Option.some.inj (by simpa using hk))
      rfl
  · rw [h]
    have hkeep : (fun c : Connection => (some r.slaves[i]).map Connection.nodeId != some c.nodeId) =
        (·.nodeId != r.slaves[i].nodeId) := by
      funext c
      rw [Bool.eq_iff_iff, bne_iff_ne, bne_iff_ne, Option.map_some, ne_eq, Option.some_inj, ne_comm]
    rw [hkeep]
    exact ⟨_, follows_eraseSlave hr hi⟩

/-- **Leaving keeps the member in use,** unless it is the one that leaves; then there is none. -/
theorem inUse_remove (hr : Registered r) (name : String) :
    (r.remove name).2.inUse = r.inUse.filter fun c => (r.remove name).1.map Connection.nodeId != some c.nodeId := by
  obtain ⟨move, h⟩ := follows_remove hr name
  exact h.inUse_eq hr.seated

theorem slaveIds_remove (hr : Registered r) (name : String) : (r.remove name).2.slaveIds =
    r.slaveIds.filter fun id => (r.remove name).1.map Connection.nodeId != some id := by
  rw [slaveIds, slaves_remove hr, slaveIds, List.filter_map]
  rfl

theorem Registered.remove (hr : Registered r) (name : String) : Registered (r.remove name).2 where
  distinct := by
    rw [slaveIds_remove hr]
    exact hr.distinct.filter _
  slaves c hc := by
    rw [slaves_remove hr] at hc
    exact hr.slaves c (List.mem_of_mem_filter hc)
  master c hc := by
    rw [master_remove hr] at hc
    exact hr.master c (Option.filter_eq_some_iff.1 hc).1
  current := by
    obtain ⟨move, h⟩ := follows_remove hr name
    exact seated_iff.1 (h.seated hr.seated)

end Replication

end RespClient
