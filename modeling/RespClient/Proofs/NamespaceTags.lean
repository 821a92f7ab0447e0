/-
Namespaces in a cluster: what the octets before the keys of a command make of its routing key. Putting them there moves the
first `{`, and could open or close a tag across the border between the octets and a key.

- `Encloses.append`: a tag of the octets is the tag of every key behind them.
- `encloses_append_iff`: octets without `{` neither make a tag nor break one.
- `keys_apply`: the keys of a command in a namespace are its keys behind the octets.
- `sharding_law`: a namespace with a tag of its own is stored in one place, and one without `{` keeps routing keys that are
  tags and extends those that are whole keys. In neither is a command refused that was not refused before.
-/
import RespClient.Cluster
import RespClient.Proofs.KeyTags

namespace RespClient

/-! ## Tags across the border -/

variable {octets key tag : Bytes}

/-- What follows a tag does not change it. -/
theorem Encloses.append (h : Encloses octets tag) (key : Bytes) : Encloses (octets ++ key) tag := by
  obtain ⟨hne, hclose, before, after, hopen, rfl⟩ := h
  exact ⟨hne, hclose, before, after ++ key, hopen, by simp⟩

/-- Nor does what goes before it, as long as it does not open another one. -/
theorem encloses_append_iff (hoctets : 123 ∉ octets) : Encloses (octets ++ key) tag ↔ Encloses key tag := by
  constructor
  · intro ⟨hne, hclose, before, after, hopen, hsplit⟩
    rcases List.append_eq_append_iff.1 hsplit with ⟨front, rfl, hkey⟩ | ⟨back, rfl, hback⟩
    · -- the first `{` stands in the key
      exact ⟨hne, hclose, front, after, fun hmem => hopen (List.mem_append_right octets hmem), hkey⟩
    · -- it can stand before the key only right at its start
      cases back with
      | nil => exact ⟨hne, hclose, [], after, List.not_mem_nil, hback.symm⟩
      | cons b back =>
        obtain rfl : 123 = b := (List.cons.inj hback).1
        exact absurd (List.mem_append_right before List.mem_cons_self) hoctets
  · intro ⟨hne, hclose, before, after, hopen, hkey⟩
    exact ⟨hne, hclose, octets ++ before, after, by simp [hoctets, hopen], by simp [hkey]⟩

theorem keyTag_append_of_encloses (hoctets : 123 ∉ octets) (h : Encloses key tag) : keyTag (octets ++ key) = keyTag key := by
  rw [keyTag_of_encloses h]
  exact keyTag_of_encloses ((encloses_append_iff hoctets).2 h)

theorem keyTag_append_of_not_encloses (hoctets : 123 ∉ octets) (h : ∀ tag, ¬Encloses key tag) :
    keyTag (octets ++ key) = octets ++ keyTag key := by
  rw [keyTag_of_not_encloses h]
  exact keyTag_of_not_encloses fun tag htag => h tag ((encloses_append_iff hoctets).1 htag)

/-! ## Routing keys in a namespace -/

namespace Command

variable {c c' : Command} {f g : Bytes → Bytes}

/-- Keys that change as `f` does, and tags with them as `g` does: so does the routing key, if `g` keeps tags apart. -/
theorem routingKey_of_keys_map (hkeys : c'.keys = c.keys.map f) (htag : ∀ key ∈ c.keys, keyTag (f key) = g (keyTag key))
    (hg : Function.Injective g) : c'.routingKey = c.routingKey.map g := by
  unfold routingKey
  rw [hkeys]
  cases hc : c.keys with
  | nil => rfl
  | cons first others =>
    rw [hc] at htag
    obtain ⟨hfirst, hothers⟩ := List.forall_mem_cons.1 htag
    have hall : (others.map f).all (keyTag · == keyTag (f first)) = others.all (keyTag · == keyTag first) := by
      rw [List.all_map, Bool.eq_iff_iff, List.all_eq_true, List.all_eq_true]
      refine forall₂_congr fun key hkey => ?_
      simp only [Function.comp_apply, beq_iff_eq, hothers key hkey, hfirst, hg.eq_iff]
    rw [List.map_cons]
    simp only [hall]
    rw [hfirst]
    split_ifs <;> rfl

end Command

namespace KeyPrefix

variable {p : KeyPrefix} {c : Command}

theorem keys_apply (p : KeyPrefix) (hc : c.spec.keys.CountsApart) : (p.apply c).keys = c.keys.map (p.octets ++ ·) := by
  have hextends := extends_apply p hc
  unfold Command.keys
  rw [hextends.positions, List.map_filterMap]
  exact List.filterMap_congr hextends.keys

/-- A namespace with a tag routes every command by it. -/
theorem routingKey_apply_of_encloses (hc : c.spec.keys.CountsApart) (h : Encloses p.octets tag) (hkeys : c.keys ≠ []) :
    (p.apply c).routingKey = some tag := by
  rw [Command.routingKey_eq_some_iff, keys_apply p hc]
  refine ⟨by simpa using hkeys, fun key hkey => ?_⟩
  obtain ⟨inner, -, rfl⟩ := List.mem_map.1 hkey
  exact keyTag_of_encloses (h.append inner)

/-- Tags that are there already stay. -/
theorem routingKey_apply_of_tags (hc : c.spec.keys.CountsApart) (hoctets : 123 ∉ p.octets)
    (htags : ∀ key ∈ c.keys, ∃ tag, Encloses key tag) : (p.apply c).routingKey = c.routingKey := by
  have hmap := Command.routingKey_of_keys_map (g := id) (keys_apply p hc) (fun key hkey => ?_) Function.injective_id
  · rw [hmap, Option.map_id_fun, id]
  · obtain ⟨tag, htag⟩ := htags key hkey
    exact keyTag_append_of_encloses hoctets htag

/-- Whole keys are routed as whole keys. -/
theorem routingKey_apply_of_no_tags (hc : c.spec.keys.CountsApart) (hoctets : 123 ∉ p.octets)
    (hplain : ∀ key ∈ c.keys, ∀ tag, ¬Encloses key tag) : (p.apply c).routingKey = c.routingKey.map (p.octets ++ ·) :=
  Command.routingKey_of_keys_map (keys_apply p hc)
    (fun key hkey => keyTag_append_of_not_encloses hoctets (hplain key hkey)) (List.append_right_injective p.octets)

/-- The octets and the keys of a command leave no doubt where a tag begins: the octets have a tag, or they have no `{` and the
keys all have tags or all have none. -/
def Clear (p : KeyPrefix) (c : Command) : Prop :=
  (∃ tag, Encloses p.octets tag) ∨
    123 ∉ p.octets ∧ ((∀ key ∈ c.keys, ∃ tag, Encloses key tag) ∨ ∀ key ∈ c.keys, ∀ tag, ¬Encloses key tag)

/-- A command with a routing key has one in the namespace. -/
theorem isSome_routingKey_apply (hc : c.spec.keys.CountsApart) (hclear : p.Clear c) (h : c.routingKey.isSome) :
    (p.apply c).routingKey.isSome := by
  obtain ⟨key, hkey⟩ := Option.isSome_iff_exists.1 h
  rcases hclear with ⟨tag, htag⟩ | ⟨hoctets, htags | hplain⟩
  · rw [routingKey_apply_of_encloses hc htag (Command.routingKey_eq_some_iff.1 hkey).1]
    rfl
  · rwa [routingKey_apply_of_tags hc hoctets htags]
  · rwa [routingKey_apply_of_no_tags hc hoctets hplain, Option.isSome_map]

end KeyPrefix

/-- One routing key, one member, whatever the command. -/
theorem Cluster.locate_eq_of_routingKey {cluster : Cluster} {c c' : Command} (h : c.routingKey = some tag)
    (h' : c'.routingKey = some tag) : cluster.locate c = cluster.locate c' := by
  rw [locate, locate, h, h']
  rfl

namespace KeyPrefix

/-- What a namespace makes of the routing of a command. -/
structure Shards (p : KeyPrefix) (c : Command) : Prop where
  tagged : ∀ tag, Encloses p.octets tag → c.keys ≠ [] → (p.apply c).routingKey = some tag
  together : ∀ (tag : Bytes) (c' : Command) (cluster : Cluster), Encloses p.octets tag → c'.spec.keys.CountsApart →
    c.keys ≠ [] → c'.keys ≠ [] → cluster.locate (p.apply c) = cluster.locate (p.apply c')
  kept : 123 ∉ p.octets → (∀ key ∈ c.keys, ∃ tag, Encloses key tag) → (p.apply c).routingKey = c.routingKey
  extended : 123 ∉ p.octets → (∀ key ∈ c.keys, ∀ tag, ¬Encloses key tag) →
    ∀ key, (p.apply c).routingKey = some (p.octets ++ key) ↔ c.routingKey = some key
  routable : p.Clear c → c.routingKey.isSome → (p.apply c).routingKey.isSome

/-- **The law of namespaces in a cluster.** A namespace with a tag of its own is stored with one member. One without `{` keeps
the routing keys of commands whose keys have tags, and puts itself before those of commands whose keys have none. -/
theorem sharding_law (p : KeyPrefix) {c : Command} (hc : c.spec.keys.CountsApart) : p.Shards c where
  tagged _ htag hkeys := routingKey_apply_of_encloses hc htag hkeys
  together _ _ _ htag hc' hkeys hkeys' :=
    Cluster.locate_eq_of_routingKey (routingKey_apply_of_encloses hc htag hkeys)
      (routingKey_apply_of_encloses hc' htag hkeys')
  kept hoctets htags := routingKey_apply_of_tags hc hoctets htags
  extended hoctets hplain key := by
    rw [routingKey_apply_of_no_tags hc hoctets hplain, Option.map_eq_some_iff]
    constructor
    · intro ⟨key', hkey', hsame⟩
      rwa [← List.append_cancel_left hsame]
    · intro hkey
      exact ⟨key, hkey, rfl⟩
  routable := isSome_routingKey_apply hc

/-- The law for a union in a namespace with a tag and an open brace behind it, and for an assignment in one that closes a tag
it never opened. -/
theorem sharding_law_braces :
    let union : Command :=
      { spec := .named "ZUNIONSTORE" (.counted 1 true) .write
        arguments := ["a", "2", "\x7bb\x7d", "c\x7d"].map Bytes.ofText }
    let assignment : Command :=
      { spec := .named "MSET" .alternate .write
        arguments := ["\x7bu\x7d1", "1", "a\x7bu\x7d\x7bv\x7d", "2"].map Bytes.ofText }
    let tag := Bytes.ofText "t"
    let tagged : KeyPrefix := ⟨Bytes.ofText "n\x7bt\x7d\x7b"⟩
    let bare : KeyPrefix := ⟨Bytes.ofText "n\x7d:"⟩
    (union.spec.keys.CountsApart ∧ union.routingKey = none ∧ Encloses tagged.octets tag ∧
        (tagged.apply union).routingKey = some tag) ∧
      assignment.spec.keys.CountsApart ∧ assignment.routingKey = some (Bytes.ofText "u") ∧
        (bare.apply assignment).routingKey = assignment.routingKey := by
  intro union assignment tag tagged bare
  have hunion : union.spec.keys.CountsApart := by decide
  have hassignment : assignment.spec.keys.CountsApart := by decide
  have htagged : Encloses tagged.octets tag := by decide +kernel
  have htags : ∀ key ∈ assignment.keys, ∃ tag, Encloses key tag := by
    simp only [exists_encloses_iff]
    decide +kernel
  exact ⟨⟨hunion, by decide +kernel, htagged, (sharding_law tagged hunion).tagged _ htagged (by decide +kernel)⟩,
    hassignment, by decide +kernel, (sharding_law bare hassignment).kept (by decide +kernel) htags⟩

/-- Where it is not clear which brace opens a tag, a namespace can take a routing key away. -/
example :
    let c : Command := { spec := .named "MGET" .every .read, arguments := ["\x7bt\x7da", "x\x7bt\x7d"].map Bytes.ofText }
    let p : KeyPrefix := ⟨Bytes.ofText "n\x7b"⟩
    c.routingKey = some (Bytes.ofText "t") ∧ (p.apply c).routingKey = none := by decide +kernel

end KeyPrefix

end RespClient
