/-
Tags and routing keys. The tag of a key is what its first `{` and the next `}` enclose, or else the whole key, and the
routing key of a command is the tag that its keys share.

- `Encloses`: a tag between the first `{` and the next `}`, said without cutting. `keyTag_of_encloses`,
  `keyTag_of_not_encloses`: the tag is that one, and without one the key itself.
- `KeyLayout.IsKey`, `Command.mem_keys_iff`: which arguments are keys, for each layout.
- `routingKey_eq_some_iff`, `routingKey_eq_none_iff`: the routing key is the tag of all keys, and when there is none.
- `tag_law`: taking the tag again changes nothing; a command is routed by the tag of all its keys, so their order and number
  do not matter, and a routing key that is used as a key leads to itself.
-/
import RespClient.Proofs.Framing
import RespClient.Proofs.Namespaces

namespace RespClient

/-! ## Tags -/

/-- The first `{` and the next `}` of the key enclose the tag, which is not empty. -/
def Encloses (key tag : Bytes) : Prop :=
  tag ≠ [] ∧ 125 ∉ tag ∧ ∃ before after, 123 ∉ before ∧ key = before ++ 123 :: (tag ++ 125 :: after)

variable {key tag : Bytes}

theorem keyTag_of_encloses (h : Encloses key tag) : keyTag key = tag := by
  obtain ⟨hne, hclose, before, after, hopen, rfl⟩ := h
  obtain ⟨b, rest, rfl⟩ := List.exists_cons_of_ne_nil hne
  simp only [keyTag, cutFirst?_append hopen, cutFirst?_append hclose]

/-- Either a tag is enclosed or the key is its own tag. -/
theorem keyTag_cases (key : Bytes) : Encloses key (keyTag key) ∨ keyTag key = key := by
  unfold keyTag
  split
  · exact .inr rfl
  · next before afterOpen hopen =>
    obtain ⟨hkey, hbefore⟩ := cutFirst?_eq_some_iff.1 hopen
    split
    · next b tag after hclose =>
      obtain ⟨hafter, htag⟩ := cutFirst?_eq_some_iff.1 hclose
      exact .inl ⟨List.cons_ne_nil b tag, htag, before, after, hbefore, by rw [hkey, hafter]⟩
    · exact .inr rfl

theorem keyTag_of_not_encloses (h : ∀ tag, ¬Encloses key tag) : keyTag key = key :=
  (keyTag_cases key).resolve_left (h _)

/-- A tag is enclosed exactly where it is not the key itself, being shorter. -/
theorem encloses_iff : Encloses key tag ↔ keyTag key = tag ∧ tag ≠ key := by
  constructor
  · intro h
    refine ⟨keyTag_of_encloses h, ?_⟩
    obtain ⟨-, -, before, after, -, rfl⟩ := h
    intro hsame
    have hlength := congrArg List.length hsame
    simp only [List.length_append, List.length_cons] at hlength
    omega
  · intro ⟨htag, hne⟩
    subst htag
    exact (keyTag_cases key).resolve_right hne

instance (key tag : Bytes) : Decidable (Encloses key tag) := decidable_of_iff _ encloses_iff.symm

theorem exists_encloses_iff : (∃ tag, Encloses key tag) ↔ keyTag key ≠ key := by
  constructor
  · intro ⟨tag, h⟩
    obtain ⟨htag, hne⟩ := encloses_iff.1 h
    rwa [htag]
  · intro hne
    exact ⟨keyTag key, encloses_iff.2 ⟨rfl, hne⟩⟩

/-- A tag has no `}` in it, so it encloses nothing. -/
theorem Encloses.not_encloses (h : Encloses key tag) (inner : Bytes) : ¬Encloses tag inner := by
  obtain ⟨-, hclose, -⟩ := h
  intro hinner
  obtain ⟨-, -, before, after, -, rfl⟩ := hinner
  simp at hclose

/-- A tag is its own tag. -/
theorem keyTag_keyTag (key : Bytes) : keyTag (keyTag key) = keyTag key := by
  rcases keyTag_cases key with h | h
  · exact keyTag_of_not_encloses h.not_encloses
  · rw [h, h]

/-! ## Keys of a command -/

namespace KeyLayout

variable {layout : KeyLayout} {args : List Bytes} {i : Nat}

/-- The argument at a place is a key. -/
def IsKey (layout : KeyLayout) (args : List Bytes) (i : Nat) : Prop :=
  match layout with
  | .keyless => False
  | .first => i = 0
  | .every => True
  | .alternate => i % 2 = 0
  | .butLast count => i + count < args.length
  | .counted countAt leading => leading = true ∧ i = 0 ∨ countAt < i ∧ i ≤ countAt + declared countAt args

theorem mem_positions_iff : i ∈ layout.positions args ↔ i < args.length ∧ layout.IsKey args i := by
  cases layout with
  | keyless | every => simp [positions, IsKey]
  | first | butLast count =>
    simp only [positions, IsKey, List.mem_range]
    omega
  | alternate =>
    simp only [positions, IsKey, List.mem_map, List.mem_range]
    constructor
    · rintro ⟨j, hj, rfl⟩
      omega
    · intro h
      exact ⟨i / 2, by omega, by omega⟩
  | counted countAt leading =>
    rw [mem_positions_counted]
    simp only [IsKey]
    constructor
    · rintro (⟨hleading, hpos, rfl⟩ | ⟨hlt, hle, hlength⟩)
      · exact ⟨hpos, .inl ⟨hleading, rfl⟩⟩
      · exact ⟨hlength, .inr ⟨hlt, hle⟩⟩
    · rintro ⟨hlength, ⟨hleading, rfl⟩ | ⟨hlt, hle⟩⟩
      · exact .inl ⟨hleading, hlength, rfl⟩
      · exact .inr ⟨hlt, hle, hlength⟩

end KeyLayout

namespace Command

variable {c c' : Command}

/-- The keys of a command are the arguments at their places. -/
theorem mem_keys_iff :
    key ∈ c.keys ↔ ∃ i, c.spec.keys.IsKey c.arguments i ∧ c.arguments[i]? = some key := by
  simp only [keys, List.mem_filterMap, KeyLayout.mem_positions_iff]
  constructor
  · rintro ⟨i, ⟨-, hkey⟩, harg⟩
    exact ⟨i, hkey, harg⟩
  · rintro ⟨i, hkey, harg⟩
    obtain ⟨hi, -⟩ := List.getElem?_eq_some_iff.1 harg
    exact ⟨i, ⟨hi, hkey⟩, harg⟩

/-! ## Routing keys -/

/-- The routing key is the tag of all keys. -/
theorem routingKey_eq_some_iff : c.routingKey = some tag ↔ c.keys ≠ [] ∧ ∀ key ∈ c.keys, keyTag key = tag := by
  unfold routingKey
  cases c.keys with
  | nil => simp
  | cons first others =>
    simp only [Option.ite_none_right_eq_some, List.all_eq_true, beq_iff_eq, Option.some.injEq, List.forall_mem_cons]
    constructor
    · rintro ⟨hall, rfl⟩
      exact ⟨List.cons_ne_nil _ _, rfl, hall⟩
    · rintro ⟨-, rfl, hall⟩
      exact ⟨hall, rfl⟩

/-- A command has none without keys, or with keys of different tags. -/
theorem routingKey_eq_none_iff :
    c.routingKey = none ↔ c.keys = [] ∨ ∃ key ∈ c.keys, ∃ key' ∈ c.keys, keyTag key ≠ keyTag key' := by
  rw [Option.eq_none_iff_forall_ne_some]
  simp only [ne_eq, routingKey_eq_some_iff]
  cases hkeys : c.keys with
  | nil => simp
  | cons first others =>
    constructor
    · intro hnone
      right
      by_contra hsame
      push Not at hsame
      exact hnone (keyTag first) ⟨List.cons_ne_nil _ _, fun key hkey => hsame key hkey first List.mem_cons_self⟩
    · rintro (h | ⟨key, hkey, key', hkey', hne⟩) tag ⟨-, hall⟩
      · contradiction
      · exact hne ((hall key hkey).trans (hall key' hkey').symm)

/-- Which keys there are decides, not how often or in which order. -/
theorem routingKey_congr (h : ∀ key, key ∈ c'.keys ↔ key ∈ c.keys) : c'.routingKey = c.routingKey := by
  have hnil : c'.keys = [] ↔ c.keys = [] := by
    simp only [List.eq_nil_iff_forall_not_mem, h]
  ext tag
  simp only [routingKey_eq_some_iff, ne_eq, hnil, h]

/-- A routing key that is the only key of a command is its routing key. -/
theorem routingKey_of_keys_eq (h : c.routingKey = some tag) (hkeys : c'.keys = [tag]) : c'.routingKey = some tag := by
  obtain ⟨hne, hall⟩ := routingKey_eq_some_iff.1 h
  obtain ⟨first, hfirst⟩ := List.exists_mem_of_ne_nil _ hne
  have htag : keyTag tag = tag := by
    rw [← hall first hfirst]
    exact keyTag_keyTag first
  rw [routingKey_eq_some_iff, hkeys]
  simp [htag]

/-- How a command is routed by the tags of its keys. -/
structure RoutedByTags (c : Command) : Prop where
  keys : ∀ key, key ∈ c.keys ↔ ∃ i, c.spec.keys.IsKey c.arguments i ∧ c.arguments[i]? = some key
  shared : ∀ tag, c.routingKey = some tag ↔ c.keys ≠ [] ∧ ∀ key ∈ c.keys, keyTag key = tag
  missing : c.routingKey = none ↔ c.keys = [] ∨ ∃ key ∈ c.keys, ∃ key' ∈ c.keys, keyTag key ≠ keyTag key'
  alike : ∀ c' : Command, (∀ key, key ∈ c'.keys ↔ key ∈ c.keys) → c'.routingKey = c.routingKey
  again : ∀ (c' : Command) (tag : Bytes), c.routingKey = some tag → c'.keys = [tag] → c'.routingKey = some tag

end Command

/-- **The law of tags.** The tag of a key is what it encloses, and the key itself if it encloses nothing; the tag of a tag is
that tag. A command is routed by the tag of all its keys. -/
theorem tag_law :
    (∀ key tag, Encloses key tag → keyTag key = tag) ∧ (∀ key, (∀ tag, ¬Encloses key tag) → keyTag key = key) ∧
      (∀ key, keyTag (keyTag key) = keyTag key) ∧ ∀ c : Command, c.RoutedByTags := by
  refine ⟨fun _ _ => keyTag_of_encloses, fun _ => keyTag_of_not_encloses, keyTag_keyTag, fun c => ?_⟩
  exact
    { keys := fun _ => Command.mem_keys_iff
      shared := fun _ => Command.routingKey_eq_some_iff
      missing := Command.routingKey_eq_none_iff
      alike := fun _ => Command.routingKey_congr
      again := fun _ _ => Command.routingKey_of_keys_eq }

/-- The law for a tag with braces around it and in it, for a pair of braces with nothing between them, and for the keys of an
assignment and what is stored under their routing key. -/
theorem tag_law_nested :
    let tag := Bytes.ofText "\x7bb"
    let key := Bytes.ofText "a\x7d\x7b\x7bb\x7d\x7bc\x7d"
    let plain := Bytes.ofText "x\x7b\x7d\x7by\x7d"
    let assignment : Command :=
      { spec := .named "MSET" .alternate .write
        arguments := [key, plain, Bytes.ofText "\x7b\x7bb\x7dd", key] }
    let lookup : Command := { spec := .named "GET" .first .read, arguments := [tag] }
    (Encloses key tag ∧ keyTag key = tag) ∧ ((∀ tag, ¬Encloses plain tag) ∧ keyTag plain = plain) ∧
      assignment.routingKey = some tag ∧ lookup.routingKey = some tag := by
  intro tag key plain assignment lookup
  obtain ⟨hencloses, hplain, -, hcommand⟩ := tag_law
  have hkey : Encloses key tag := by decide +kernel
  have hnone : ∀ tag, ¬Encloses plain tag := not_exists.1 (exists_encloses_iff.not.2 (by decide +kernel))
  have hrouted : assignment.routingKey = some tag :=
    ((hcommand assignment).shared _).2 ⟨by decide +kernel, by decide +kernel⟩
  exact ⟨⟨hkey, hencloses _ _ hkey⟩, ⟨hnone, hplain _ hnone⟩, hrouted,
    (hcommand assignment).again lookup _ hrouted (by decide +kernel)⟩

end RespClient
