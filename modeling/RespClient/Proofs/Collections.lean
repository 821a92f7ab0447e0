/-
What the calls with several results make of a reply: the fields of a hash with their octets, and the octets of several keys.
Nothing is left out and nothing changes its place.

- `mapM_eq_ok_iff`, `mapM_eq_error_iff`: items are taken one after the other, up to the first that is refused.
- `Takes`: what a taker accepts of a reply; it raises error replies and refuses the rest alike.
- `Alternates`: fields and values in turn, and the couples of them. They are what is read of an array (`pairs?_eq`), and there
  are such couples iff the array is `IsFielded`.
- `PairsLaw`, `ItemsLaw`: the result for every reply, errors and refusals included (`pairsLaw_read`, `itemsLaw_read`).
- `collection_law`: a client's calls have these results, whatever its topology, its namespace and its options.
-/
import Mathlib
import RespClient.Client.TypedCommands
import RespClient.Proofs.Dispatch
import RespClient.Proofs.Namespaces

namespace RespClient

/-! ## One after the other -/

section Taking

variable {α β ε : Type} {take : α → Except ε β} {items : List α} {taken : List β} {e : ε}

theorem mapM_cons_eq_ok_iff {x : α} : (x :: items).mapM take = .ok taken ↔
    ∃ b bs, take x = .ok b ∧ items.mapM take = .ok bs ∧ taken = b :: bs := by
  rw [List.mapM_cons]
  cases take x with
  | error e => simp [bind, Except.bind]
  | ok b => cases items.mapM take <;> simp [bind, Except.bind, pure, Except.pure, eq_comm]

theorem mapM_cons_eq_error_iff {x : α} : (x :: items).mapM take = .error e ↔
    take x = .error e ∨ (∃ b, take x = .ok b) ∧ items.mapM take = .error e := by
  rw [List.mapM_cons]
  cases take x with
  | error e => simp [bind, Except.bind]
  | ok b => cases items.mapM take <;> simp [bind, Except.bind, pure, Except.pure]

/-- Everything is taken, each in its place. -/
theorem mapM_eq_ok_iff : items.mapM take = .ok taken ↔ List.Forall₂ (fun x b => take x = .ok b) items taken := by
  induction items generalizing taken with
  | nil => simp [pure, Except.pure, eq_comm]
  | cons x items ih =>
    simp only [mapM_cons_eq_ok_iff, List.forall₂_cons_left_iff, ih]

/-- That is so if nothing is refused. -/
theorem exists_mapM_eq_ok_iff : (∃ taken, items.mapM take = .ok taken) ↔ ∀ x ∈ items, ∃ b, take x = .ok b := by
  induction items with
  | nil => exact iff_of_true ⟨[], rfl⟩ (List.forall_mem_nil _)
  | cons x items ih =>
    rw [List.forall_mem_cons, ← ih]
    simp only [mapM_cons_eq_ok_iff]
    constructor
    · rintro ⟨_, b, bs, hx, hitems, -⟩
      exact ⟨⟨b, hx⟩, bs, hitems⟩
    · rintro ⟨⟨b, hx⟩, bs, hitems⟩
      exact ⟨_, b, bs, hx, hitems, rfl⟩

/-- Else the first that is refused says why. -/
theorem mapM_eq_error_iff : items.mapM take = .error e ↔ ∃ (i : Nat) (x : α),
    items[i]? = some x ∧ take x = .error e ∧ ∀ k < i, ∀ y, items[k]? = some y → ∃ b, take y = .ok b := by
  induction items with
  | nil => simp [pure, Except.pure]
  | cons x items ih =>
    rw [mapM_cons_eq_error_iff, ih]
    constructor
    · rintro (hx | ⟨hx, i, y, hy, herror, hearlier⟩)
      · exact ⟨0, x, rfl, hx, fun k hk => absurd hk k.not_lt_zero⟩
      · refine ⟨i + 1, y, hy, herror, ?_⟩
        intro k hk z hz
        cases k with
        | zero =>
          obtain rfl := Option.some.inj hz
          exact hx
        | succ k => exact hearlier k (Nat.lt_of_succ_lt_succ hk) z hz
    · rintro ⟨i, y, hy, herror, hearlier⟩
      cases i with
      | zero =>
        obtain rfl := Option.some.inj hy
        exact .inl herror
      | succ i =>
        refine .inr ⟨hearlier 0 i.succ_pos x rfl, i, y, hy, herror, ?_⟩
        exact fun k hk => hearlier (k + 1) (Nat.succ_lt_succ hk)

end Taking

namespace Reply

/-- What the payload of a reply is, or the octets of its text. -/
def payload? : Reply → Option Bytes
  | .bulk payload => some payload
  | .status text => some (Bytes.ofText text)
  | _ => none

def IsBulk (r : Reply) : Prop := ∃ payload, r = .bulk payload

/-- Octets, or a text that stands for its octets. -/
def IsField (r : Reply) : Prop := r.IsBulk ∨ ∃ text, r = .status text

/-- The reply for the octets of a key, or for a key that is not there. -/
def ofOctets : Option Bytes → Reply
  | some payload => .bulk payload
  | none => .nil

theorem isSome_payload?_iff {r : Reply} : (∃ octets, r.payload? = some octets) ↔ r.IsField := by
  cases r <;> simp [payload?, IsField, IsBulk]

end Reply

namespace Catalogue

/-- The commands of an id are known, and their replies are read in a shape. -/
def Reads (catalogue : Catalogue) (id : String) (shape : ReplyShape) : Prop :=
  ∃ spec, catalogue.find? id = some spec ∧ spec.shape = shape

theorem standard_hash : standard.find? "HGETALL" = some (.named "HGETALL" .first .read .map) := by decide +kernel

theorem standard_values : standard.find? "MGET" = some (.named "MGET" .every .read) := by decide +kernel

end Catalogue

namespace Client

/-! ## What is accepted of a reply -/

/-- A taker of the call `id`: what it accepts of a reply, it takes; an error reply is raised, and the rest is refused. -/
structure Takes {α β : Type} (id : String) (value : α → Reply) (Accepts : α → β → Prop) (take : α → Except ClientError β) :
    Prop where
  ok_iff : ∀ x b, take x = .ok b ↔ Accepts x b
  server_iff : ∀ x e, take x = .error (.server e) ↔ value x = .error e
  refused : ∀ x e, take x = .error e → (∃ reply, e = .server reply) ∨ e = .unexpectedResponse id

theorem takes_octets (id : String) : Takes id (fun r : Reply => r) (fun r octets => r = .ofOctets octets)
    (fun r => takeOctets? id (.ofReply r)) where
  ok_iff r octets := by cases r <;> cases octets <;> simp [Value.ofReply, takeOctets?, Reply.ofOctets, eq_comm]
  server_iff r e := by cases r <;> simp [Value.ofReply, takeOctets?, unexpected]
  refused r e := by cases r <;> simp [Value.ofReply, takeOctets?, unexpected] <;> rintro rfl <;> simp

theorem takes_pair (id : String) : Takes id Prod.snd (fun (c : Bytes × Reply) (p : Bytes × Bytes) => c = (p.1, .bulk p.2))
    (fun c => takePair id (c.1, .ofReply c.2)) where
  ok_iff c p := by
    obtain ⟨field, r⟩ := c
    cases r <;> simp [Value.ofReply, takePair, Prod.ext_iff]
  server_iff c e := by
    obtain ⟨field, r⟩ := c
    cases r <;> simp [Value.ofReply, takePair, unexpected]
  refused c e := by
    obtain ⟨field, r⟩ := c
    cases r <;> simp [Value.ofReply, takePair, unexpected] <;> rintro rfl <;> simp

namespace Takes

variable {α β : Type} {id : String} {value : α → Reply} {Accepts : α → β → Prop} {take : α → Except ClientError β}
  {items : List α} {taken : List β} {e : ErrorReply}

theorem mapM_ok_iff (h : Takes id value Accepts take) : items.mapM take = .ok taken ↔ List.Forall₂ Accepts items taken := by
  simp only [mapM_eq_ok_iff, h.ok_iff]

theorem exists_mapM_ok_iff (h : Takes id value Accepts take) :
    (∃ taken, items.mapM take = .ok taken) ↔ ∀ x ∈ items, ∃ b, Accepts x b := by
  simp only [exists_mapM_eq_ok_iff, h.ok_iff]

theorem mapM_server_iff (h : Takes id value Accepts take) : items.mapM take = .error (.server e) ↔
    ∃ (i : Nat) (x : α), items[i]? = some x ∧ value x = .error e ∧ ∀ k < i, ∀ y, items[k]? = some y → ∃ b, Accepts y b := by
  simp only [mapM_eq_error_iff, h.ok_iff, h.server_iff]

theorem mapM_refused (h : Takes id value Accepts take) {e : ClientError} (he : items.mapM take = .error e) :
    (∃ reply, e = .server reply) ∨ e = .unexpectedResponse id := by
  obtain ⟨i, x, -, hx, -⟩ := mapM_eq_error_iff.1 he
  exact h.refused x e hx

end Takes

end Client

/-! ## Fields and values in turn -/

/-- The members of pairs, one after the other. -/
def unpaired {α : Type} (pairs : List (α × α)) : List α := pairs.flatMap fun p => [p.1, p.2]

/-- The items are fields and values in turn, and these are the couples of them. -/
inductive Alternates : List Reply → List (Bytes × Reply) → Prop where
  | nil : Alternates [] []
  | cons {field value : Reply} {octets : Bytes} {items : List Reply} {couples : List (Bytes × Reply)} :
      field.payload? = some octets → Alternates items couples →
      Alternates (field :: value :: items) ((octets, value) :: couples)

/-- An array with an even number of items, those at even places fields. -/
structure IsFielded (items : List Reply) : Prop where
  even : items.length % 2 = 0
  fields : ∀ i item, items[i]? = some item → i % 2 = 0 → item.IsField

namespace IsFielded

variable {field value : Reply} {items : List Reply}

theorem cons_cons_iff : IsFielded (field :: value :: items) ↔ field.IsField ∧ IsFielded items := by
  constructor
  · rintro ⟨heven, hfields⟩
    refine ⟨hfields 0 field rfl rfl, ?_, ?_⟩
    · rwa [List.length_cons, List.length_cons, Nat.add_assoc, Nat.add_mod_right] at heven
    · intro i item hitem hi
      exact hfields (i + 2) item hitem (by rwa [Nat.add_mod_right])
  · rintro ⟨hfield, heven, hfields⟩
    refine ⟨?_, ?_⟩
    · rwa [List.length_cons, List.length_cons, Nat.add_assoc, Nat.add_mod_right]
    · intro i item hitem hi
      match i with
      | 0 =>
        obtain rfl := Option.some.inj hitem
        exact hfield
      | 1 => contradiction
      | i + 2 => exact hfields i item hitem (by rwa [Nat.add_mod_right] at hi)

end IsFielded

namespace Alternates

variable {items : List Reply} {couples : List (Bytes × Reply)}

/-- Such an array, and no other, spells couples: two items at a time, as they are read. -/
theorem exists_iff : ∀ {items : List Reply}, (∃ couples, Alternates items couples) ↔ IsFielded items
  | [] => iff_of_true ⟨[], .nil⟩ ⟨rfl, fun i item h => nomatch h⟩
  | [field] => by
    refine iff_of_false ?_ ?_
    · rintro ⟨couples, h⟩
      cases h
    · rintro ⟨heven, -⟩
      contradiction
  | field :: value :: items => by
    rw [IsFielded.cons_cons_iff, ← Reply.isSome_payload?_iff, ← exists_iff]
    constructor
    · rintro ⟨couples, h⟩
      cases h with
      | cons hfield hitems => exact ⟨⟨_, hfield⟩, _, hitems⟩
    · rintro ⟨⟨octets, hfield⟩, couples, hitems⟩
      exact ⟨_, .cons hfield hitems⟩

/-- The value of a couple stands at an odd place. -/
theorem getElem?_odd (h : Alternates items couples) (i : Nat) : items[2 * i + 1]? = couples[i]?.map Prod.snd := by
  induction h generalizing i with
  | nil => rfl
  | cons hfield hitems ih =>
    cases i with
    | zero => rfl
    | succ i => exact ih i

theorem getElem?_of_odd (h : Alternates items couples) {i : Nat} (hi : i % 2 = 1) {item : Reply}
    (hitem : items[i]? = some item) : ∃ c, couples[i / 2]? = some c ∧ c.2 = item := by
  have hplace := h.getElem?_odd (i / 2)
  rw [show 2 * (i / 2) + 1 = i by omega, hitem] at hplace
  exact Option.map_eq_some_iff.1 hplace.symm

theorem forall_values_iff (h : Alternates items couples) {P : Reply → Prop} :
    (∀ c ∈ couples, P c.2) ↔ ∀ i item, items[i]? = some item → i % 2 = 1 → P item := by
  constructor
  · intro hcouples i item hitem hi
    obtain ⟨c, hc, rfl⟩ := h.getElem?_of_odd hi hitem
    exact hcouples c (List.mem_of_getElem? hc)
  · intro hitems c hc
    obtain ⟨i, hi⟩ := List.getElem?_of_mem hc
    exact hitems (2 * i + 1) c.2 (by rw [h.getElem?_odd, hi, Option.map_some]) (by omega)

/-- What is read of the items is the couples. -/
theorem pairs?_eq (h : Alternates items couples) :
    ReplyShape.pairs? items = some (couples.map fun c => (c.1, .ofReply c.2)) := by
  induction h with
  | nil => rfl
  | @cons field value octets items couples hfield hitems ih =>
    cases field with
    | bulk payload =>
      obtain rfl := Option.some.inj hfield
      simp only [ReplyShape.pairs?, ih, Option.map_some, List.map_cons]
    | status text =>
      obtain rfl := Option.some.inj hfield
      simp only [ReplyShape.pairs?, ih, Option.map_some, List.map_cons]
    | _ => contradiction

/-- Couples of octets only: their payloads are those of the items, place by place. -/
theorem map_payload? {pairs : List (Bytes × Bytes)} (h : Alternates items (pairs.map fun p => (p.1, .bulk p.2))) :
    items.map Reply.payload? = (unpaired pairs).map some := by
  induction pairs generalizing items with
  | nil =>
    cases h
    rfl
  | cons p pairs ih =>
    cases h with
    | cons hfield hitems =>
      rw [List.map_cons, List.map_cons, hfield, ih hitems]
      rfl

end Alternates

/-- Nothing is read of other arrays. -/
theorem ReplyShape.isFielded_of_pairs? : ∀ {items : List Reply} {pairs : List (Bytes × Value)},
    pairs? items = some pairs → IsFielded items
  | [], _, _ => Alternates.exists_iff.1 ⟨[], .nil⟩
  | .bulk payload :: value :: items, _, h => by
    obtain ⟨pairs, hpairs, -⟩ := Option.map_eq_some_iff.1 h
    exact IsFielded.cons_cons_iff.2 ⟨.inl ⟨payload, rfl⟩, isFielded_of_pairs? hpairs⟩
  | .status text :: value :: items, _, h => by
    obtain ⟨pairs, hpairs, -⟩ := Option.map_eq_some_iff.1 h
    exact IsFielded.cons_cons_iff.2 ⟨.inr ⟨text, rfl⟩, isFielded_of_pairs? hpairs⟩

/-! ## Results by the reply -/

theorem Reply.exists_ofOctets_iff {r : Reply} : (∃ octets, r = .ofOctets octets) ↔ r = .nil ∨ r.IsBulk := by
  constructor
  · rintro ⟨_ | payload, rfl⟩
    · exact .inl rfl
    · exact .inr ⟨payload, rfl⟩
  · rintro (rfl | ⟨payload, rfl⟩)
    · exact ⟨none, rfl⟩
    · exact ⟨some payload, rfl⟩

/-- The result of asking for the fields of a hash, by the reply. -/
structure PairsLaw (id : String) (reply : Reply) (result : Except ClientError (List (Bytes × Bytes))) : Prop where
  ok_iff : (∃ pairs, result = .ok pairs) ↔ reply = .nil ∨ ∃ items, reply = .array items ∧ IsFielded items ∧
    ∀ i item, items[i]? = some item → i % 2 = 1 → item.IsBulk
  nothing : reply = .nil → result = .ok []
  /-- the pairs in turn are the payloads of the items, place by place -/
  pairs : ∀ items pairs, reply = .array items → result = .ok pairs →
    items.map Reply.payload? = (unpaired pairs).map some
  /-- an error reply is raised, and so is the first value that is not octets if it is one -/
  server_iff : ∀ e, result = .error (.server e) ↔ reply = .error e ∨ ∃ items, reply = .array items ∧ IsFielded items ∧
    ∃ i, i % 2 = 1 ∧ items[i]? = some (.error e) ∧ ∀ k < i, k % 2 = 1 → ∀ item, items[k]? = some item → item.IsBulk
  refused : ∀ e, result = .error e → (∃ reply, e = .server reply) ∨ e = .unexpectedResponse id

/-- The result of asking for several values, by the reply. -/
structure ItemsLaw (id : String) (reply : Reply) (result : Except ClientError (List (Option Bytes))) : Prop where
  ok_iff : (∃ values, result = .ok values) ↔ ∃ items, reply = .array items ∧ ∀ item ∈ items, item = .nil ∨ item.IsBulk
  /-- the values are those of the items, place by place -/
  values : ∀ values, result = .ok values → reply = .array (values.map .ofOctets)
  /-- an error reply is raised, and so is the first item that is no value if it is one -/
  server_iff : ∀ e, result = .error (.server e) ↔ reply = .error e ∨ ∃ items, reply = .array items ∧
    ∃ i : Nat, items[i]? = some (.error e) ∧ ∀ k < i, ∀ item, items[k]? = some item → item = .nil ∨ item.IsBulk
  refused : ∀ e, result = .error e → (∃ reply, e = .server reply) ∨ e = .unexpectedResponse id

namespace Client

theorem forall₂_eq_map_iff {α β : Type} {g : β → α} {items : List α} {taken : List β} :
    List.Forall₂ (fun x b => x = g b) items taken ↔ items = taken.map g := by
  rw [← List.forall₂_map_right_iff (R := Eq), List.forall₂_eq_eq_eq]

variable {id : String} {items : List Reply} {couples : List (Bytes × Reply)}

/-- What is taken of couples. -/
theorem mapM_takePair_eq_ok_iff {pairs : List (Bytes × Bytes)} :
    couples.mapM (fun c => takePair id (c.1, .ofReply c.2)) = .ok pairs ↔
      couples = pairs.map fun p => (p.1, .bulk p.2) := by
  rw [(takes_pair id).mapM_ok_iff, forall₂_eq_map_iff]

theorem pairsLaw_of_alternates (id : String) (h : Alternates items couples) :
    PairsLaw id (.array items) (couples.mapM fun c => takePair id (c.1, .ofReply c.2)) := by
  have hfielded : IsFielded items := Alternates.exists_iff.1 ⟨couples, h⟩
  have hbulk : ∀ c : Bytes × Reply, (∃ p : Bytes × Bytes, c = (p.1, .bulk p.2)) ↔ c.2.IsBulk := by
    rintro ⟨field, r⟩
    simp [Reply.IsBulk, Prod.ext_iff]
  refine ⟨?_, nofun, ?_, fun e => ⟨?_, ?_⟩, fun e => (takes_pair id).mapM_refused⟩
  · simp only [(takes_pair id).exists_mapM_ok_iff, hbulk, h.forall_values_iff, reduceCtorEq, false_or,
      Reply.array.injEq, exists_eq_left', hfielded, true_and]
  · rintro _ pairs ⟨⟩ hpairs
    rw [mapM_takePair_eq_ok_iff.1 hpairs] at h
    exact h.map_payload?
  -- couples are taken from the first to the last, and the value of couple `i` is item `2 * i + 1`
  · intro hresult
    obtain ⟨i, c, hc, herror, hearlier⟩ := (takes_pair id).mapM_server_iff.1 hresult
    refine .inr ⟨items, rfl, hfielded, 2 * i + 1, by omega, ?_, ?_⟩
    · rw [h.getElem?_odd, hc, Option.map_some, herror]
    · intro k hk hodd item hitem
      obtain ⟨d, hd, rfl⟩ := h.getElem?_of_odd hodd hitem
      exact (hbulk d).1 (hearlier (k / 2) (by omega) d hd)
  · rintro (herror | ⟨_, ⟨⟩, -, i, hi, herror, hearlier⟩)
    · cases herror
    · obtain ⟨c, hc, hvalue⟩ := h.getElem?_of_odd hi herror
      refine (takes_pair id).mapM_server_iff.2 ⟨i / 2, c, hc, hvalue, ?_⟩
      intro k hk d hd
      refine (hbulk d).2 (hearlier (2 * k + 1) (by omega) (by omega) d.2 ?_)
      rw [h.getElem?_odd, hd, Option.map_some]

/-- An error reply is raised, under every shape. -/
theorem pairsLaw_error (id : String) (e : ErrorReply) : PairsLaw id (.error e) (.error (.server e)) where
  ok_iff := iff_of_false nofun (by simp)
  nothing := nofun
  pairs := nofun
  server_iff e' := by simp [eq_comm]
  refused e' h := .inl ⟨e, (Except.error.inj h).symm⟩

theorem pairsLaw_nil (id : String) : PairsLaw id .nil (.ok []) where
  ok_iff := iff_of_true ⟨[], rfl⟩ (.inl rfl)
  nothing _ := rfl
  pairs := nofun
  server_iff e := iff_of_false nofun (by simp)
  refused := nofun

/-- What is neither nothing nor an error nor an array of fields and values is refused. -/
theorem pairsLaw_refused {reply : Reply} (hnil : reply ≠ .nil) (herror : ∀ e, reply ≠ .error e)
    (harray : ∀ items, reply = .array items → ¬ IsFielded items) :
    PairsLaw id reply (.error (.unexpectedResponse id)) where
  ok_iff := by
    refine iff_of_false nofun ?_
    rintro (h | ⟨items, h, hfielded, -⟩)
    · exact hnil h
    · exact harray items h hfielded
  nothing h := absurd h hnil
  pairs := nofun
  server_iff e := by
    refine iff_of_false nofun ?_
    rintro (h | ⟨items, h, hfielded, -⟩)
    · exact herror e h
    · exact harray items h hfielded
  refused e h := .inr (Except.error.inj h).symm

/-- **What is made of a reply to the request for a hash.** -/
theorem pairsLaw_read (id : String) (reply : Reply) :
    PairsLaw id reply ((ReplyShape.map.read id reply).bind (takePairs id)) := by
  cases reply with
  | error e => exact pairsLaw_error id e
  | nil => exact pairsLaw_nil id
  | array items =>
    by_cases h : IsFielded items
    · obtain ⟨couples, hcouples⟩ := Alternates.exists_iff.2 h
      have hread : ReplyShape.map.read id (.array items) =
          .ok (.map (couples.map fun c => (c.1, .ofReply c.2))) := by
        simp only [ReplyShape.read, ReplyShape.value?, hcouples.pairs?_eq, Option.map_some]
      have htaken : takePairs id (.map (couples.map fun c => (c.1, .ofReply c.2))) =
          couples.mapM fun c => takePair id (c.1, .ofReply c.2) := List.mapM_map ..
      simp only [hread, Except.bind, htaken]
      exact pairsLaw_of_alternates id hcouples
    · have hread : ReplyShape.map.read id (.array items) = .error (.unexpectedResponse id) := by
        cases hpairs : ReplyShape.pairs? items with
        | none => simp only [ReplyShape.read, ReplyShape.value?, hpairs, Option.map_none]
        | some pairs => exact absurd (ReplyShape.isFielded_of_pairs? hpairs) h
      rw [hread]
      exact pairsLaw_refused nofun nofun fun _ heq => Reply.array.inj heq ▸ h
  | _ => exact pairsLaw_refused nofun nofun nofun

theorem itemsLaw_array (id : String) (items : List Reply) :
    ItemsLaw id (.array items) (items.mapM fun r => takeOctets? id (.ofReply r)) := by
  have hok : ∀ values, (items.mapM fun r => takeOctets? id (.ofReply r)) = .ok values ↔
      items = values.map .ofOctets := by
    intro values
    rw [(takes_octets id).mapM_ok_iff, forall₂_eq_map_iff]
  refine ⟨?_, ?_, fun e => ?_, fun e => (takes_octets id).mapM_refused⟩
  · simp only [(takes_octets id).exists_mapM_ok_iff, Reply.exists_ofOctets_iff, Reply.array.injEq, exists_eq_left']
  · intro values hvalues
    rw [← (hok values).1 hvalues]
  · simp only [(takes_octets id).mapM_server_iff, Reply.exists_ofOctets_iff, reduceCtorEq, false_or, Reply.array.injEq,
      exists_eq_left']
    constructor
    · rintro ⟨i, x, hx, rfl, hearlier⟩
      exact ⟨i, hx, hearlier⟩
    · rintro ⟨i, hx, hearlier⟩
      exact ⟨i, _, hx, rfl, hearlier⟩

/-- **What is made of a reply to the request for several values.** -/
theorem itemsLaw_read (id : String) (reply : Reply) :
    ItemsLaw id reply ((ReplyShape.raw.read id reply).bind (takeItems id)) := by
  have hrefused : (∀ items, reply ≠ .array items) → (∀ e, reply ≠ .error e) →
      ItemsLaw id reply (.error (.unexpectedResponse id)) := by
    intro harray herror
    refine ⟨iff_of_false nofun ?_, nofun, fun e => iff_of_false nofun ?_, fun e h => .inr (Except.error.inj h).symm⟩
    · rintro ⟨items, h, -⟩
      exact harray items h
    · rintro (h | ⟨items, h, -⟩)
      · exact herror e h
      · exact harray items h
  cases reply with
  | error e =>
    show ItemsLaw id (.error e) (.error (.server e))
    refine ⟨iff_of_false nofun (by simp), nofun, fun e' => by simp [eq_comm], ?_⟩
    exact fun e' h => .inl ⟨e, (Except.error.inj h).symm⟩
  | array items =>
    have htaken : takeItems id (.ofReply (.array items)) = items.mapM fun r => takeOctets? id (.ofReply r) := by
      rw [Value.ofReply, Value.ofReplies_eq_map]
      exact List.mapM_map ..
    simp only [ReplyShape.read, ReplyShape.value?, Except.bind, htaken]
    exact itemsLaw_array id items
  | _ => exact hrefused nofun nofun

/-! ## Calls -/

variable {c : Client} {net : Network} {command : Command} {arguments : List Bytes}

/-- A command without a script: its reply is presented, whatever it is. -/
theorem run_of_no_script (h : command.script = none) (target : Option String) :
    c.run target command net = (c.dispatch target command net).refine (c.present command) := by
  unfold run
  simp only [settle_of_no_script h, present_dispatch, Outcome.andThen, Outcome.refine]
  cases (c.dispatch target command net).result <;> rfl

/-- Whether error replies are raised makes no difference to a taker that raises them. -/
theorem present_bind {α : Type} {take : Value → Except ClientError α} (htake : ∀ e, take (.error e) = .error (.server e))
    (reply : Reply) : (c.present command reply).bind take = (command.readReply reply).bind take := by
  cases reply with
  | error e =>
    have hread : command.readReply (.error e) = .ok (.error e) := by
      unfold Command.readReply ReplyShape.read ReplyShape.value?
      cases command.spec.shape <;> rfl
    rw [hread]
    unfold present raise
    split_ifs
    · exact (htake e).symm
    · rfl
  | _ => rfl

/-- The command of a call is that of the catalogue. -/
theorem exists_create {spec : CommandSpec} (h : c.catalogue.find? id = some spec) (arguments : List Bytes) :
    ∃ command, c.create id arguments = .ok command ∧ command.spec = spec ∧ command.script = none := by
  unfold create Catalogue.create
  rw [h]
  cases c.keyPrefix? with
  | none => exact ⟨_, rfl, rfl, rfl⟩
  | some p => exact ⟨_, congrArg Except.ok (p.apply_eq _), rfl, rfl⟩

/-- A command is sent, and this is the result by the reply to it; if there is none, the call fails as sending did. -/
structure Answered {α : Type} (c : Client) (net : Network) (id : String) (arguments : List Bytes)
    (ResultLaw : Reply → Except ClientError α → Prop) (o : Outcome Client α) (command : Command) : Prop where
  created : c.create id arguments = .ok command
  left : o.state = (c.dispatch none command net).state ∧ o.network = (c.dispatch none command net).network
  replied : ∀ reply, (c.dispatch none command net).result = .ok reply → ResultLaw reply o.result
  failed : ∀ e, (c.dispatch none command net).result = .error e → o.result = .error e

theorem exists_answered {α : Type} {take : Value → Except ClientError α} {shape : ReplyShape}
    {ResultLaw : Reply → Except ClientError α → Prop} (hreads : c.catalogue.Reads id shape) (hid : upperAscii id = id)
    (htake : ∀ e, take (.error e) = .error (.server e))
    (hlaw : ∀ reply, ResultLaw reply ((shape.read id reply).bind take)) (arguments : List Bytes) (net : Network) :
    ∃ command, Answered c net id arguments ResultLaw (c.callFor id arguments take net) command := by
  obtain ⟨spec, hspec, rfl⟩ := hreads
  obtain ⟨command, hcreate, rfl, hscript⟩ := exists_create hspec arguments
  have hname : command.spec.id = id := by simpa [hid] using List.find?_some hspec
  have hpresent : ∀ reply, (c.present command reply).bind take = (command.spec.shape.read id reply).bind take := by
    intro reply
    rw [present_bind htake, Command.readReply, Command.id, hname]
  have hcall : c.callFor id arguments take net =
      (c.dispatch none command net).refine fun reply => (command.spec.shape.read id reply).bind take := by
    unfold callFor call execute
    simp only [hcreate, run_of_no_script hscript, ← hpresent, Outcome.refine]
    cases (c.dispatch none command net).result <;> rfl
  rw [hcall]
  refine ⟨command, hcreate, ⟨rfl, rfl⟩, ?_, ?_⟩
  · intro reply hreply
    show ResultLaw reply ((c.dispatch none command net).result.bind _)
    rw [hreply]
    exact hlaw reply
  · intro e he
    show (c.dispatch none command net).result.bind _ = _
    rw [he]
    rfl

/-- **The law of collections.** A client whose catalogue reads the replies for a hash in pairs, and those for several values as
they come, asks for them with one command each. The fields of a hash are returned iff the reply is nil, or an array of an
even number of items, of which those at even places are fields and those at odd places octets: they are its payloads, place
by place. Several values are returned iff the reply is an array of octets and nils: they are its items, place by place. An
error is raised if it is the reply, or the first item of the array that is no value; any other reply is unexpected. -/
theorem collection_law (c : Client) (hmap : c.catalogue.Reads "HGETALL" .map) (hraw : c.catalogue.Reads "MGET" .raw)
    (net : Network) :
    (∀ key, ∃ command, Answered c net "HGETALL" [key] (PairsLaw "HGETALL") (c.hgetall key net) command) ∧
    ∀ keys, ∃ command, Answered c net "MGET" keys (ItemsLaw "MGET") (c.mget keys net) command :=
  ⟨fun key => exists_answered hmap (by decide) (fun _ => rfl) (pairsLaw_read "HGETALL") [key] net,
    fun keys => exists_answered hraw (by decide) (fun _ => rfl) (itemsLaw_read "MGET") keys net⟩

/-- A hash of one field twice, the second time with an error for its value. -/
theorem collection_law_nested :
    let net : Network := ⟨[(.host "h" 1, { coming := [.accepted
      { octets := Bytes.ofText "*4\r\n+a\r\n$1\r\n1\r\n$1\r\na\r\n-ERR no\r\n" }] })]⟩
    let c : Client := { topology := .single { endpoint := { host := "h", port := 1 } } }
    c.catalogue.Reads "HGETALL" .map ∧ c.catalogue.Reads "MGET" .raw ∧
    (c.hgetall [104] net).result = .error (.server ⟨"ERR no"⟩) := by
  intro net c
  have hmap : c.catalogue.Reads "HGETALL" .map := ⟨_, Catalogue.standard_hash, rfl⟩
  have hraw : c.catalogue.Reads "MGET" .raw := ⟨_, Catalogue.standard_values, rfl⟩
  let asked : Command := { spec := .named "HGETALL" .first .read .map, arguments := [[104]] }
  have hreply : (c.dispatch none asked net).result =
      .ok (.array [.status "a", .bulk [49], .bulk [97], .error ⟨"ERR no"⟩]) := by cbv
  obtain ⟨command, hanswered⟩ := (collection_law c hmap hraw net).1 [104]
  obtain rfl : asked = command := Except.ok.inj hanswered.created
  refine ⟨hmap, hraw, ((hanswered.replied _ hreply).server_iff _).2 (.inr ⟨_, rfl, ?_, 3, rfl, rfl, ?_⟩)⟩
  · exact Alternates.exists_iff.1 ⟨_, .cons rfl (.cons rfl .nil)⟩
  · intro k hk hodd item hitem
    obtain rfl : k = 1 := by omega
    exact ⟨[49], (Option.some.inj hitem).symm⟩

end Client

end RespClient
