/-
Options of a query and of a configuration document: the same settings, read by two readers.

- `Field.names`: the names of a field. `lastOf`: the value of the last pair that has one of them.
- `setQuery_eq`: nothing else of a query matters.
- `Respells`: other orders of the pairs, other names for the same fields, pairs that say nothing. `lastOf_of_respells`: none of
  these changes a last value.
- `Settings.ToldBy`: an object that gives the same settings as texts. `ofDocument?_of_toldBy`: it is read as these settings.
- `options_law`: both, for every URI that begins with a location that its scheme accepts.
-/
import Mathlib.Logic.Relation
import RespClient.Endpoint.Config
import RespClient.Proofs.UriRoundTrip

namespace RespClient

/-! ## Names of fields -/

namespace Field

/-- The second name of a field. -/
def alias? : Field → Option String
  | .timeout => some "connection_timeout"
  | .asyncConnect => some "connection_async"
  | .persistent => some "connection_persistent"
  | _ => none

def names (f : Field) : List String := f.name :: f.alias?.toList

theorem mem_names_of_ofName? {name : String} {f : Field} (h : ofName? name = some f) : name ∈ f.names := by
  unfold ofName? at h
  repeat
    rcases ite_eq_iff.1 h with ⟨hname, hf⟩ | ⟨-, h⟩
    · obtain rfl := Option.some.inj hf
      simpa [names, Field.name, alias?] using hname
  contradiction

theorem ofName?_eq_some_iff {name : String} {f : Field} : ofName? name = some f ↔ name ∈ f.names := by
  constructor
  · exact mem_names_of_ofName?
  · intro h
    rcases List.mem_cons.1 h with rfl | h
    · exact ofName?_name f
    · obtain halias : f.alias? = some name := Option.mem_toList.1 h
      cases f with
      | timeout | asyncConnect | persistent =>
        obtain rfl := Option.some.inj halias
        decide
      | _ => contradiction

end Field

/-- All settings are texts. -/
def Settings.Textual (s : Settings) : Prop := ∀ f, s.value f = (s.text? f).map .text

theorem Settings.textual_map (scheme : Option Scheme) (texts : Field → Option String) :
    Textual { scheme, value := fun f => (texts f).map .text } := by
  intro f
  unfold text?
  cases htext : texts f <;> simp [htext, Scalar.toText]

namespace Endpoint

/-! ## Pairs -/

/-- The name and the value of a pair; without `=` the value is empty. -/
def nameValue (pair : List Char) : String × String :=
  let (name, value) := (cutFirst? '=' pair).getD (pair, [])
  (String.ofList name, String.ofList value)

/-- The pair has a name of the field. -/
def Names (f : Field) (pair : List Char) : Prop := (nameValue pair).1 ∈ f.names

instance (f : Field) (pair : List Char) : Decidable (Names f pair) := inferInstanceAs (Decidable (_ ∈ _))

/-- The value that a pair gives to a field. -/
def valueIn (f : Field) (pair : List Char) : Option String := if Names f pair then some (nameValue pair).2 else none

/-- The value of the last pair with a name of the field. -/
def lastOf (pairs : List (List Char)) (f : Field) : Option String := pairs.reverse.findSome? (valueIn f)

variable {s : Settings} {f g : Field} {pair : List Char} {pairs pairs' : List (List Char)}

theorem Names.unique (hf : Names f pair) (hg : Names g pair) : f = g := by
  have hfield := Field.ofName?_eq_some_iff.2 hf
  rw [Field.ofName?_eq_some_iff.2 hg] at hfield
  exact (Option.some.inj hfield).symm

theorem setPair_of_names (s : Settings) (h : Names f pair) : setPair s pair = s.set f (.text (nameValue pair).2) := by
  have hfield : Field.ofName? (String.ofList ((cutFirst? '=' pair).getD (pair, [])).1) = some f :=
    Field.ofName?_eq_some_iff.2 h
  simp only [setPair, hfield]
  rfl

theorem setPair_of_not_names (s : Settings) (h : ∀ f, ¬Names f pair) : setPair s pair = s := by
  have hfield : Field.ofName? (String.ofList ((cutFirst? '=' pair).getD (pair, [])).1) = none := by
    rw [Option.eq_none_iff_forall_ne_some]
    exact fun f hf => h f (Field.ofName?_eq_some_iff.1 hf)
  simp only [setPair, hfield]

/-- A pair changes the field of its name. -/
theorem setPair_eq (s : Settings) (pair : List Char) :
    setPair s pair = { s with value := fun f => ((valueIn f pair).map .text).or (s.value f) } := by
  by_cases h : ∃ f, Names f pair
  · obtain ⟨f, hf⟩ := h
    rw [setPair_of_names s hf, Settings.set]
    congr 1
    funext g
    by_cases hg : g = f
    · subst hg
      simp [valueIn, hf]
    · have hother : ¬Names g pair := fun h => hg (h.unique hf)
      simp [valueIn, hg, hother]
  · have hnone : ∀ f, ¬Names f pair := not_exists.1 h
    rw [setPair_of_not_names s hnone]
    simp [valueIn, hnone]

/-- Pairs give each field the last value there is for it. The induction is on the pairs from the last one on. -/
theorem foldl_setPair_eq (pairs : List (List Char)) (s : Settings) :
    pairs.foldl setPair s = { s with value := fun f => ((lastOf pairs f).map .text).or (s.value f) } := by
  induction pairs using List.reverseRecOn with
  | nil => rfl
  | append_singleton pairs pair ih =>
    rw [List.foldl_append, List.foldl_cons, List.foldl_nil, ih, setPair_eq]
    congr 1
    funext f
    simp only [lastOf, List.reverse_append, List.reverse_singleton, List.singleton_append, List.findSome?_cons]
    cases valueIn f pair <;> rfl

/-- Empty pieces of a query give nothing. -/
theorem foldl_setPair_filter (pairs : List (List Char)) (s : Settings) :
    (pairs.filter (!·.isEmpty)).foldl setPair s = pairs.foldl setPair s := by
  induction pairs generalizing s with
  | nil => rfl
  | cons pair pairs ih =>
    cases pair with
    | nil => exact ih s
    | cons c cs => exact ih _

/-- The value of the last pair of a query with a name of the field. -/
def lastValue (query : List Char) (f : Field) : Option String := lastOf (fields '&' query) f

/-- **What a query does**: each field that is named in it gets its last value. -/
theorem setQuery_eq (s : Settings) (query : List Char) :
    setQuery s query = { s with value := fun f => ((lastValue query f).map .text).or (s.value f) } := by
  rw [setQuery, foldl_setPair_filter, foldl_setPair_eq]
  rfl

/-! ## Other spellings of a query -/

/-- A step from one list of pairs to another that says the same. -/
inductive Respells : List (List Char) → List (List Char) → Prop where
  /-- pairs of different fields in the other order -/
  | exchange (before after : List (List Char)) {p q : List Char} (apart : ∀ f, Names f p → ¬Names f q) :
      Respells (before ++ p :: q :: after) (before ++ q :: p :: after)
  /-- a pair without a name of a field left out; an empty one has none -/
  | drop (before after : List (List Char)) {p : List Char} (unknown : ∀ f, ¬Names f p) :
      Respells (before ++ p :: after) (before ++ after)
  /-- another name of the same field -/
  | rename (before after : List (List Char)) {p q : List Char} {f : Field} (name : Names f p) (name' : Names f q)
      (value : (nameValue p).2 = (nameValue q).2) : Respells (before ++ p :: after) (before ++ q :: after)

theorem lastOf_append (pairs pairs' : List (List Char)) (f : Field) :
    lastOf (pairs ++ pairs') f = (lastOf pairs' f).or (lastOf pairs f) := by
  rw [lastOf, List.reverse_append, List.findSome?_append]
  rfl

theorem lastOf_cons (pair : List Char) (pairs : List (List Char)) (f : Field) :
    lastOf (pair :: pairs) f = (lastOf pairs f).or (valueIn f pair) := by
  rw [← List.singleton_append, lastOf_append]
  simp [lastOf]

theorem lastOf_of_respells (h : Respells pairs pairs') (f : Field) :
    lastOf pairs f = lastOf pairs' f := by
  cases h with
  | @exchange before after p q apart =>
    have hone : (valueIn f q).or (valueIn f p) = (valueIn f p).or (valueIn f q) := by
      by_cases hp : Names f p
      · simp [valueIn, apart f hp]
      · simp [valueIn, hp]
    simp only [lastOf_append, lastOf_cons, Option.or_assoc, hone]
  | @drop before after p unknown =>
    have hnone : valueIn f p = none := if_neg (unknown f)
    simp only [lastOf_append, lastOf_cons, hnone, Option.or_none]
  | @rename before after p q g name name' value =>
    have hsame : valueIn f p = valueIn f q := by
      by_cases hf : f = g
      · subst hf
        simp [valueIn, name, name', value]
      · have hp : ¬Names f p := fun hp => hf (hp.unique name)
        have hq : ¬Names f q := fun hq => hf (hq.unique name')
        simp [valueIn, hp, hq]
    simp only [lastOf_append, lastOf_cons, hsame]

/-- However often a query is respelled, its last values stay. -/
theorem lastOf_of_eqvGen (h : Relation.EqvGen Respells pairs pairs') :
    lastOf pairs = lastOf pairs' := by
  induction h with
  | rel _ _ hstep => exact funext (lastOf_of_respells hstep)
  | refl _ => rfl
  | symm _ _ _ ih => exact ih.symm
  | trans _ _ _ _ _ ih ih' => exact ih.trans ih'

/-! ## Settings of a location -/

/-- Settings that say where a server is: texts, and only of the fields that a location can give. -/
structure Locates (scheme : Scheme) (s : Settings) : Prop where
  scheme : s.scheme = some scheme
  textual : s.Textual
  others : ∀ f ∈ optional, s.value f = none

theorem Locates.set {scheme : Scheme} (h : Locates scheme s) (hf : f ∉ optional) (text : List Char) :
    Locates scheme (s.set f (textScalar text)) where
  scheme := h.scheme
  textual g := by
    by_cases hg : g = f
    · subst hg
      simp [Settings.set, Settings.text?, textScalar, Scalar.toText]
    · simpa [Settings.set, Settings.text?, hg] using h.textual g
  others g hg := by
    have hne : g ≠ f := fun hgf => hf (hgf ▸ hg)
    simpa [Settings.set, hne] using h.others g hg

theorem locates_nothing (scheme : Scheme) : Locates scheme { scheme := some scheme } where
  scheme := rfl
  textual _ := rfl
  others _ _ := rfl

theorem locates_of_location {scheme : Scheme} {location : List Char} (h : locationSettings? scheme location = some s) :
    Locates scheme s := by
  cases scheme with
  | tcp =>
    change tcpSettings? location = some s at h
    unfold tcpSettings? at h
    dsimp only at h
    split at h
    · contradiction
    · contradiction
    · next host port hempty hauthority =>
      have hstart : ∀ password : List Char, Locates .tcp (if password.isEmpty then ({ scheme := some .tcp } : Settings)
          else ({ scheme := some .tcp } : Settings).set .password (textScalar password)) := by
        intro password
        split_ifs
        · exact locates_nothing .tcp
        · exact (locates_nothing .tcp).set (by decide) password
      cases port with
      | none =>
        obtain rfl := Option.some.inj h
        exact (hstart _).set (by decide) host
      | some port =>
        obtain rfl := Option.some.inj h
        exact ((hstart _).set (by decide) host).set (by decide) port
  | unix =>
    change unixSettings? location = some s at h
    unfold unixSettings? at h
    split at h
    · contradiction
    · next path hpath =>
      obtain rfl := Option.some.inj h
      exact (locates_nothing .unix).set (by decide) _

namespace Start

variable (start : Start) (query : List Char)

/-- The settings that a URI writes: the last values of its query, and for other fields what its location says. -/
def given : Settings :=
  { scheme := some start.scheme
    value := fun f => ((lastValue query f).or (start.settings.text? f)).map .text }

theorem setQuery_settings : setQuery start.settings query = start.given query := by
  have hlocates := locates_of_location start.accepted
  rw [setQuery_eq, given, hlocates.scheme]
  congr 1
  funext f
  rw [hlocates.textual f]
  cases lastValue query f <;> simp

theorem ofUri_uri : ofUri (start.uri query) = (start.given query).resolve := by
  rw [ofUri, start.settingsOfUri_uri, setQuery_settings]
  rfl

theorem ofUri_bare : ofUri start.bare = ofUri (start.uri []) := by
  rw [ofUri, ofUri, start.settingsOfUri_bare, start.settingsOfUri_uri]

end Start

end Endpoint

/-! ## Documents -/

theorem eraseDups_of_nodup {α : Type} [BEq α] [LawfulBEq α] {l : List α} (h : l.Nodup) : l.eraseDups = l := by
  induction l with
  | nil => rfl
  | cons a l ih =>
    obtain ⟨ha, hl⟩ := List.nodup_cons.1 h
    have hkeep : l.filter (fun b => !b == a) = l := by
      refine List.filter_eq_self.2 fun b hb => ?_
      have hne : b ≠ a := fun hba => ha (hba ▸ hb)
      simpa using hne
    rw [List.eraseDups_cons, hkeep, ih hl]

namespace Settings

/-- The entries of an object that are settings. -/
def known (entries : List (String × Document)) : List (Place × Document) :=
  entries.filterMap fun (name, d) => (Place.ofName? name).map (·, d)

/-- The text of a place. -/
def textAt? (s : Settings) : Place → Option String
  | .scheme => s.scheme.map Scheme.name
  | .field f => s.text? f

/-- An object with these settings, each once and as a text, in any order and under any of their names. -/
structure ToldBy (s : Settings) (entries : List (String × Document)) : Prop where
  once : ((known entries).map Prod.fst).Nodup
  told : ∀ place d, (place, d) ∈ known entries ↔ ∃ text, s.textAt? place = some text ∧ d = .text text

/-- The settings of `s` in some places, and of `s₀` in the others. -/
def overlay (s s₀ : Settings) (places : List Place) : Settings :=
  { scheme := if .scheme ∈ places then s.scheme else s₀.scheme
    value := fun f => if .field f ∈ places then s.value f else s₀.value f }

variable {s : Settings} {entries : List (String × Document)}

theorem put?_text (htextual : s.Textual) {place : Place} {text : String} (h : s.textAt? place = some text)
    (s₀ : Settings) : s₀.put? place (.text text) = some (s.overlay s₀ [place]) := by
  cases place with
  | scheme =>
    obtain ⟨scheme, hscheme, rfl⟩ := Option.map_eq_some_iff.1 h
    cases scheme <;> simp [put?, Scheme.ofDocument?, Scheme.name, overlay, hscheme]
  | field f =>
    have hf : s.value f = some (.text text) := by
      rw [htextual f, show s.text? f = some text from h, Option.map_some]
    have hvalue : (fun g => if g = f then some (Scalar.text text) else s₀.value g) =
        fun g => if g = f then s.value g else s₀.value g := by
      funext g
      by_cases hg : g = f
      · rw [if_pos hg, if_pos hg, hg, hf]
      · rw [if_neg hg, if_neg hg]
    simp [put?, Scalar.ofDocument?, overlay, set, hvalue]

/-- Entries that tell settings of `s` leave those in their places. The induction is on the entries; the order does not matter,
since a place that is met again is told the same. -/
theorem foldlM_put? (htextual : s.Textual) {known : List (Place × Document)}
    (h : ∀ entry ∈ known, ∃ text, s.textAt? entry.1 = some text ∧ entry.2 = .text text) (s₀ : Settings) :
    known.foldlM (fun s entry => s.put? entry.1 entry.2) s₀ = some (s.overlay s₀ (known.map Prod.fst)) := by
  induction known generalizing s₀ with
  | nil => simp [overlay]
  | cons entry known ih =>
    obtain ⟨⟨text, htext, hd⟩, hknown⟩ := List.forall_mem_cons.1 h
    rw [List.foldlM_cons, hd, put?_text htextual htext, Option.bind_eq_bind, Option.bind_some, ih hknown]
    congr 1
    unfold overlay
    congr 1
    · by_cases hmem : Place.scheme ∈ known.map Prod.fst <;> simp [hmem]
    · funext f
      by_cases hmem : Place.field f ∈ known.map Prod.fst <;> simp [hmem]

/-- The settings of `s` in all places where it has some are all of `s`. -/
theorem overlay_eq_self (htextual : s.Textual) {places : List Place}
    (hplaces : ∀ place, place ∈ places ↔ ∃ text, s.textAt? place = some text) : s.overlay {} places = s := by
  have hscheme : Place.scheme ∉ places → s.scheme = none := by
    intro hmem
    rw [Option.eq_none_iff_forall_ne_some]
    exact fun scheme hs => hmem ((hplaces _).2 ⟨scheme.name, congrArg (Option.map Scheme.name) hs⟩)
  have hfield : ∀ f, Place.field f ∉ places → s.value f = none := by
    intro f hmem
    have htext : s.text? f = none := by
      rw [Option.eq_none_iff_forall_ne_some]
      exact fun text htext => hmem ((hplaces _).2 ⟨text, htext⟩)
    rw [htextual f, htext, Option.map_none]
  obtain ⟨scheme, value⟩ := s
  unfold overlay
  congr 1
  · split_ifs with h
    · rfl
    · exact (hscheme h).symm
  · funext f
    split_ifs with h
    · rfl
    · exact (hfield f h).symm

/-- **An object is read as the settings it tells.** -/
theorem ofDocument?_of_toldBy (htextual : s.Textual) (h : s.ToldBy entries) : ofDocument? (.object entries) = some s := by
  have hplaces : ∀ place, place ∈ (known entries).map Prod.fst ↔ ∃ text, s.textAt? place = some text := by
    intro place
    simp only [List.mem_map, Prod.exists, exists_and_right, exists_eq_right, h.told]
    constructor
    · intro ⟨d, text, htext, _⟩
      exact ⟨text, htext⟩
    · intro ⟨text, htext⟩
      exact ⟨_, text, htext, rfl⟩
  have honce : ((known entries).map Prod.fst).eraseDups.length = (known entries).length := by
    rw [eraseDups_of_nodup h.once, List.length_map]
  have hread : ofDocument? (.object entries) = (known entries).foldlM (fun s entry => s.put? entry.1 entry.2) {} :=
    if_pos honce
  rw [hread, foldlM_put? htextual fun entry hentry => (h.told _ _).1 hentry, overlay_eq_self htextual hplaces]

/-! ## The plain object of settings -/

def Place.name : Place → String
  | .scheme => "scheme"
  | .field f => f.name

theorem Place.ofName?_name (place : Place) : Place.ofName? place.name = some place := by
  cases place with
  | scheme => rfl
  | field f => cases f <;> decide

theorem mem_order (place : Place) : place ∈ order := by
  cases place with
  | scheme => decide
  | field f => cases f <;> decide

/-- The object that writes settings as texts under their usual names. -/
def toEntries (s : Settings) : List (String × Document) :=
  order.filterMap fun place => (s.textAt? place).map fun text => (place.name, .text text)

theorem known_toEntries (s : Settings) :
    known s.toEntries = order.filterMap fun place => (s.textAt? place).map fun text => (place, .text text) := by
  unfold known toEntries
  rw [List.filterMap_filterMap]
  refine List.filterMap_congr fun place _ => ?_
  cases s.textAt? place with
  | none => rfl
  | some text => simp [Place.ofName?_name]

theorem toldBy_toEntries (s : Settings) : s.ToldBy s.toEntries where
  once := by
    rw [known_toEntries, List.map_filterMap]
    refine List.Nodup.filterMap (fun place place' q hplace hplace' => ?_) (by decide : order.Nodup)
    simp only [Option.map_map, Option.mem_def, Option.map_eq_some_iff, Function.comp_apply] at hplace hplace'
    obtain ⟨-, -, rfl⟩ := hplace
    obtain ⟨-, -, hsame⟩ := hplace'
    exact hsame.symm
  told place d := by
    simp only [known_toEntries, List.mem_filterMap, Option.map_eq_some_iff, Prod.mk.injEq]
    constructor
    · intro ⟨place', _, text, htext, hsame, hd⟩
      exact ⟨text, hsame ▸ htext, hd.symm⟩
    · intro ⟨text, htext, hd⟩
      exact ⟨place, mem_order place, text, htext, rfl, hd.symm⟩

end Settings

namespace Endpoint

theorem ofDocument_of_toldBy {s : Settings} {entries : List (String × Document)} (htextual : s.Textual)
    (h : s.ToldBy entries) : ofDocument (.object entries) = s.resolve.mapError .invalid := by
  rw [ofDocument, Settings.ofDocument?_of_toldBy htextual h]

/-- What can be said of all URIs that begin with a scheme and a location. -/
structure Start.ReadsAlike (start : Start) : Prop where
  /-- which fields the location gives -/
  located : Locates start.scheme start.settings
  bare : ofUri start.bare = ofUri (start.uri [])
  last : ∀ query query', (∀ f, lastValue query f = lastValue query' f) →
    ofUri (start.uri query) = ofUri (start.uri query')
  respelled : ∀ query query', Relation.EqvGen Respells (fields '&' query) (fields '&' query') →
    ofUri (start.uri query) = ofUri (start.uri query')
  resolved : ∀ query, ofUri (start.uri query) = (start.given query).resolve
  document : ∀ query, ofDocument (.object (start.given query).toEntries) = (ofUri (start.uri query)).mapError .invalid
  documents : ∀ query entries, (start.given query).ToldBy entries →
    ofDocument (.object entries) = (ofUri (start.uri query)).mapError .invalid

namespace Start

variable {start : Start} {query query' : List Char}

theorem textual_given : (start.given query).Textual := Settings.textual_map _ _

theorem given_congr (h : ∀ f, lastValue query f = lastValue query' f) : start.given query = start.given query' := by
  unfold given
  simp only [h]

theorem ofDocument_of_toldBy_given {entries : List (String × Document)} (h : (start.given query).ToldBy entries) :
    ofDocument (.object entries) = (ofUri (start.uri query)).mapError .invalid := by
  rw [ofUri_uri]
  exact ofDocument_of_toldBy textual_given h

end Start

/-- **The law of options.** The URIs with settings are those that begin with a scheme and a location that it accepts. Of what
follows only the last value of each field matters, so pairs of different fields can change places, pairs of no field can be
left out and a field can have any of its names, with the same endpoint or the same error. Both are the same again for an
object with the settings of the location and these last values as texts. -/
theorem options_law :
    (∀ text, (∃ s, settingsOfUri text = .ok s) ↔
      ∃ start : Start, text = start.bare ∨ ∃ query, text = start.uri query) ∧
    ∀ start : Start, start.ReadsAlike := by
  refine ⟨fun text => exists_settings_iff, fun start => ?_⟩
  have hlast : ∀ query query', (∀ f, lastValue query f = lastValue query' f) →
      ofUri (start.uri query) = ofUri (start.uri query') := by
    intro query query' h
    rw [start.ofUri_uri, start.ofUri_uri, Start.given_congr h]
  exact
    { located := locates_of_location start.accepted
      bare := start.ofUri_bare
      last := hlast
      respelled := fun query query' h => hlast query query' (congrFun (lastOf_of_eqvGen h))
      resolved := start.ofUri_uri
      document := fun query => Start.ofDocument_of_toldBy_given (Settings.toldBy_toEntries _)
      documents := fun query entries h => Start.ofDocument_of_toldBy_given h }

/-- A location with a password, and with a port that is no number, to be set right by the query. -/
def staleStart : Start where
  name := "Redis".toList
  location := "u:old@h:none/".toList
  scheme := .tcp
  settings := (tcpSettings? "u:old@h:none/".toList).get (by decide +kernel)
  named := by decide +kernel
  unmarked := by decide +kernel
  accepted := (Option.some_get _).symm

/-- The law for a query that gives a port twice and holds pairs of no field, for a shorter one that says the same under another
name, for their document, and for two wrong values in either order. -/
theorem options_law_stale :
    let long := "port=1&&x&port=7&timeout=2".toList
    let short := "connection_timeout=2&port=7".toList
    let e : Endpoint := { host := "h", port := 7, timeout := some (.ofSeconds 2), password := some "old" }
    let wrong : ClientError := .invalidParameters (.invalidValue "y" "port")
    ofUri (staleStart.uri long) = .ok e ∧ ofUri (staleStart.uri short) = .ok e ∧
      ofDocument (.object (staleStart.given long).toEntries) = .ok e ∧
      ofUri (staleStart.uri "weight=x&port=y".toList) = .error wrong ∧
      ofUri (staleStart.uri "port=y&weight=x".toList) = .error wrong := by
  intro long short e wrong
  have hlaw := options_law.2 staleStart
  have hlong : ofUri (staleStart.uri long) = .ok e := by decide +kernel
  have hshort : ∀ f, lastValue long f = lastValue short f := by
    intro f
    cases f <;> decide +kernel
  have hwrong : ofUri (staleStart.uri "weight=x&port=y".toList) = .error wrong := by decide +kernel
  have hapart : ∀ f, Names f "weight=x".toList → ¬Names f "port=y".toList := by
    intro f
    cases f <;> decide +kernel
  have hfields : fields '&' "weight=x&port=y".toList = ["weight=x".toList, "port=y".toList] ∧
      fields '&' "port=y&weight=x".toList = ["port=y".toList, "weight=x".toList] := by decide +kernel
  have hswap : Relation.EqvGen Respells (fields '&' "weight=x&port=y".toList) (fields '&' "port=y&weight=x".toList) := by
    rw [hfields.1, hfields.2]
    exact .rel _ _ (.exchange [] [] hapart)
  refine ⟨hlong, (hlaw.last long short hshort).symm.trans hlong, ?_, hwrong, (hlaw.respelled _ _ hswap).symm.trans hwrong⟩
  rw [hlaw.document, hlong]
  rfl

end Endpoint

end RespClient
