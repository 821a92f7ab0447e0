/-
Endpoints as URIs and back: the URI that is written for an endpoint is read as that endpoint, its password gone.

- `written`: the text of each field that the URI gives, from `options` and from the place before them.
- `settingsOfUri_toUri`: reading gives back exactly these texts, however the host, the path and the label look.
- `resolve_settings`: these texts resolve to the fields they were written for, and what was left out to its default.
- `ofUri_toUri`: both together, for every endpoint whose place and texts have none of the marks that end them
  (`Writable`).
-/
import RespClient.Proofs.UriParts
import RespClient.Proofs.WrittenNumbers

namespace RespClient

/-! ## Fields under their names -/

/-- The name of a field; where there are two, the one that is written. -/
def Field.name : Field → String
  | .host => "host"
  | .port => "port"
  | .path => "path"
  | .timeout => "timeout"
  | .readWriteTimeout => "read_write_timeout"
  | .asyncConnect => "async_connect"
  | .persistent => "persistent"
  | .tcpNodelay => "tcp_nodelay"
  | .database => "database"
  | .password => "password"
  | .label => "alias"
  | .weight => "weight"

theorem Field.ofName?_name (f : Field) : Field.ofName? f.name = some f := by cases f <;> decide

theorem Field.not_mem_name {c : Char} (hc : c = '=' ∨ c = '&') (f : Field) : c ∉ f.name.toList := by
  rcases hc with rfl | rfl <;> cases f <;> decide

namespace Endpoint

/-- The fields that a query can write. -/
def optional : List Field :=
  [.timeout, .readWriteTimeout, .asyncConnect, .persistent, .tcpNodelay, .database, .label, .weight]

variable {e : Endpoint} {f g : Field}

/-- The text that is written for a field, if one is. -/
def written (e : Endpoint) : Field → Option String
  | .host => match e.scheme with
    | .tcp => some e.host
    | .unix => none
  | .port => match e.scheme with
    | .tcp => some (toString e.port)
    | .unix => none
  | .path => match e.scheme with
    | .tcp => none
    | .unix => e.path
  | .timeout => if e.timeout = some (.ofSeconds 5) then none else some (showTimeout e.timeout)
  | .readWriteTimeout => e.readWriteTimeout.map fun t => showTimeout (some t)
  | .asyncConnect => if e.asyncConnect then some "1" else none
  | .persistent => if e.persistent then some "1" else none
  | .tcpNodelay => if e.tcpNodelay then none else some "0"
  | .database => e.database.map toString
  | .password => none
  | .label => e.label
  | .weight => e.weight.map toString

/-- A field with its text, as a pair of the query. -/
def entry (e : Endpoint) (f : Field) : Option (String × String) := (e.written f).map (f.name, ·)

theorem options_eq (e : Endpoint) : e.options = optional.filterMap e.entry := by
  have htimeout : (e.entry .timeout).toList =
      if e.timeout = some (.ofSeconds 5) then [] else [("timeout", showTimeout e.timeout)] := by
    unfold entry written
    split_ifs <;> rfl
  have hreadWrite : (e.entry .readWriteTimeout).toList =
      if e.readWriteTimeout.isSome then [("read_write_timeout", showTimeout e.readWriteTimeout)] else [] := by
    unfold entry written
    cases e.readWriteTimeout <;> rfl
  have hasync : (e.entry .asyncConnect).toList = if e.asyncConnect then [("async_connect", "1")] else [] := by
    unfold entry written
    split_ifs <;> rfl
  have hpersistent : (e.entry .persistent).toList = if e.persistent then [("persistent", "1")] else [] := by
    unfold entry written
    split_ifs <;> rfl
  have hnodelay : (e.entry .tcpNodelay).toList = if e.tcpNodelay then [] else [("tcp_nodelay", "0")] := by
    unfold entry written
    split_ifs <;> rfl
  have hdatabase : (e.entry .database).toList = e.database.toList.map fun n => ("database", toString n) := by
    unfold entry written
    cases e.database <;> rfl
  have hlabel : (e.entry .label).toList = e.label.toList.map fun name => ("alias", name) := by
    unfold entry written
    cases e.label <;> rfl
  have hweight : (e.entry .weight).toList = e.weight.toList.map fun n => ("weight", toString n) := by
    unfold entry written
    cases e.weight <;> rfl
  rw [List.filterMap_eq_flatMap_toList, optional]
  simp only [List.flatMap_cons, List.flatMap_nil, List.append_nil, htimeout, hreadWrite, hasync, hpersistent, hnodelay,
    hdatabase, hlabel, hweight, options, List.append_assoc]

/-- A pair of the query. -/
def pairText (p : String × String) : List Char := p.1.toList ++ '=' :: p.2.toList

theorem setPair_pairText (s : Settings) (f : Field) (v : String) :
    setPair s (pairText (f.name, v)) = s.set f (.text v) := by
  have hcut : cutFirst? '=' (pairText (f.name, v)) = some (f.name.toList, v.toList) :=
    cutFirst?_append (f.not_mem_name (.inl rfl)) _
  simp only [setPair, hcut, Option.getD_some, String.ofList_toList, f.ofName?_name, textScalar]

/-- Reading the entries of some fields sets those of them that are written. The induction is on the fields; one that is not
written leaves no pair. -/
theorem foldl_setPair (fields : List Field) (s : Settings) :
    ((fields.filterMap e.entry).map pairText).foldl setPair s =
      { s with value := fun g => if g ∈ fields then ((e.written g).map .text).or (s.value g) else s.value g } := by
  induction fields generalizing s with
  | nil => simp
  | cons f fields ih =>
    cases hf : e.written f with
    | none =>
      rw [List.filterMap_cons_none (by simp [entry, hf]), ih]
      congr 1
      funext g
      by_cases hg : g = f
      · subst hg
        simp [hf]
      · simp [hg]
    | some v =>
      rw [List.filterMap_cons_some (by simp [entry, hf] : e.entry f = some (f.name, v)), List.map_cons, List.foldl_cons,
        setPair_pairText, ih, Settings.set]
      congr 1
      funext g
      by_cases hg : g = f
      · subst hg
        simp [hf]
      · simp [hg]

/-! ## Endpoints that can be written -/

/-- A network place: any host but one with a mark that ends it. It may hold colons. -/
structure TcpPlace (e : Endpoint) : Prop where
  path : e.path = none
  host : e.host ≠ ""
  marks : ∀ c ∈ ['/', '?', '@', '[', ']'], c ∉ e.host.toList

/-- A socket's place: any path from the root without a question mark. -/
structure UnixPlace (e : Endpoint) : Prop where
  path : ∃ path rest, e.path = some path ∧ path.toList = '/' :: rest ∧ '?' ∉ rest
  host : e.host = ({} : Endpoint).host
  port : e.port = ({} : Endpoint).port

/-- Endpoints that a URI can write, their passwords aside. -/
structure Writable (e : Endpoint) : Prop where
  place : match e.scheme with
    | .tcp => TcpPlace e
    | .unix => UnixPlace e
  label : ∀ name, e.label = some name → name ≠ "" ∧ '&' ∉ name.toList
  timeout : Restorable e.timeout
  readWriteTimeout : Restorable e.readWriteTimeout

theorem Writable.tcp (h : Writable e) (hscheme : e.scheme = .tcp) : TcpPlace e := by
  have hplace := h.place
  rwa [hscheme] at hplace

theorem Writable.unix (h : Writable e) (hscheme : e.scheme = .unix) : UnixPlace e := by
  have hplace := h.place
  rwa [hscheme] at hplace

/-! ## The text of a URI -/

/-- What stands between the scheme and the query. -/
def place (e : Endpoint) : List Char :=
  match e.scheme with
  | .tcp => e.authority.toList
  | .unix => (e.path.getD "").toList

/-- What a query puts after the place. -/
def slash (e : Endpoint) : List Char :=
  match e.scheme with
  | .tcp => ['/']
  | .unix => []

/-- The pairs of the query. -/
def pairs (e : Endpoint) : List (List Char) := (optional.filterMap e.entry).map pairText

theorem identity_toList (e : Endpoint) : e.identity.toList = e.scheme.name.toList ++ ':' :: '/' :: '/' :: e.place := by
  unfold identity place
  cases e.scheme <;> simp [Scheme.name]

/-- The identity, and pairs behind a mark if there are any. -/
theorem text_toList {texts : List String} {mark : String} (htexts : texts.map String.toList = e.pairs)
    (hmark : mark.toList = e.slash ++ ['?']) :
    (if texts.isEmpty then e.identity else e.identity ++ mark ++ String.intercalate "&" texts).toList =
      e.scheme.name.toList ++ ':' :: '/' :: '/' :: (e.place ++
        if e.pairs = [] then [] else e.slash ++ '?' :: ['&'].intercalate e.pairs) := by
  have hempty : texts.isEmpty = true ↔ e.pairs = [] := by
    rw [List.isEmpty_iff, ← htexts, List.map_eq_nil_iff]
  by_cases hpairs : e.pairs = []
  · rw [if_pos (hempty.2 hpairs), if_pos hpairs, identity_toList, List.append_nil]
  · rw [if_neg (mt hempty.1 hpairs), if_neg hpairs, String.toList_append, String.toList_append, identity_toList,
      String.toList_intercalate, htexts, hmark]
    simp

theorem toUri_toList (e : Endpoint) :
    e.toUri.toList = e.scheme.name.toList ++ ':' :: '/' :: '/' :: (e.place ++
      if e.pairs = [] then [] else e.slash ++ '?' :: ['&'].intercalate e.pairs) := by
  unfold toUri
  refine text_toList ?_ ?_
  · rw [options_eq, List.map_map]
    exact List.map_congr_left fun p _ => by simp [pairText]
  · unfold slash
    cases e.scheme <;> rfl

theorem ofName_name (scheme : Scheme) : Scheme.ofName scheme.name = .ok scheme := by
  cases scheme <;> decide

/-! ## Reading the text -/

theorem isDigit_of_mem_port {c : Char} (h : c ∈ (toString e.port).toList) : c.isDigit :=
  isDigit_of_mem_toString (n := e.port.toNat) h

/-- A host in brackets or without colons, and a port, are told apart. -/
theorem splitAuthority?_authority (h : TcpPlace e) :
    splitAuthority? e.authority.toList = some (e.host.toList, some (toString e.port).toList) := by
  have hport : ':' ∉ (toString e.port).toList := by
    intro hmem
    exact absurd (isDigit_of_mem_port hmem) (by decide)
  by_cases hcolon : ':' ∈ e.host.toList
  · have hauthority : e.authority.toList = '[' :: (e.host.toList ++ ']' :: ':' :: (toString e.port).toList) := by
      simp [authority, hcolon]
    simp only [hauthority, splitAuthority?, cutFirst?_append (h.marks ']' (by decide))]
  · have hauthority : e.authority.toList = e.host.toList ++ ':' :: (toString e.port).toList := by
      simp [authority, hcolon]
    have hcut := cutLast?_append e.host.toList hport
    -- a host that is not in brackets does not begin with one
    rw [hauthority]
    unfold splitAuthority?
    split
    · next rest heq =>
      exfalso
      cases hhost : e.host.toList with
      | nil => exact h.host (String.toList_eq_nil_iff.1 hhost)
      | cons c cs =>
        rw [hhost, List.cons_append, List.cons.injEq] at heq
        apply h.marks '[' (by decide)
        rw [hhost, heq.1]
        exact List.mem_cons_self
    · rw [hcut]

theorem not_mem_authority {c : Char} (h : TcpPlace e) (hc : c ∈ ['/', '?', '@']) : c ∉ e.authority.toList := by
  have hhost : c ∉ e.host.toList := h.marks c (List.mem_append_left ['[', ']'] hc)
  have hport : c ∉ (toString e.port).toList := by
    intro hmem
    have hdigit := isDigit_of_mem_port hmem
    fin_cases hc <;> exact absurd hdigit (by decide)
  have hmarks : c ≠ '[' ∧ c ≠ ']' ∧ c ≠ ':' := by fin_cases hc <;> decide
  unfold authority
  split_ifs <;> simp [hhost, hport, hmarks]

/-- What the place gives: the fields that are not in the query. -/
def placeSettings (e : Endpoint) : Settings :=
  { scheme := some e.scheme, value := fun f => if f ∈ optional then none else (e.written f).map .text }

/-- All that the text gives. -/
def settings (e : Endpoint) : Settings := { scheme := some e.scheme, value := fun f => (e.written f).map .text }

/-- A network place is found again, with or without a query after it. -/
theorem tcpSettings?_place (h : TcpPlace e) (hscheme : e.scheme = .tcp) {after : List Char}
    (hafter : after = [] ∨ after = e.slash) : tcpSettings? (e.place ++ after) = some e.placeSettings := by
  have hplace : e.place = e.authority.toList := by rw [place, hscheme]
  have hslash : e.slash = ['/'] := by rw [slash, hscheme]
  have htake : (e.authority.toList ++ after).takeWhile (· != '/') = e.authority.toList := by
    have hnone : ∀ c ∈ e.authority.toList, (c != '/') = true := by
      intro c hc
      rw [bne_iff_ne]
      rintro rfl
      exact not_mem_authority h (by decide) hc
    rw [List.takeWhile_append_of_pos hnone]
    rcases hafter with rfl | rfl <;> simp [hslash]
  -- no password was written
  have hcut : cutLast? '@' e.authority.toList = none := cutLast?_of_not_mem (not_mem_authority h (by decide))
  have hset : (({ scheme := some .tcp } : Settings).set .host (textScalar e.host.toList)).set .port
      (textScalar (toString e.port).toList) = e.placeSettings := by
    unfold placeSettings Settings.set
    congr 1
    · rw [hscheme]
    · funext f
      cases f <;> simp [optional, written, hscheme, textScalar]
  cases hhost : e.host.toList with
  | nil => exact absurd (String.toList_eq_nil_iff.1 hhost) h.host
  | cons c cs =>
    rw [hhost] at hset
    simp only [tcpSettings?, hplace, htake, hcut, splitAuthority?_authority h, hhost, List.isEmpty_nil, ↓reduceIte, hset]

/-- And so is a socket's place. -/
theorem unixSettings?_place (h : UnixPlace e) (hscheme : e.scheme = .unix) {after : List Char}
    (hafter : after = [] ∨ after = e.slash) : unixSettings? (e.place ++ after) = some e.placeSettings := by
  obtain ⟨path, rest, hpath, hrest, -⟩ := h.path
  have hplace : e.place ++ after = '/' :: rest := by
    have hnothing : after = [] := by simpa [slash, hscheme] using hafter
    simp [place, hscheme, hpath, hrest, hnothing]
  have hset : ({ scheme := some .unix } : Settings).set .path (textScalar ('/' :: rest)) = e.placeSettings := by
    unfold placeSettings Settings.set
    congr 1
    · rw [hscheme]
    · funext f
      cases f <;> simp [optional, written, hscheme, textScalar, hpath, ← hrest]
  simp only [unixSettings?, hplace, List.dropWhile_cons, bne_self_eq_false, Bool.false_eq_true, ↓reduceIte, hset]

theorem locationSettings?_place (h : Writable e) {after : List Char} (hafter : after = [] ∨ after = e.slash) :
    locationSettings? e.scheme (e.place ++ after) = some e.placeSettings := by
  cases hscheme : e.scheme with
  | tcp => exact tcpSettings?_place (h.tcp hscheme) hscheme hafter
  | unix => exact unixSettings?_place (h.unix hscheme) hscheme hafter

theorem not_mem_place (h : Writable e) : '?' ∉ e.place := by
  unfold place
  cases hscheme : e.scheme with
  | tcp => exact not_mem_authority (h.tcp hscheme) (by decide)
  | unix =>
    obtain ⟨path, rest, hpath, hrest, hmark⟩ := (h.unix hscheme).path
    simpa [hpath, hrest] using hmark

theorem foldl_pairs (e : Endpoint) : e.pairs.foldl setPair e.placeSettings = e.settings := by
  rw [pairs, foldl_setPair, placeSettings, settings]
  congr 1
  funext f
  by_cases hf : f ∈ optional <;> simp [hf]

/-- No text in a query has the mark between its pairs in it. -/
theorem not_mem_written (h : Writable e) (hf : f ∈ optional) {v : String} (hv : e.written f = some v) :
    '&' ∉ v.toList := by
  have hplain : (∀ c ∈ v.toList, IsPlain c) → '&' ∉ v.toList := by
    intro hall hmem
    exact absurd (hall _ hmem) (by decide)
  cases f with
  | host | port | path | password => exact absurd hf (by decide)
  | timeout =>
    simp only [written] at hv
    split_ifs at hv
    obtain rfl := Option.some.inj hv
    exact hplain fun _ => isPlain_of_mem_showTimeout
  | readWriteTimeout =>
    obtain ⟨t, -, rfl⟩ := Option.map_eq_some_iff.1 hv
    exact hplain fun _ => isPlain_of_mem_showTimeout
  | asyncConnect | persistent | tcpNodelay =>
    simp only [written] at hv
    split_ifs at hv
    obtain rfl := Option.some.inj hv
    decide
  | database | weight =>
    obtain ⟨n, -, rfl⟩ := Option.map_eq_some_iff.1 hv
    exact hplain fun _ => isPlain_of_mem_toString (n := n.toNat)
  | label => exact (h.label v hv).2

theorem not_mem_pairs (h : Writable e) {p : List Char} (hp : p ∈ e.pairs) : '&' ∉ p := by
  obtain ⟨entry, hentry, rfl⟩ := List.mem_map.1 hp
  obtain ⟨f, hf, hwritten⟩ := List.mem_filterMap.1 hentry
  obtain ⟨v, hv, rfl⟩ := Option.map_eq_some_iff.1 hwritten
  simp [pairText, f.not_mem_name (.inr rfl), not_mem_written h hf hv]

theorem setQuery_pairs (h : Writable e) (hpairs : e.pairs ≠ []) :
    setQuery e.placeSettings (['&'].intercalate e.pairs) = e.settings := by
  have hall : ∀ p ∈ e.pairs, (!p.isEmpty) = true := by
    intro p hp
    obtain ⟨entry, -, rfl⟩ := List.mem_map.1 hp
    simp [pairText]
  rw [setQuery, fields_intercalate hpairs fun p hp => not_mem_pairs h hp, List.filter_eq_self.2 hall, foldl_pairs]

/-- **The texts that were written are read back.** -/
theorem settingsOfUri_toUri (h : Writable e) : settingsOfUri e.toUri = .ok e.settings := by
  have hmark := not_mem_place h
  have hparts : ∀ (after : List Char) {rest query : List Char},
      e.toUri.toList = e.scheme.name.toList ++ ':' :: '/' :: '/' :: rest →
      (cutFirst? '?' rest).getD (rest, []) = (e.place ++ after, query) → after = [] ∨ after = e.slash →
      settingsOfUri e.toUri = .ok (setQuery e.placeSettings query) := by
    intro after rest query huri hcut hafter
    have hname : Scheme.ofName (String.ofList e.scheme.name.toList) = .ok e.scheme := by
      rw [String.ofList_toList]
      exact ofName_name e.scheme
    have hsplit : splitScheme? e.toUri.toList = some (e.scheme.name.toList, rest) := by
      rw [huri]
      exact splitScheme?_append (not_mem_of_ofName hname) rest
    rw [settingsOfUri_eq hsplit hname hcut, locationSettings?_place h hafter]
  have huri := toUri_toList e
  by_cases hpairs : e.pairs = []
  · have hnone : setQuery e.placeSettings [] = e.settings := by
      have hfold := foldl_pairs e
      rwa [hpairs] at hfold
    rw [if_pos hpairs, List.append_nil] at huri
    rw [hparts [] huri _ (.inl rfl), hnone]
    rw [cutFirst?_of_not_mem hmark, Option.getD_none, List.append_nil]
  · have hslash : '?' ∉ e.slash := by
      unfold slash
      cases e.scheme <;> decide
    rw [if_neg hpairs, ← List.append_assoc] at huri
    rw [hparts e.slash huri _ (.inr rfl), setQuery_pairs h hpairs]
    rw [cutFirst?_append (by simp [hmark, hslash]), Option.getD_some]

/-! ## Resolving the texts -/

/-- A field has its value, if its text converts to that value and its default is that value where there is no text. -/
theorem given_settings {α : Type} {otherwise a : α} {convert : Scalar → Except ClientError α}
    (hsome : ∀ v, e.written f = some v → convert (.text v) = .ok a) (hnone : e.written f = none → otherwise = a) :
    e.settings.given f otherwise convert = .ok a := by
  unfold Settings.given settings
  cases hf : e.written f with
  | none => simp [hf, hnone hf]
  | some v => simpa [hf] using hsome v hf

theorem text?_settings (e : Endpoint) (f : Field) : e.settings.text? f = e.written f := by
  unfold Settings.text? settings
  cases h : e.written f <;> simp [h, Scalar.toText]

/-- A truth value that is written as one text when it differs from its default. -/
theorem given_flag {b otherwise : Bool} {name : String} (text : String)
    (hwritten : e.written f = if b = otherwise then none else some text)
    (htext : (Scalar.text text).toBool name = .ok (!otherwise)) :
    e.settings.given f otherwise (·.toBool name) = .ok b := by
  refine given_settings (fun v hv => ?_) fun hnone => ?_
  · rw [hwritten] at hv
    split_ifs at hv with hb
    obtain rfl := Option.some.inj hv
    rw [htext, Bool.eq_not_of_ne hb]
  · rw [hwritten] at hnone
    split_ifs at hnone with hb
    exact hb.symm

/-- A count that is written when there is one. -/
theorem given_count {n? : Option UInt32} (name : String) (hwritten : e.written f = n?.map toString) :
    (e.settings.given f none fun v => (some ·.toUInt32) <$> v.toNatBelow UInt32.size name) = .ok n? := by
  refine given_settings (fun v hv => ?_) fun hnone => ?_
  · rw [hwritten] at hv
    obtain ⟨n, rfl, rfl⟩ := Option.map_eq_some_iff.1 hv
    have hread : (Scalar.text (toString n)).toNatBelow UInt32.size name = .ok n.toNat :=
      Scalar.toNatBelow_toString name n.toNat_lt (by decide)
    rw [hread]
    exact congrArg (Except.ok ∘ some) UInt32.ofNat_toNat
  · rw [hwritten, Option.map_eq_none_iff] at hnone
    exact hnone.symm

theorem given_port (h : Writable e) :
    (e.settings.given .port ({} : Endpoint).port fun v => (·.toUInt16) <$> v.toNatBelow UInt16.size "port") =
      .ok e.port := by
  refine given_settings (fun v hv => ?_) fun hnone => ?_
  · cases hscheme : e.scheme with
    | tcp =>
      obtain rfl : toString e.port = v := by simpa [written, hscheme] using hv
      have hread : (Scalar.text (toString e.port)).toNatBelow UInt16.size "port" = .ok e.port.toNat :=
        Scalar.toNatBelow_toString "port" e.port.toNat_lt (by decide)
      rw [hread]
      exact congrArg Except.ok UInt16.ofNat_toNat
    | unix => simp [written, hscheme] at hv
  · cases hscheme : e.scheme with
    | tcp => simp [written, hscheme] at hnone
    | unix => exact (h.unix hscheme).port.symm

theorem given_timeout (h : Writable e) :
    e.settings.given .timeout ({} : Endpoint).timeout (·.toTimeout "timeout") = .ok e.timeout := by
  refine given_settings (fun v hv => ?_) fun hnone => ?_
  · simp only [written] at hv
    split_ifs at hv
    obtain rfl := Option.some.inj hv
    exact Scalar.toTimeout_showTimeout "timeout" h.timeout
  · simp only [written] at hnone
    split_ifs at hnone with hfive
    exact hfive.symm

theorem given_readWriteTimeout (h : Writable e) :
    e.settings.given .readWriteTimeout ({} : Endpoint).readWriteTimeout (·.toTimeout "read_write_timeout") =
      .ok e.readWriteTimeout := by
  refine given_settings (fun v hv => ?_) fun hnone => ?_
  · obtain ⟨t, ht, rfl⟩ := Option.map_eq_some_iff.1 hv
    rw [← ht]
    exact Scalar.toTimeout_showTimeout "read_write_timeout" h.readWriteTimeout
  · exact (Option.map_eq_none_iff.1 hnone).symm

/-- A place that can be written is all that its scheme needs. -/
theorem check_place (h : Writable e) :
    Settings.check { e with password := none } = .ok { e with password := none } := by
  cases hscheme : e.scheme with
  | tcp =>
    simp only [Settings.check]
    exact if_neg (h.tcp hscheme).host
  | unix =>
    obtain ⟨path, rest, hpath, hrest, -⟩ := (h.unix hscheme).path
    have hne : path ≠ "" := by
      rintro rfl
      exact absurd hrest (by simp)
    simp only [Settings.check, hpath, Option.getD_some]
    exact if_neg hne

/-- **The texts resolve to the fields they were written for.** -/
theorem resolve_settings (h : Writable e) : e.settings.resolve = .ok { e with password := none } := by
  have hasync : e.settings.given .asyncConnect ({} : Endpoint).asyncConnect (·.toBool "async_connect") =
      .ok e.asyncConnect := given_flag "1" (by cases hb : e.asyncConnect <;> simp [written, hb]) rfl
  have hpersistent : e.settings.given .persistent ({} : Endpoint).persistent (·.toBool "persistent") =
      .ok e.persistent := given_flag "1" (by cases hb : e.persistent <;> simp [written, hb]) rfl
  have hnodelay : e.settings.given .tcpNodelay ({} : Endpoint).tcpNodelay (·.toBool "tcp_nodelay") =
      .ok e.tcpNodelay := given_flag "0" (by cases hb : e.tcpNodelay <;> simp [written, hb]) rfl
  have hdatabase := given_count (e := e) (f := .database) "database" rfl
  have hweight := given_count (e := e) (f := .weight) "weight" rfl
  have hscheme : e.settings.scheme.getD ({} : Endpoint).scheme = e.scheme := rfl
  have hhost : (e.settings.text? .host).getD ({} : Endpoint).host = e.host := by
    rw [text?_settings]
    cases hs : e.scheme with
    | tcp => simp [written, hs]
    | unix => simpa [written, hs] using (h.unix hs).host.symm
  have hpath : e.settings.text? .path = e.path := by
    rw [text?_settings]
    cases hs : e.scheme with
    | tcp => simp [written, hs, (h.tcp hs).path]
    | unix => simp [written, hs]
  have hpassword : e.settings.nonempty? .password = none := by rw [Settings.nonempty?, text?_settings]; rfl
  have hlabel : e.settings.nonempty? .label = e.label := by
    rw [Settings.nonempty?, text?_settings]
    change e.label.filter (· ≠ "") = e.label
    cases hlabel : e.label with
    | none => rfl
    | some name => simp [(h.label name hlabel).1]
  simp only [Settings.resolve, given_port h, given_timeout h, given_readWriteTimeout h, hasync, hpersistent, hnodelay,
    hdatabase, hweight, bind, Except.bind, hscheme, hhost, hpath, hpassword, hlabel]
  exact check_place h

/-- **A URI written for an endpoint is read back as that endpoint, but for its password.** -/
theorem ofUri_toUri (h : Writable e) : ofUri e.toUri = .ok { e with password := none } := by
  rw [ofUri, settingsOfUri_toUri h]
  exact resolve_settings h

/-- A network place with colons, and with marks of every kind in its label. -/
def markedReplica : Endpoint where
  host := "fe80::1%eth0"
  port := 6390
  timeout := some ⟨1500000000⟩
  readWriteTimeout := some ⟨250000000⟩
  asyncConnect := true
  tcpNodelay := false
  database := some 2
  password := some "secret"
  label := some "a=b?c://[d]@e"
  weight := some 0

/-- A socket with marks in its path. -/
def markedSocket : Endpoint where
  scheme := .unix
  path := some "/tmp/a&b=c@d.sock"
  timeout := none
  persistent := true
  password := some "secret"

example : markedReplica.toUri = "tcp://[fe80::1%eth0]:6390/?timeout=1.5&read_write_timeout=0.25&async_connect=1" ++
    "&tcp_nodelay=0&database=2&alias=a=b?c://[d]@e&weight=0" := by decide +kernel

theorem writable_markedReplica : Writable markedReplica where
  place := { path := rfl, host := by decide, marks := by intro c hc; fin_cases hc <;> decide }
  label := by rintro _ ⟨⟩; decide
  timeout := by rintro _ ⟨⟩; exact .inr ⟨by decide, by decide +kernel⟩
  readWriteTimeout := by rintro _ ⟨⟩; exact .inr ⟨by decide, by decide +kernel⟩

theorem writable_markedSocket : Writable markedSocket where
  place := { path := ⟨_, _, rfl, rfl, by decide⟩, host := rfl, port := rfl }
  label := by rintro _ ⟨⟩
  timeout := by rintro _ ⟨⟩
  readWriteTimeout := by rintro _ ⟨⟩

/-- Both are read back from their URIs. -/
theorem ofUri_toUri_marked :
    (Writable markedReplica ∧ ofUri markedReplica.toUri = .ok { markedReplica with password := none }) ∧
    Writable markedSocket ∧ ofUri markedSocket.toUri = .ok { markedSocket with password := none } :=
  ⟨⟨writable_markedReplica, ofUri_toUri writable_markedReplica⟩, writable_markedSocket,
    ofUri_toUri writable_markedSocket⟩

end Endpoint

end RespClient
