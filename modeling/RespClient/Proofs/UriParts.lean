/-
The parts of a URI: the name of a scheme up to `://`, a location up to the first `?`, and a query.

- `splitScheme?_append`, `eq_of_splitScheme?`: the name is what stands before the first `://`, if it has no colon in it; names
  of schemes have none (`not_mem_of_ofName`).
- `locationSettings?`: the settings that a location gives to its scheme.
- `settingsOfUri_eq`: a URI gives what its location gives, with its query set on top of that.
- `Start`: what a URI can begin with. `exists_settings_iff`: the URIs with settings are the ones with such a beginning.
-/
import RespClient.Endpoint.Uri
import RespClient.Proofs.Separators

namespace RespClient.Endpoint

variable {text : String} {name rest location query : List Char} {scheme : Scheme} {s : Settings}

/-! ## The scheme -/

theorem splitScheme?_append (hname : ':' ∉ name) (rest : List Char) :
    splitScheme? (name ++ ':' :: '/' :: '/' :: rest) = some (name, rest) := by
  induction name with
  | nil => rfl
  | cons c name ih =>
    have hc : c ≠ ':' := fun hc => hname (hc ▸ List.mem_cons_self)
    have htail := ih fun hmem => hname (List.mem_cons_of_mem c hmem)
    simp [splitScheme?, hc, htail]

theorem eq_of_splitScheme? {cs : List Char} (h : splitScheme? cs = some (name, rest)) :
    cs = name ++ ':' :: '/' :: '/' :: rest := by
  induction cs generalizing name with
  | nil => contradiction
  | cons c cs ih =>
    unfold splitScheme? at h
    split at h
    · next heq =>
      obtain ⟨rfl, rfl⟩ := Prod.mk.inj (Option.some.inj h)
      exact heq
    · next heq =>
      obtain ⟨rfl, rfl⟩ := List.cons.inj heq
      obtain ⟨parts, hparts, hcons⟩ := Option.map_eq_some_iff.1 h
      obtain ⟨rfl, rfl⟩ := Prod.mk.inj hcons
      rw [ih hparts]
      rfl
    · next heq => contradiction

/-- The name of a scheme has no colon in it, however it is spelled. -/
theorem not_mem_of_ofName (h : Scheme.ofName (String.ofList name) = .ok scheme) : ':' ∉ name := by
  intro hmem
  have hlower : ':' ∈ (lowerAscii (String.ofList name)).toList := by
    rw [lowerAscii, String.toList_ofList, String.toList_ofList]
    exact List.mem_map.2 ⟨':', hmem, by decide⟩
  unfold Scheme.ofName at h
  dsimp only at h
  split_ifs at h with htcp hunix
  · rcases (Bool.or_eq_true _ _).mp htcp with heq | heq <;>
      exact absurd (of_decide_eq_true heq ▸ hlower) (by decide)
  · exact absurd (hunix ▸ hlower) (by decide)

/-! ## The location -/

/-- The settings that a location gives. -/
def locationSettings? (scheme : Scheme) (location : List Char) : Option Settings :=
  match scheme with
  | .tcp => tcpSettings? location
  | .unix => unixSettings? location

/-- **What a URI gives**: what its location gives, with its query set on top of that. -/
theorem settingsOfUri_eq (hsplit : splitScheme? text.toList = some (name, rest))
    (hname : Scheme.ofName (String.ofList name) = .ok scheme)
    (hcut : (cutFirst? '?' rest).getD (rest, []) = (location, query)) :
    settingsOfUri text = match locationSettings? scheme location with
      | none => .error (.invalidParameters (.invalidUri text))
      | some s => .ok (setQuery s query) := by
  unfold settingsOfUri
  simp only [hsplit, hname, Except.bind]
  cases hparts : cutFirst? '?' rest with
  | none =>
    obtain ⟨rfl, rfl⟩ : rest = location ∧ [] = query := by simpa [hparts] using hcut
    rfl
  | some parts =>
    obtain rfl : parts = (location, query) := by simpa [hparts] using hcut
    rfl

/-! ## What a URI begins with -/

/-- The part of a URI before its query: the name of a scheme, spelled in any way, and a location that the scheme accepts. -/
structure Start where
  name : List Char
  location : List Char
  scheme : Scheme
  settings : Settings
  named : Scheme.ofName (String.ofList name) = .ok scheme
  unmarked : '?' ∉ location
  accepted : locationSettings? scheme location = some settings

namespace Start

variable (start : Start)

/-- The URI without a query. -/
def bare : String := String.ofList (start.name ++ ':' :: '/' :: '/' :: start.location)

/-- The URI with a query. -/
def uri (query : List Char) : String :=
  String.ofList (start.name ++ ':' :: '/' :: '/' :: (start.location ++ '?' :: query))

theorem settingsOfUri_bare : settingsOfUri start.bare = .ok (setQuery start.settings []) := by
  have hsplit : splitScheme? start.bare.toList = some (start.name, start.location) := by
    rw [bare, String.toList_ofList]
    exact splitScheme?_append (not_mem_of_ofName start.named) _
  have hcut : (cutFirst? '?' start.location).getD (start.location, []) = (start.location, []) := by
    rw [cutFirst?_of_not_mem start.unmarked, Option.getD_none]
  rw [settingsOfUri_eq hsplit start.named hcut, start.accepted]

theorem settingsOfUri_uri (query : List Char) : settingsOfUri (start.uri query) = .ok (setQuery start.settings query) := by
  have hsplit : splitScheme? (start.uri query).toList = some (start.name, start.location ++ '?' :: query) := by
    rw [uri, String.toList_ofList]
    exact splitScheme?_append (not_mem_of_ofName start.named) _
  have hcut : (cutFirst? '?' (start.location ++ '?' :: query)).getD (start.location ++ '?' :: query, []) =
      (start.location, query) := by
    rw [cutFirst?_append start.unmarked, Option.getD_some]
  rw [settingsOfUri_eq hsplit start.named hcut, start.accepted]

end Start

/-- A query begins at the first question mark, if there is one. -/
theorem exists_cut (rest : List Char) : ∃ location query, (cutFirst? '?' rest).getD (rest, []) = (location, query) ∧
    '?' ∉ location ∧ (rest = location ∨ rest = location ++ '?' :: query) := by
  cases hcut : cutFirst? '?' rest with
  | none => exact ⟨rest, [], rfl, cutFirst?_eq_none_iff.1 hcut, .inl rfl⟩
  | some parts =>
    obtain ⟨hrest, hunmarked⟩ := cutFirst?_eq_some_iff.1 hcut
    exact ⟨parts.1, parts.2, rfl, hunmarked, .inr hrest⟩

/-- **Which URIs have settings**: the ones that begin with a scheme and a location that it accepts. -/
theorem exists_settings_iff :
    (∃ s, settingsOfUri text = .ok s) ↔ ∃ start : Start, text = start.bare ∨ ∃ query, text = start.uri query := by
  constructor
  · intro ⟨s, hs⟩
    cases hsplit : splitScheme? text.toList with
    | none => simp [settingsOfUri, hsplit] at hs
    | some parts =>
      obtain ⟨name, rest⟩ := parts
      have htext : text = String.ofList (name ++ ':' :: '/' :: '/' :: rest) := by
        rw [← eq_of_splitScheme? hsplit, String.ofList_toList]
      obtain ⟨location, query, hcut, hunmarked, hrest⟩ := exists_cut rest
      cases hname : Scheme.ofName (String.ofList name) with
      | error e => simp [settingsOfUri, hsplit, hname, Except.bind] at hs
      | ok scheme =>
        rw [settingsOfUri_eq hsplit hname hcut] at hs
        cases hlocation : locationSettings? scheme location with
        | none => simp [hlocation] at hs
        | some settings =>
          refine ⟨⟨name, location, scheme, settings, hname, hunmarked, hlocation⟩, ?_⟩
          rcases hrest with rfl | rfl
          · exact .inl htext
          · exact .inr ⟨query, htext⟩
  · intro ⟨start, htext⟩
    rcases htext with rfl | ⟨query, rfl⟩
    · exact ⟨_, start.settingsOfUri_bare⟩
    · exact ⟨_, start.settingsOfUri_uri query⟩

end RespClient.Endpoint
