/-
Timeouts at the bottom of their range. A timeout is read as a double and tested for its sign there, but it is kept in
whole nanoseconds, so a positive number of seconds can still be rounded to no time at all.

- `Binary64.Vanishes`: the positive numbers of seconds that are rounded away, those of at most half a nanosecond.
- `Settings.resolve_timeouts`: how the two timeouts of an endpoint come from their settings.
- `Endpoint.timeout_law`: whatever an endpoint is made from, each of its timeouts is missing or positive, exactly if it was
  not given by a number that vanishes.
- `Endpoint.timeout_vanished`: a URI with such a timeout, so the exception is met.
-/
import RespClient.Endpoint.Config
import RespClient.Endpoint.Uri
import RespClient.Proofs.WrittenNumbers

namespace RespClient

variable {x : Binary64}

/-! ## Rounding to nothing -/

/-- A ratio is rounded to zero up to one half: the tie goes to zero, which is even. -/
theorem roundHalfEven_eq_zero_iff {n d : Nat} (hd : 0 < d) : roundHalfEven n d = 0 ↔ 2 * n ≤ d := by
  have hn := Nat.div_add_mod n d
  have hr := Nat.mod_lt n hd
  simp only [roundHalfEven, Bool.or_eq_true, Bool.and_eq_true, decide_eq_true_eq, beq_iff_eq]
  rcases Nat.eq_zero_or_pos (n / d) with hq | hq
  · rw [hq, Nat.mul_zero, Nat.zero_add] at hn
    rw [hq, hn]
    split <;> omega
  · have hle : d ≤ d * (n / d) := Nat.le_mul_of_pos_right d hq
    split <;> omega

namespace Binary64

theorem powerRatio_snd_pos (e : Int) : 0 < (powerRatio 2 e).2 := by
  unfold powerRatio
  split_ifs
  · exact Nat.one_pos
  · exact Nat.pow_pos (by decide)

theorem ratio_snd_pos (x : Binary64) : 0 < x.ratio.2 := powerRatio_snd_pos x.scale

/-- A positive number of seconds of at most half a nanosecond. -/
def Vanishes (x : Binary64) : Prop := x.isPositive ∧ 2 * (x.ratio.1 * Timespan.perSecond) ≤ x.ratio.2

instance (x : Binary64) : Decidable x.Vanishes := inferInstanceAs (Decidable (_ ∧ _))

end Binary64

namespace Timespan

theorem ofBinary64?_eq (x : Binary64) :
    ofBinary64? x =
      if x.ratio.1 ≥ UInt64.size * x.ratio.2 then none else some ⟨roundHalfEven (x.ratio.1 * perSecond) x.ratio.2⟩ :=
  rfl

theorem ofBinary64?_eq_zero_iff : ofBinary64? x = some ⟨0⟩ ↔ 2 * (x.ratio.1 * perSecond) ≤ x.ratio.2 := by
  have hd := x.ratio_snd_pos
  rw [ofBinary64?_eq, ← roundHalfEven_eq_zero_iff hd]
  generalize x.ratio.1 = n, x.ratio.2 = d at hd ⊢
  constructor
  · intro h
    split_ifs at h
    exact Timespan.mk.inj (Option.some.inj h)
  · intro h
    have hsmall : n < UInt64.size * d :=
      calc n ≤ 2 * (n * perSecond) := by unfold perSecond; omega
        _ ≤ d := (roundHalfEven_eq_zero_iff hd).1 h
        _ < UInt64.size * d := (Nat.lt_mul_iff_one_lt_left hd).2 (by decide : 1 < UInt64.size)
    rw [if_neg (Nat.not_le.2 hsmall), h]

end Timespan

/-! ## From the settings to the endpoint -/

theorem eq_ok_of_mapError {ε δ α : Type} {r : Except ε α} {f : ε → δ} {a : α} (h : r.mapError f = .ok a) :
    r = .ok a := by
  cases r with
  | error e => contradiction
  | ok b => exact congrArg Except.ok (Except.ok.inj h)

/-- **What a timeout that was read is.** Zero for a number that vanishes, and otherwise positive where there is one. -/
theorem Scalar.toTimeout_eq_zero_iff {v : Scalar} {name : String} {timeout : Option Timespan}
    (h : v.toTimeout name = .ok timeout) :
    timeout = some ⟨0⟩ ↔ ∃ x, v.toBinary64 name = .ok x ∧ x.Vanishes := by
  obtain ⟨x, hx, h⟩ := exists_of_bind_eq_ok h
  rw [hx]
  have hvanish : timeout = some ⟨0⟩ ↔ x.Vanishes := by
    by_cases htest : (x.isFinite && x.isPositive) = true
    · rw [if_pos htest] at h
      have hpositive : x.isPositive = true := (Bool.and_eq_true _ _ ▸ htest).2
      cases hspan : Timespan.ofBinary64? x with
      | none => simp [hspan] at h
      | some t =>
        obtain rfl : some t = timeout := by simpa [hspan] using h
        rw [← hspan, Timespan.ofBinary64?_eq_zero_iff]
        exact ⟨fun hsmall => ⟨hpositive, hsmall⟩, And.right⟩
    · rw [if_neg htest] at h
      obtain rfl : none = timeout := Except.ok.inj h
      -- a number this small is finite, so only its sign can have failed the test
      refine ⟨by simp, fun ⟨hpositive, hsmall⟩ => absurd ?_ htest⟩
      have hfinite := Timespan.isFinite_of_ofBinary64? (Timespan.ofBinary64?_eq_zero_iff.2 hsmall)
      rw [hfinite, hpositive, Bool.and_self]
  rw [hvanish]
  constructor
  · intro hv
    exact ⟨x, rfl, hv⟩
  · rintro ⟨y, hy, hv⟩
    exact Except.ok.inj hy ▸ hv

namespace Settings

variable {s : Settings} {e : Endpoint}

/-- The field holds a number of seconds that vanishes. -/
def Vanishing (s : Settings) (field : Field) (name : String) : Prop :=
  ∃ v x, s.value field = some v ∧ v.toBinary64 name = .ok x ∧ x.Vanishes

theorem check_eq_ok {e' : Endpoint} (h : check e = .ok e') : e' = e := by
  unfold check at h
  split at h <;> split_ifs at h <;> exact (Except.ok.inj h).symm

/-- How the two timeouts of an endpoint come from their settings. -/
theorem resolve_timeouts (h : s.resolve = .ok e) :
    s.given .timeout (some (.ofSeconds 5)) (·.toTimeout "timeout") = .ok e.timeout ∧
      s.given .readWriteTimeout none (·.toTimeout "read_write_timeout") = .ok e.readWriteTimeout := by
  unfold resolve at h
  dsimp only at h
  obtain ⟨port, -, h⟩ := exists_of_bind_eq_ok h
  obtain ⟨timeout, htimeout, h⟩ := exists_of_bind_eq_ok h
  obtain ⟨readWriteTimeout, hreadWrite, h⟩ := exists_of_bind_eq_ok h
  obtain ⟨asyncConnect, -, h⟩ := exists_of_bind_eq_ok h
  obtain ⟨persistent, -, h⟩ := exists_of_bind_eq_ok h
  obtain ⟨tcpNodelay, -, h⟩ := exists_of_bind_eq_ok h
  obtain ⟨database, -, h⟩ := exists_of_bind_eq_ok h
  obtain ⟨weight, -, h⟩ := exists_of_bind_eq_ok h
  obtain rfl := check_eq_ok h
  exact ⟨htimeout, hreadWrite⟩

/-- A timeout is zero exactly where its field holds a number that vanishes; the default is not zero. -/
theorem given_timeout_eq_zero_iff {field : Field} {name : String} {otherwise timeout : Option Timespan}
    (hdefault : otherwise ≠ some ⟨0⟩) (h : s.given field otherwise (·.toTimeout name) = .ok timeout) :
    timeout = some ⟨0⟩ ↔ s.Vanishing field name := by
  unfold given at h
  unfold Vanishing
  cases hv : s.value field with
  | none =>
    obtain rfl : otherwise = timeout := by simpa [hv] using h
    simp [hdefault]
  | some v =>
    rw [hv] at h
    rw [Scalar.toTimeout_eq_zero_iff h]
    simp

end Settings

/-! ## Endpoints, whatever they are made from -/

/-- A timeout for a socket: none, or of some length. -/
def Usable (timeout : Option Timespan) : Prop := ∀ t, timeout = some t → 0 < t.nanoseconds

theorem usable_iff {timeout : Option Timespan} : Usable timeout ↔ timeout ≠ some ⟨0⟩ := by
  constructor
  · rintro h rfl
    exact absurd (h _ rfl) (Nat.lt_irrefl 0)
  · rintro h ⟨n⟩ rfl
    exact Nat.pos_of_ne_zero fun hn : n = 0 => h (by rw [hn])

namespace Endpoint

/-- The timeouts of an endpoint are usable, but for the ones whose settings vanish. -/
structure TimedBy (e : Endpoint) (s : Settings) : Prop where
  timeout : Usable e.timeout ↔ ¬s.Vanishing .timeout "timeout"
  readWriteTimeout : Usable e.readWriteTimeout ↔ ¬s.Vanishing .readWriteTimeout "read_write_timeout"

theorem timedBy_of_resolve {s : Settings} {e : Endpoint} (h : s.resolve = .ok e) : e.TimedBy s := by
  obtain ⟨htimeout, hreadWrite⟩ := Settings.resolve_timeouts h
  have hzero := Settings.given_timeout_eq_zero_iff (by decide) htimeout
  have hreadWriteZero := Settings.given_timeout_eq_zero_iff (by decide) hreadWrite
  exact ⟨usable_iff.trans (not_congr hzero), usable_iff.trans (not_congr hreadWriteZero)⟩

/-- **Timeouts of no length.** An endpoint made from settings, from a URI or from a configuration document has for each
timeout none or one of some length, but exactly for a positive number of seconds that is rounded away. -/
theorem timeout_law (e : Endpoint) (s : Settings) (uri : String) (d : Document) :
    (s.resolve = .ok e → e.TimedBy s) ∧
    (ofUri uri = .ok e → ∃ s, settingsOfUri uri = .ok s ∧ e.TimedBy s) ∧
    (ofDocument d = .ok e → ∃ s, Settings.ofDocument? d = some s ∧ e.TimedBy s) := by
  refine ⟨timedBy_of_resolve, ?_, ?_⟩
  · intro h
    obtain ⟨s, hs, h⟩ := exists_of_bind_eq_ok h
    exact ⟨s, hs, timedBy_of_resolve h⟩
  · intro h
    unfold ofDocument at h
    cases hs : Settings.ofDocument? d with
    | none => simp [hs] at h
    | some s =>
      rw [hs] at h
      exact ⟨s, rfl, timedBy_of_resolve (eq_ok_of_mapError h)⟩

/-- The law for settings, a URI and a document that all give a timeout of a tenth of a nanosecond. -/
theorem timeout_law_tenth :
    let e : Endpoint := { host := "h", port := 1, timeout := some ⟨0⟩, readWriteTimeout := some ⟨1500000000⟩ }
    let s := ({} : Settings) |>.set .host (.text "h") |>.set .port (.int 1) |>.set .timeout (.text "1e-10")
      |>.set .readWriteTimeout (.text "1.5")
    let uri := "tcp://h:1/?timeout=1e-10&read_write_timeout=1.5"
    let d : Document := .object [("host", .text "h"), ("port", .number "1"), ("connection_timeout", .number "1e-10"),
      ("read_write_timeout", .text " 1.5 ")]
    (s.resolve = .ok e ∧ e.TimedBy s) ∧ (ofUri uri = .ok e ∧ ∃ s, settingsOfUri uri = .ok s ∧ e.TimedBy s) ∧
      ofDocument d = .ok e ∧ ∃ s, Settings.ofDocument? d = some s ∧ e.TimedBy s := by
  intro e s uri d
  have hsettings : s.resolve = .ok e := by decide +kernel
  have huri : ofUri uri = .ok e := by decide +kernel
  have hdocument : ofDocument d = .ok e := by decide +kernel
  obtain ⟨hresolve, hofUri, hofDocument⟩ := timeout_law e s uri d
  exact ⟨⟨hsettings, hresolve hsettings⟩, ⟨huri, hofUri huri⟩, hdocument, hofDocument hdocument⟩

/-- **A positive timeout can be kept as one of no length**: a tenth of a nanosecond, which no socket can be given. -/
theorem timeout_vanished :
    ∃ e, ofUri "tcp://h:1/?timeout=1e-10" = .ok e ∧ e.timeout = some ⟨0⟩ ∧ ¬Usable e.timeout := by
  refine ⟨{ host := "h", port := 1, timeout := some ⟨0⟩ }, by decide +kernel, rfl, ?_⟩
  rw [usable_iff]
  simp

end Endpoint

end RespClient
