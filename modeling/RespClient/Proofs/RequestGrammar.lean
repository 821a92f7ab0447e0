/-
The grammar of requests, and the shortest form of each. The grammar is said without the reader: `RequestFrame w id args`
relates the octets `w` of one whole request to the command that they write. A count or a length may stand in any text that
`Numeral.integer?` accepts, so one command has many frames; the writer gives the one that no other is as short as.

- `requestFrame_iff_frame`: in terms of the grammar of replies, a request is an array of payloads.
- `Bytes.eq_of_digitsValue_eq`, `Bytes.digitsValue_lt`: digits are determined by their number and their value, and
  their number bounds the value. So `Numeral.shortest_decimal`: no text of a number is shorter than its decimal.
- `request_eq_ok_iff`: what is read is a frame of it, and a frame is read, whatever octets follow.
- `shortest_encode`: the frame that is written is the shortest one.
- `request_canonical`: all of this, for the octets that a reader consumed.
-/
import RespClient.Proofs.Readers
import RespClient.Proofs.RequestRoundTrip

namespace RespClient

/-! ## The shortest text of a number -/

/-- No longer than `w`, and equal to it if as long. -/
structure Shortest (c w : Bytes) : Prop where
  le : c.length ≤ w.length
  unique : w.length = c.length → w = c

namespace Shortest

theorem refl (w : Bytes) : Shortest w w := ⟨le_refl _, fun _ => rfl⟩

theorem of_lt {c w : Bytes} (h : c.length < w.length) : Shortest c w :=
  ⟨h.le, fun heq => absurd heq (Nat.ne_of_gt h)⟩

theorem append {c w d v : Bytes} (h : Shortest c w) (h' : Shortest d v) : Shortest (c ++ d) (w ++ v) := by
  have hle := h.le
  have hle' := h'.le
  refine ⟨by simp only [List.length_append]; omega, fun hlen => ?_⟩
  simp only [List.length_append] at hlen
  rw [h.unique (by omega), h'.unique (by omega)]

theorem cons {c w : Bytes} (b : UInt8) (h : Shortest c w) : Shortest (b :: c) (b :: w) := (refl [b]).append h

end Shortest

namespace Bytes

theorem pushDigit_lt {n m : Nat} {b : UInt8} (hb : isDigit b) (h : n < m) : pushDigit n b < 10 * m := by
  simp only [isDigit, Bool.and_eq_true, decide_eq_true_eq, UInt8.le_iff_toNat_le, UInt8.reduceToNat] at hb
  unfold pushDigit
  omega

theorem pushDigit_inj {n m : Nat} {b c : UInt8} (hb : isDigit b) (hc : isDigit c) (h : pushDigit n b = pushDigit m c) :
    n = m ∧ b = c := by
  simp only [isDigit, Bool.and_eq_true, decide_eq_true_eq, UInt8.le_iff_toNat_le, UInt8.reduceToNat] at hb hc
  unfold pushDigit at h
  exact ⟨by omega, UInt8.toNat_inj.1 (by omega)⟩

theorem foldl_pushDigit_lt {w : Bytes} (hw : w.all isDigit) {n m : Nat} (h : n < m) :
    w.foldl pushDigit n < m * 10 ^ w.length := by
  induction w generalizing n m with
  | nil => simpa using h
  | cons b w ih =>
    simp only [List.all_cons, Bool.and_eq_true] at hw
    have hstep := ih hw.2 (pushDigit_lt hw.1 h)
    rw [List.foldl_cons, List.length_cons, pow_succ']
    calc _ < 10 * m * 10 ^ w.length := hstep
      _ = m * (10 * 10 ^ w.length) := by ring

theorem foldl_pushDigit_inj {v w : Bytes} (hv : v.all isDigit) (hw : w.all isDigit) (hlen : v.length = w.length)
    {n m : Nat} (h : v.foldl pushDigit n = w.foldl pushDigit m) : n = m ∧ v = w := by
  induction v generalizing w n m with
  | nil =>
    obtain rfl := List.length_eq_zero_iff.1 hlen.symm
    exact ⟨h, rfl⟩
  | cons b v ih =>
    cases w with
    | nil => contradiction
    | cons c w =>
      simp only [List.all_cons, Bool.and_eq_true] at hv hw
      obtain ⟨hpush, rfl⟩ := ih hv.2 hw.2 (Nat.succ.inj hlen) h
      obtain ⟨rfl, rfl⟩ := pushDigit_inj hv.1 hw.1 hpush
      exact ⟨rfl, rfl⟩

/-- So many digits write a number below that power of ten. -/
theorem digitsValue_lt {w : Bytes} (hw : w.all isDigit) : digitsValue w < 10 ^ w.length := by
  rw [← Nat.one_mul (10 ^ w.length)]
  exact foldl_pushDigit_lt hw Nat.zero_lt_one

/-- As many digits of the same value are the same digits. -/
theorem eq_of_digitsValue_eq {v w : Bytes} (hv : v.all isDigit) (hw : w.all isDigit) (hlen : v.length = w.length)
    (h : digitsValue v = digitsValue w) : v = w :=
  (foldl_pushDigit_inj hv hw hlen h).2

/-- No digits of a number are fewer than those of its decimal, and as many are the decimal. -/
theorem shortest_decimal_digitsValue {w : Bytes} (hw : w.all isDigit) (hne : w ≠ []) :
    Shortest (decimal (digitsValue w)) w where
  le := length_decimal_le (List.length_pos_iff.2 hne) (digitsValue_lt hw)
  unique hlen := eq_of_digitsValue_eq hw (all_isDigit_decimal _) hlen (digitsValue_decimal _).symm

end Bytes

namespace Numeral

open Bytes (decimal)

/-- No text of a natural number is shorter than its decimal. With a sign it is longer: the sign says nothing of zero. -/
theorem shortest_decimal {text : Bytes} {n : Nat} (h : integer? text = some (n : Int)) :
    Shortest (decimal n) text ∧ n < signedBound := by
  unfold integer? at h
  split at h
  · rename_i digits
    obtain ⟨k, hk, hneg⟩ := Option.map_eq_some_iff.1 h
    obtain ⟨hne, -, -, hlt⟩ := digits?_eq_some (by decide) hk
    have hzero : n = 0 := by omega
    subst hzero
    have hpos := List.length_pos_iff.2 hne
    exact ⟨.of_lt (by show 1 < _; simpa using hpos), by decide⟩
  · obtain ⟨k, hk, hcast⟩ := Option.map_eq_some_iff.1 h
    obtain rfl : k = n := by exact_mod_cast hcast
    obtain ⟨hne, hall, rfl, hlt⟩ := digits?_eq_some (by decide) hk
    exact ⟨Bytes.shortest_decimal_digitsValue hall hne, hlt⟩

end Numeral

namespace Wire

/-! ## Grammar -/

/-- The octets of one part of a request and the payload that they write. -/
inductive PartFrame : Bytes → Bytes → Prop where
  | part (text data : Bytes) : Numeral.integer? text = some (data.length : Int) → data.length ≤ maxPayload →
      PartFrame (payloadMark :: text ++ terminator ++ data ++ terminator) data

/-- The octets of one request, and the id and the arguments that they write. -/
inductive RequestFrame : Bytes → Bytes → List Bytes → Prop where
  | request (text : Bytes) (pieces : List Bytes) (id : Bytes) (args : List Bytes) :
      Numeral.integer? text = some ((args.length + 1 : Nat) : Int) → List.Forall₂ PartFrame pieces (id :: args) →
      RequestFrame (arrayMark :: text ++ terminator ++ pieces.flatten) id args

/-! ## Arrays of payloads -/

theorem partFrame_iff_frame {w data : Bytes} : PartFrame w data ↔ Frame w (.bulk data) := by
  constructor
  · rintro ⟨text, data, hn, hle⟩
    exact .bulk text data hn hle
  · intro h
    cases h with
    | bulk text data hn hle => exact .part text data hn hle

theorem frames_map_bulk_iff {w : Bytes} {parts : List Bytes} :
    Frames w (parts.map .bulk) ↔ ∃ pieces, w = pieces.flatten ∧ List.Forall₂ PartFrame pieces parts := by
  induction parts generalizing w with
  | nil =>
    constructor
    · intro h
      cases h
      exact ⟨[], rfl, .nil⟩
    · rintro ⟨pieces, rfl, hpieces⟩
      cases hpieces
      exact .nil
  | cons part parts ih =>
    constructor
    · intro h
      cases h with
      | cons w v r rs hframe hframes =>
        obtain ⟨pieces, rfl, hpieces⟩ := ih.1 hframes
        exact ⟨w :: pieces, rfl, .cons (partFrame_iff_frame.2 hframe) hpieces⟩
    · rintro ⟨pieces, rfl, hpieces⟩
      cases hpieces with
      | cons hpart hpieces =>
        rw [List.flatten_cons]
        exact .cons _ _ _ _ (partFrame_iff_frame.1 hpart) (ih.2 ⟨_, rfl, hpieces⟩)

/-- The frames of requests are those of arrays, not empty, of payloads. -/
theorem requestFrame_iff_frame {w id : Bytes} {args : List Bytes} :
    RequestFrame w id args ↔ Frame w (.array ((id :: args).map .bulk)) := by
  constructor
  · rintro ⟨text, pieces, id, args, hn, hpieces⟩
    exact .array text _ _ (by rwa [List.length_map]) (frames_map_bulk_iff.2 ⟨pieces, rfl, hpieces⟩)
  · intro h
    cases h with
    | array text w rs hn hframes =>
      obtain ⟨pieces, rfl, hpieces⟩ := frames_map_bulk_iff.1 hframes
      rw [List.length_map] at hn
      exact .request text pieces id args hn hpieces

/-! ## The reader and the grammar -/

open Reader (of give andThen_eq_ok_iff)

variable {ending : Ending} {s rest : Bytes}

theorem give_eq_ok_iff {α : Type} {res : Except DecodeError α} {a : α} :
    give res ending s = (.ok a, rest) ↔ res = .ok a ∧ s = rest := by
  simp [give]

theorem partAfter_eq_ok_iff {body data : Bytes} : partAfter body ending s = (.ok data, rest) ↔
    ∃ text, body = payloadMark :: text ∧ Numeral.integer? text = some (data.length : Int) ∧
      data.length ≤ maxPayload ∧ s = data ++ terminator ++ rest := by
  constructor
  · intro h
    unfold partAfter at h
    split_ifs at h with hmark
    · cases hline : Header.ofLine body with
      | error e => simp [hline, give] at h
      | ok head =>
        rw [hline] at h
        cases Header.announces_of_ofLine hline with
        | payload text n hn hle =>
          obtain ⟨hs, rfl⟩ := payload_eq_iff.1 h
          exact ⟨text, rfl, hn, hle, hs⟩
        | status | error | integer | nil | items => simp [give] at h
    · simp [give] at h
  · rintro ⟨text, rfl, hn, hle, hs⟩
    unfold partAfter
    rw [List.head?_cons, if_pos rfl, Header.ofLine_of_announces (.payload text _ hn hle)]
    exact payload_eq_iff.2 ⟨hs, rfl⟩

theorem part_eq_ok_iff {data : Bytes} :
    of readPart ending s = (.ok data, rest) ↔ ∃ w, s = w ++ rest ∧ PartFrame w data := by
  rw [part_eq, andThen_eq_ok_iff]
  constructor
  · rintro ⟨body, mid, hline, hpart⟩
    obtain ⟨rfl, -⟩ := line_eq_iff.1 hline
    obtain ⟨text, rfl, hn, hle, rfl⟩ := partAfter_eq_ok_iff.1 hpart
    exact ⟨_, by simp, .part text data hn hle⟩
  · rintro ⟨w, rfl, hw⟩
    obtain ⟨text, data, hn, hle⟩ := hw
    exact ⟨payloadMark :: text, data ++ terminator ++ rest,
      line_eq_iff.2 ⟨by simp, lineFeed_not_mem_marked (by decide) hn⟩, partAfter_eq_ok_iff.2 ⟨text, rfl, hn, hle, rfl⟩⟩

theorem parts_eq_ok_iff {count : Nat} {parts : List Bytes} :
    of (fun ending => readParts ending count) ending s = (.ok parts, rest) ↔
      parts.length = count ∧ ∃ pieces, s = pieces.flatten ++ rest ∧ List.Forall₂ PartFrame pieces parts := by
  induction count generalizing s parts with
  | zero =>
    show (Except.ok [], s) = _ ↔ _
    rw [Prod.mk.injEq, Except.ok.injEq, List.length_eq_zero_iff, eq_comm]
    refine and_congr_right fun hnil => ?_
    subst hnil
    simp
  | succ count ih =>
    rw [parts_succ, andThen_eq_ok_iff]
    constructor
    · rintro ⟨part, mid, hpart, hrest⟩
      obtain ⟨more, mid', hmore, hgive⟩ := andThen_eq_ok_iff.1 hrest
      obtain ⟨hparts, rfl⟩ := give_eq_ok_iff.1 hgive
      obtain rfl := Except.ok.inj hparts
      obtain ⟨w, rfl, hw⟩ := part_eq_ok_iff.1 hpart
      obtain ⟨hlen, pieces, rfl, hpieces⟩ := ih.1 hmore
      exact ⟨congrArg Nat.succ hlen, w :: pieces, by simp, .cons hw hpieces⟩
    · rintro ⟨hlen, pieces, rfl, hpieces⟩
      cases hpieces with
      | nil => contradiction
      | cons hw hpieces =>
        rename_i w part pieces more
        exact ⟨part, pieces.flatten ++ rest, part_eq_ok_iff.2 ⟨w, by simp, hw⟩, andThen_eq_ok_iff.2
          ⟨more, rest, ih.2 ⟨Nat.succ.inj hlen, pieces, rfl, hpieces⟩, give_eq_ok_iff.2 ⟨rfl, rfl⟩⟩⟩

theorem partCount_eq_ok_iff {body : Bytes} {n : Nat} : partCount body = .ok n ↔
    0 < n ∧ ∃ text, body = arrayMark :: text ∧ Numeral.integer? text = some (n : Int) := by
  constructor
  · intro h
    cases body with
    | nil => contradiction
    | cons mark text =>
      simp only [partCount] at h
      split_ifs at h with hmark
      subst hmark
      obtain ⟨k, hk, hn⟩ := exists_of_bind_eq_ok h
      split_ifs at hn with hpos
      obtain rfl := Except.ok.inj hn
      have hcast : k = (k.toNat : Int) := by omega
      exact ⟨by omega, text, rfl, hcast ▸ Header.integer_eq_ok_iff.1 hk⟩
  · rintro ⟨hpos, text, rfl, hn⟩
    have hge : ¬ (n : Int) < 1 := by omega
    simp only [partCount, ↓reduceIte, Header.integer_eq_ok_iff.2 hn, Except.bind, hge, Int.toNat_natCast]

theorem requestOf_eq_ok_iff {parts : List Bytes} {id : Bytes} {args : List Bytes} :
    requestOf parts = .ok (id, args) ↔ parts = id :: args := by
  cases parts <;> simp [requestOf]

theorem requestAfter_eq_ok_iff {body id : Bytes} {args : List Bytes} :
    requestAfter body ending s = (.ok (id, args), rest) ↔
      partCount body = .ok (args.length + 1) ∧
        ∃ pieces, s = pieces.flatten ++ rest ∧ List.Forall₂ PartFrame pieces (id :: args) := by
  unfold requestAfter
  cases hcount : partCount body with
  | error e => simp [give]
  | ok n =>
    simp only [andThen_eq_ok_iff, give_eq_ok_iff, requestOf_eq_ok_iff, parts_eq_ok_iff, Except.ok.injEq]
    constructor
    · rintro ⟨parts, mid, ⟨hlen, pieces, hs, hpieces⟩, rfl, rfl⟩
      exact ⟨hlen.symm, pieces, hs, hpieces⟩
    · rintro ⟨hlen, pieces, hs, hpieces⟩
      exact ⟨id :: args, rest, ⟨hlen.symm, pieces, hs, hpieces⟩, rfl, rfl⟩

/-- What is read is a frame of it, and a frame is read, whatever follows. -/
theorem request_eq_ok_iff {id : Bytes} {args : List Bytes} :
    request ending s = (.ok (id, args), rest) ↔ ∃ w, s = w ++ rest ∧ RequestFrame w id args := by
  rw [request_eq, andThen_eq_ok_iff]
  constructor
  · rintro ⟨body, mid, hline, hrequest⟩
    obtain ⟨rfl, -⟩ := line_eq_iff.1 hline
    obtain ⟨hcount, pieces, rfl, hpieces⟩ := requestAfter_eq_ok_iff.1 hrequest
    obtain ⟨-, text, rfl, hn⟩ := partCount_eq_ok_iff.1 hcount
    exact ⟨_, by simp, .request text pieces id args hn hpieces⟩
  · rintro ⟨w, rfl, hw⟩
    obtain ⟨text, pieces, id, args, hn, hpieces⟩ := hw
    exact ⟨arrayMark :: text, pieces.flatten ++ rest,
      line_eq_iff.2 ⟨by simp, lineFeed_not_mem_marked (by decide) hn⟩, requestAfter_eq_ok_iff.2
        ⟨partCount_eq_ok_iff.2 ⟨Nat.succ_pos _, text, rfl, hn⟩, pieces, rfl, hpieces⟩⟩

/-! ## The shortest frame -/

theorem shortest_encodeBulk {w data : Bytes} (h : PartFrame w data) : Shortest (encodeBulk data) w := by
  obtain ⟨text, data, hn, -⟩ := h
  exact ((((Numeral.shortest_decimal hn).1.cons payloadMark).append (.refl terminator)).append (.refl data)).append
    (.refl terminator)

theorem shortest_flatMap_encodeBulk {pieces parts : List Bytes} (h : List.Forall₂ PartFrame pieces parts) :
    Shortest (parts.flatMap encodeBulk) pieces.flatten := by
  induction h with
  | nil => exact .refl []
  | cons hw _ ih => exact (shortest_encodeBulk hw).append ih

/-- No frame of a command is shorter than the one written for it, and one as short is that one. -/
theorem shortest_encode {w id : Bytes} {args : List Bytes} (h : RequestFrame w id args) :
    Shortest (encode id args) w := by
  obtain ⟨text, pieces, id, args, hn, hpieces⟩ := h
  rw [encode_eq]
  exact (((Numeral.shortest_decimal hn).1.cons arrayMark).append (.refl terminator)).append
    (shortest_flatMap_encodeBulk hpieces)

theorem length_le_of_partFrames {pieces parts : List Bytes} (h : List.Forall₂ PartFrame pieces parts) :
    ∀ data ∈ parts, data.length ≤ maxPayload := by
  induction h with
  | nil => simp
  | cons hw _ ih =>
    obtain ⟨text, data, -, hle⟩ := hw
    exact List.forall_mem_cons.2 ⟨hle, ih⟩

/-- A command that has a frame can be sent. -/
theorem sendable_of_requestFrame {w id : Bytes} {args : List Bytes} (h : RequestFrame w id args) : Sendable id args := by
  obtain ⟨text, pieces, id, args, hn, hpieces⟩ := h
  have hcount := (Numeral.shortest_decimal hn).2
  unfold Numeral.signedBound at hcount
  exact ⟨length_le_of_partFrames hpieces, by omega⟩

/-- What is written for it is a frame. -/
theorem requestFrame_encode {id : Bytes} {args : List Bytes} (h : Sendable id args) :
    RequestFrame (encode id args) id args := by
  obtain ⟨w, hw, hframe⟩ := request_eq_ok_iff.1 (readRequest_encode h .closed [])
  obtain rfl : encode id args = w := by simpa using hw
  exact hframe

/-! ## Requests -/

/-- **The reader accepts exactly the grammar, and the writer gives the shortest form.** A request is read with `n` octets
consumed iff those octets are a frame of it, which is an array of its id and its arguments, all payloads. For every request
read, the octets that a writer adds to any buffer are a frame of the same command and are read as that command, whatever
follows; they are no more than were consumed, and if they are as many they are the same. -/
theorem request_canonical :
    (∀ (ending : Ending) (s : Bytes) (id : Bytes) (args : List Bytes) (n : Nat),
      (n ≤ s.length ∧ request ending s = (.ok (id, args), s.drop n)) ↔
        (n ≤ s.length ∧ RequestFrame (s.take n) id args)) ∧
    (∀ (w id : Bytes) (args : List Bytes), RequestFrame w id args ↔ Frame w (.array ((id :: args).map .bulk))) ∧
    ∀ (ending : Ending) (s : Bytes) (id : Bytes) (args : List Bytes) (n : Nat),
      n ≤ s.length → request ending s = (.ok (id, args), s.drop n) →
      ∃ c, (∀ out, (appendRequest out id args).toList = out.toList ++ c) ∧ RequestFrame c id args ∧
        (∀ (ending' : Ending) (t : Bytes), request ending' (c ++ t) = (.ok (id, args), t)) ∧
        c.length ≤ n ∧ (c.length = n → c = s.take n) := by
  have hiff : ∀ (ending : Ending) (s : Bytes) (id : Bytes) (args : List Bytes) (n : Nat), n ≤ s.length →
      (request ending s = (.ok (id, args), s.drop n) ↔ RequestFrame (s.take n) id args) := by
    intro ending s id args n hn
    rw [request_eq_ok_iff]
    constructor
    · rintro ⟨w, hw, hframe⟩
      have htake : s.take n ++ s.drop n = w ++ s.drop n := by rw [List.take_append_drop, ← hw]
      rw [List.append_cancel_right htake]
      exact hframe
    · intro hframe
      exact ⟨s.take n, (List.take_append_drop n s).symm, hframe⟩
  refine ⟨fun ending s id args n => and_congr_right (hiff ending s id args n), fun _ _ _ => requestFrame_iff_frame, ?_⟩
  intro ending s id args n hn hread
  have hframe := (hiff ending s id args n hn).1 hread
  have hsend := sendable_of_requestFrame hframe
  have hlen : (s.take n).length = n := List.length_take_of_le hn
  obtain ⟨hle, hunique⟩ := shortest_encode hframe
  rw [hlen] at hle hunique
  exact ⟨encode id args, fun out => toList_appendRequest out id args, requestFrame_encode hsend,
    readRequest_encode hsend, hle, fun heq => (hunique heq.symm).symm⟩

/-- `*02` and payloads of the lengths `1` and `-0`, an octet behind them: read, and two octets longer than what is
written for it. -/
def laxRequest : Bytes :=
  [42, 48, 50, 13, 10, 36, 49, 13, 10, 80, 13, 10, 36, 45, 48, 13, 10, 13, 10]

theorem request_canonical_laxRequest :
    request .closed (laxRequest ++ [36]) = (.ok ([80], [[]]), (laxRequest ++ [36]).drop 19) ∧
    ∃ c, (appendRequest #[] [80] [[]]).toList = c ∧ request .closed (c ++ [36]) = (.ok ([80], [[]]), [36]) ∧
      c.length ≤ 19 := by
  have hframe : RequestFrame ((laxRequest ++ [36]).take 19) [80] [[]] :=
    .request [48, 50] [_, _] _ _ rfl
      (.cons (.part [49] [80] rfl (by decide)) (.cons (.part [45, 48] [] rfl (by decide)) .nil))
  obtain ⟨-, hread⟩ := (request_canonical.1 .closed (laxRequest ++ [36]) [80] [[]] 19).2 ⟨by decide, hframe⟩
  obtain ⟨c, hout, -, hagain, hle, -⟩ := request_canonical.2.2 .closed _ _ _ 19 (by decide) hread
  exact ⟨hread, c, hout #[], hagain .closed [36], hle⟩

end Wire

end RespClient
