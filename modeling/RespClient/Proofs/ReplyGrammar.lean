/-
The grammar of replies, and the proof that the reader accepts exactly it. The grammar is said without the reader: `Frame w r`
relates the octets `w` of one whole frame to the reply `r` that they write, `Frames w rs` does so for frames one after the
other. An integer may stand in any text that `Numeral.integer?` accepts, so leading zeros and `-0` are forms too.

- `frame_of_readReply`, `readReply_of_frame`: what is read has a derivation, and what has a derivation is read, whatever
  octets follow. The first goes by the reader's own recursion, the second by the derivation.
- `reply_eq_ok_iff_frame`: both, for the octets that a reader consumed; and a stream of frames gives their replies in order.
-/
import RespClient.Proofs.Framing
import RespClient.Wire.Replies

namespace RespClient.Wire

/-! ## Grammar -/

mutual

/-- The octets of one frame and the reply that they write. -/
inductive Frame : Bytes → Reply → Prop where
  | status (body : Bytes) : lineFeed ∉ body →
      Frame (statusMark :: body ++ terminator) (.status (Utf8.decodeLossy body))
  | error (body : Bytes) : lineFeed ∉ body →
      Frame (errorMark :: body ++ terminator) (.error ⟨Utf8.decodeLossy body⟩)
  | integer (text : Bytes) (n : Int) : Numeral.integer? text = some n →
      Frame (integerMark :: text ++ terminator) (.integer n)
  | bulk (text data : Bytes) : Numeral.integer? text = some (data.length : Int) → data.length ≤ maxPayload →
      Frame (payloadMark :: text ++ terminator ++ data ++ terminator) (.bulk data)
  | nil (mark : UInt8) (text : Bytes) : mark = payloadMark ∨ mark = arrayMark → Numeral.integer? text = some (-1) →
      Frame (mark :: text ++ terminator) .nil
  | array (text w : Bytes) (rs : List Reply) : Numeral.integer? text = some (rs.length : Int) → Frames w rs →
      Frame (arrayMark :: text ++ terminator ++ w) (.array rs)

/-- The octets of consecutive frames and the replies that they write. -/
inductive Frames : Bytes → List Reply → Prop where
  | nil : Frames [] []
  | cons (w v : Bytes) (r : Reply) (rs : List Reply) : Frame w r → Frames v rs → Frames (w ++ v) (r :: rs)

end

/-! ## What a line announces -/

namespace Header

/-- The lines that announce something, by form. -/
inductive Announces : Bytes → Header → Prop where
  | status (body : Bytes) : Announces (statusMark :: body) (.whole (.status (Utf8.decodeLossy body)))
  | error (body : Bytes) : Announces (errorMark :: body) (.whole (.error ⟨Utf8.decodeLossy body⟩))
  | integer (text : Bytes) (n : Int) : Numeral.integer? text = some n →
      Announces (integerMark :: text) (.whole (.integer n))
  | payload (text : Bytes) (n : Nat) : Numeral.integer? text = some (n : Int) → n ≤ maxPayload →
      Announces (payloadMark :: text) (.payload n)
  | nil (mark : UInt8) (text : Bytes) : mark = payloadMark ∨ mark = arrayMark → Numeral.integer? text = some (-1) →
      Announces (mark :: text) (.whole .nil)
  | items (text : Bytes) (n : Nat) : Numeral.integer? text = some (n : Int) → Announces (arrayMark :: text) (.items n)

theorem integer_eq_ok_iff {s : Bytes} {n : Int} : Wire.integer s = .ok n ↔ Numeral.integer? s = some n := by
  unfold Wire.integer
  cases h : Numeral.integer? s <;> simp

theorem announces_of_ofLine {body : Bytes} {h : Header} (he : ofLine body = .ok h) : Announces body h := by
  cases body with
  | nil => contradiction
  | cons mark body =>
    simp only [ofLine] at he
    split_ifs at he with hs herr hi hp ha
    · subst hs
      exact Except.ok.inj he ▸ .status body
    · subst herr
      exact Except.ok.inj he ▸ .error body
    · subst hi
      obtain ⟨n, hn, rfl⟩ := exists_of_map_eq_ok he
      exact .integer body n (integer_eq_ok_iff.1 hn)
    · obtain ⟨n, hn, hk⟩ := exists_of_bind_eq_ok he
      rw [integer_eq_ok_iff] at hn
      simp only [ofPayloadLength] at hk
      split_ifs at hk with h1 h2
      · subst h1
        exact Except.ok.inj hk ▸ .nil mark body (.inl hp) hn
      · subst hp
        simp only [Bool.or_eq_true, decide_eq_true_eq, not_or] at h2
        have hn' : n = (n.toNat : Int) := by omega
        exact Except.ok.inj hk ▸ .payload body n.toNat (hn' ▸ hn) (by omega)
    · obtain ⟨n, hn, hk⟩ := exists_of_bind_eq_ok he
      rw [integer_eq_ok_iff] at hn
      simp only [ofCount] at hk
      split_ifs at hk with h1 h2
      · subst h1
        exact Except.ok.inj hk ▸ .nil mark body (.inr ha) hn
      · subst ha
        have hn' : n = (n.toNat : Int) := by omega
        exact Except.ok.inj hk ▸ .items body n.toNat (hn' ▸ hn)

theorem ofLine_of_announces {body : Bytes} {h : Header} (ha : Announces body h) : ofLine body = .ok h := by
  cases ha with
  | status body => rfl
  | error body => rfl
  | integer text n hn =>
    show (Wire.integer text).map _ = _
    rw [integer_eq_ok_iff.2 hn]
    rfl
  | payload text n hn hle =>
    have hneg : ¬ (n : Int) = -1 := by omega
    have hrange : ¬ ((n : Int) < 0 ∨ (n : Int) > maxPayload) := by omega
    show (Wire.integer text).bind ofPayloadLength = _
    rw [integer_eq_ok_iff.2 hn]
    show ofPayloadLength n = _
    rw [ofPayloadLength, if_neg hneg, if_neg (by simpa using hrange), Int.toNat_natCast]
  | nil mark text hmark hn =>
    rcases hmark with rfl | rfl
    · show (Wire.integer text).bind ofPayloadLength = _
      rw [integer_eq_ok_iff.2 hn]
      rfl
    · show (Wire.integer text).bind ofCount = _
      rw [integer_eq_ok_iff.2 hn]
      rfl
  | items text n hn =>
    have hneg : ¬ (n : Int) = -1 := by omega
    show (Wire.integer text).bind ofCount = _
    rw [integer_eq_ok_iff.2 hn]
    show ofCount n = _
    rw [ofCount, if_neg hneg, if_neg (by omega), Int.toNat_natCast]

end Header

/-! ## Reading finds frames only -/

open Header (Announces announces_of_ofLine ofLine_of_announces)

/-- A line that announces a whole reply is its frame. -/
theorem frame_of_announces {body : Bytes} {r : Reply} (h : Announces body (.whole r)) (hlf : lineFeed ∉ body) :
    Frame (body ++ terminator) r := by
  have htail : ∀ {mark : UInt8} {text : Bytes}, lineFeed ∉ mark :: text → lineFeed ∉ text :=
    fun hm ht => hm (List.mem_cons_of_mem _ ht)
  cases h with
  | status body => exact .status body (htail hlf)
  | error body => exact .error body (htail hlf)
  | integer text n hn => exact .integer text n hn
  | nil mark text hmark hn => exact .nil mark text hmark hn

mutual

/-- The octets consumed for a reply are a frame of it. -/
theorem frame_of_readReply {ending : Ending} {s rest : Bytes} {r : Reply}
    (h : (readReply ending s).toPair = (.ok r, rest)) : ∃ w, s = w ++ rest ∧ Frame w r := by
  unfold readReply at h
  cases hline : line ending s with
  | failure e t => simp [hline] at h
  | value body mid hmid =>
    obtain ⟨hs, hlf⟩ : s = body ++ terminator ++ mid ∧ lineFeed ∉ body := line_eq_iff.1 (by rw [hline]; rfl)
    simp only [hline] at h
    cases hbody : Header.ofLine body with
    | error e => simp [hbody] at h
    | ok head =>
      have ha := announces_of_ofLine hbody
      simp only [hbody] at h
      cases head with
      | whole r' =>
        simp only [Reading.toPair_value, Prod.mk.injEq, Except.ok.injEq] at h
        obtain ⟨rfl, rfl⟩ := h
        exact ⟨body ++ terminator, hs, frame_of_announces ha hlf⟩
      | payload n =>
        cases hdata : payload ending n mid with
        | failure e t => simp [hdata] at h
        | value data rest' hrest =>
          simp only [hdata, Reading.toPair_value, Prod.mk.injEq, Except.ok.injEq] at h
          obtain ⟨rfl, rfl⟩ := h
          obtain ⟨hd, hlen⟩ : mid = data ++ terminator ++ rest' ∧ data.length = n :=
            payload_eq_iff.1 (by rw [hdata]; rfl)
          cases ha with
          | payload text n hn hle =>
            subst hlen
            exact ⟨_, by rw [hs, hd]; simp, .bulk text data hn hle⟩
      | items n =>
        cases hitems : readItems ending n mid with
        | failure e t => simp [hitems] at h
        | value rs rest' hrest =>
          simp only [hitems, Reading.toPair_value, Prod.mk.injEq, Except.ok.injEq] at h
          obtain ⟨rfl, rfl⟩ := h
          obtain ⟨w, hw, hframes, hlen⟩ : ∃ w, mid = w ++ rest' ∧ Frames w rs ∧ rs.length = n :=
            frames_of_readItems (by rw [hitems]; rfl)
          cases ha with
          | items text n hn =>
            subst hlen
            exact ⟨_, by rw [hs, hw]; simp, .array text w rs hn hframes⟩
  termination_by (s.length, 0)

/-- The octets consumed for so many replies are as many frames. -/
theorem frames_of_readItems {ending : Ending} {count : Nat} {s rest : Bytes} {rs : List Reply}
    (h : (readItems ending count s).toPair = (.ok rs, rest)) :
    ∃ w, s = w ++ rest ∧ Frames w rs ∧ rs.length = count := by
  cases count with
  | zero =>
    unfold readItems at h
    simp only [Reading.toPair_value, Prod.mk.injEq, Except.ok.injEq] at h
    obtain ⟨rfl, rfl⟩ := h
    exact ⟨[], rfl, .nil, rfl⟩
  | succ count =>
    unfold readItems at h
    cases hread : readReply ending s with
    | failure e t => simp [hread] at h
    | value r mid hmid =>
      simp only [hread] at h
      cases hitems : readItems ending count mid with
      | failure e t => simp [hitems] at h
      | value rs' rest' hrest =>
        simp only [hitems, Reading.toPair_value, Prod.mk.injEq, Except.ok.injEq] at h
        obtain ⟨rfl, rfl⟩ := h
        obtain ⟨w, hw, hframe⟩ : ∃ w, s = w ++ mid ∧ Frame w r := frame_of_readReply (by rw [hread]; rfl)
        obtain ⟨v, hv, hframes, hlen⟩ : ∃ v, mid = v ++ rest' ∧ Frames v rs' ∧ rs'.length = count :=
          frames_of_readItems (by rw [hitems]; rfl)
        exact ⟨w ++ v, by rw [hw, hv]; simp, .cons w v r rs' hframe hframes, by simp [hlen]⟩
  termination_by (s.length, 1)

end

/-! ## Every frame is read -/

section

variable {ending : Ending} {s body mid rest : Bytes}

theorem readReply_whole {r : Reply} (hs : s = body ++ terminator ++ rest) (hlf : lineFeed ∉ body)
    (ha : Announces body (.whole r)) : (readReply ending s).toPair = (.ok r, rest) := by
  obtain ⟨h, hline⟩ := Reading.eq_value_of_toPair (line_eq_iff.2 ⟨hs, hlf⟩ : (line ending s).toPair = _)
  unfold readReply
  simp only [hline, ofLine_of_announces ha, Reading.toPair_value]

theorem readReply_payload {data : Bytes} (hs : s = body ++ terminator ++ mid) (hlf : lineFeed ∉ body)
    (ha : Announces body (.payload data.length)) (hmid : mid = data ++ terminator ++ rest) :
    (readReply ending s).toPair = (.ok (.bulk data), rest) := by
  obtain ⟨h, hline⟩ := Reading.eq_value_of_toPair (line_eq_iff.2 ⟨hs, hlf⟩ : (line ending s).toPair = _)
  obtain ⟨h', hdata⟩ := Reading.eq_value_of_toPair
    (payload_eq_iff.2 ⟨hmid, rfl⟩ : (payload ending data.length mid).toPair = _)
  unfold readReply
  simp only [hline, ofLine_of_announces ha, hdata, Reading.toPair_value]

theorem readReply_items {rs : List Reply} {n : Nat} (hs : s = body ++ terminator ++ mid) (hlf : lineFeed ∉ body)
    (ha : Announces body (.items n)) (hitems : (readItems ending n mid).toPair = (.ok rs, rest)) :
    (readReply ending s).toPair = (.ok (.array rs), rest) := by
  obtain ⟨h, hline⟩ := Reading.eq_value_of_toPair (line_eq_iff.2 ⟨hs, hlf⟩ : (line ending s).toPair = _)
  obtain ⟨h', hvalue⟩ := Reading.eq_value_of_toPair hitems
  unfold readReply
  simp only [hline, ofLine_of_announces ha, hvalue, Reading.toPair_value]

theorem readItems_cons {r : Reply} {rs : List Reply} (hread : (readReply ending s).toPair = (.ok r, mid))
    (hitems : (readItems ending rs.length mid).toPair = (.ok rs, rest)) :
    (readItems ending (r :: rs).length s).toPair = (.ok (r :: rs), rest) := by
  obtain ⟨h, hr⟩ := Reading.eq_value_of_toPair hread
  obtain ⟨h', hrs⟩ := Reading.eq_value_of_toPair hitems
  rw [List.length_cons, readItems]
  simp only [hr, hrs, Reading.toPair_value]

end

/-- A marked integer text is a line without line feed. -/
theorem lineFeed_not_mem_marked {mark : UInt8} {text : Bytes} {n : Int} (hm : lineFeed ≠ mark)
    (h : Numeral.integer? text = some n) : lineFeed ∉ mark :: text :=
  List.not_mem_cons_of_ne_of_not_mem hm (Numeral.lineFeed_not_mem_of_integer? h)

mutual

/-- A frame is read as its reply, whatever follows. -/
theorem readReply_of_frame {ending : Ending} {w : Bytes} {r : Reply} (h : Frame w r) (rest : Bytes) :
    (readReply ending (w ++ rest)).toPair = (.ok r, rest) := by
  cases h with
  | status body hlf => exact readReply_whole rfl (List.not_mem_cons_of_ne_of_not_mem (by decide) hlf) (.status body)
  | error body hlf => exact readReply_whole rfl (List.not_mem_cons_of_ne_of_not_mem (by decide) hlf) (.error body)
  | integer text n hn => exact readReply_whole rfl (lineFeed_not_mem_marked (by decide) hn) (.integer text n hn)
  | bulk text data hn hle =>
    exact readReply_payload (by simp) (lineFeed_not_mem_marked (by decide) hn) (.payload text _ hn hle)
      (List.append_assoc ..).symm
  | nil mark text hmark hn =>
    have hm : lineFeed ≠ mark := by rcases hmark with rfl | rfl <;> decide
    exact readReply_whole rfl (lineFeed_not_mem_marked hm hn) (.nil mark text hmark hn)
  | array text w rs hn hframes =>
    exact readReply_items (List.append_assoc ..) (lineFeed_not_mem_marked (by decide) hn) (.items text _ hn)
      (readItems_of_frames hframes rest)

/-- Consecutive frames are read as their replies. -/
theorem readItems_of_frames {ending : Ending} {w : Bytes} {rs : List Reply} (h : Frames w rs) (rest : Bytes) :
    (readItems ending rs.length (w ++ rest)).toPair = (.ok rs, rest) := by
  cases h with
  | nil => simp [readItems]
  | cons w v r rs hframe hframes =>
    have hread : (readReply ending (w ++ (v ++ rest))).toPair = (.ok r, v ++ rest) := readReply_of_frame hframe _
    rw [← List.append_assoc] at hread
    exact readItems_cons hread (readItems_of_frames hframes rest)

end

/-! ## The reader and the grammar -/

theorem readAll_frames (ending : Ending) {ws : List Bytes} {rs : List Reply} (h : List.Forall₂ Frame ws rs)
    (t : Bytes) : readAll (readReply ending) (ws.flatten ++ t) =
      (rs ++ (readAll (readReply ending) t).1, (readAll (readReply ending) t).2) := by
  induction h with
  | nil => rfl
  | cons hframe _ ih =>
    rw [List.flatten_cons, List.append_assoc, readAll_of_value (readReply_of_frame hframe _), ih]
    rfl

/-- **The reader accepts exactly the grammar.** A reply is read with `n` octets consumed iff those octets are a frame of
it. So the replies of consecutive frames are read in order, and then what follows them. -/
theorem reply_eq_ok_iff_frame :
    (∀ (ending : Ending) (s : Bytes) (r : Reply) (n : Nat),
      (n ≤ s.length ∧ reply ending s = (.ok r, s.drop n)) ↔ (n ≤ s.length ∧ Frame (s.take n) r)) ∧
    ∀ (ending : Ending) (ws : List Bytes) (rs : List Reply) (t : Bytes), List.Forall₂ Frame ws rs →
      readAll (readReply ending) (ws.flatten ++ t) =
        (rs ++ (readAll (readReply ending) t).1, (readAll (readReply ending) t).2) := by
  refine ⟨?_, fun ending ws rs t h => readAll_frames ending h t⟩
  intro ending s r n
  refine and_congr_right ?_
  intro hn
  constructor
  · intro h
    obtain ⟨w, hw, hframe⟩ := frame_of_readReply h
    have hlen : w.length = n := by
      have := congrArg List.length hw
      rw [List.length_append, List.length_drop] at this
      omega
    have htake : s.take n = w := by
      rw [hw, ← hlen]
      exact List.take_left
    rw [htake]
    exact hframe
  · intro h
    have hread : (readReply ending (s.take n ++ s.drop n)).toPair = (.ok r, s.drop n) :=
      readReply_of_frame h (s.drop n)
    rw [List.take_append_drop] at hread
    exact hread

/-- `*2`, a payload that is itself the end of a line, and `:-0`. -/
def nestedFrame : Bytes := [42, 50, 13, 10, 36, 50, 13, 10, 13, 10, 13, 10, 58, 45, 48, 13, 10]

theorem frame_nestedFrame : Frame nestedFrame (.array [.bulk terminator, .integer 0]) :=
  .array [50] _ _ rfl (.cons _ _ _ _ (.bulk [50] terminator rfl (by decide))
    (.cons _ _ _ _ (.integer [45, 48] 0 rfl) .nil))

/-- Two frames and a line cut off: both replies, and then the end of the stream. -/
theorem readAll_nestedFrame :
    List.Forall₂ Frame [nestedFrame, [36, 45, 49, 13, 10]] [.array [.bulk terminator, .integer 0], .nil] ∧
    readAll (readReply .closed) ([nestedFrame, [36, 45, 49, 13, 10]].flatten ++ [43]) =
      ([.array [.bulk terminator, .integer 0], .nil], .connectionClosed) := by
  have hframes : List.Forall₂ Frame [nestedFrame, [36, 45, 49, 13, 10]]
      [.array [.bulk terminator, .integer 0], .nil] :=
    .cons frame_nestedFrame (.cons (.nil payloadMark [45, 49] (.inl rfl) rfl) .nil)
  refine ⟨hframes, ?_⟩
  rw [reply_eq_ok_iff_frame.2 .closed _ _ [43] hframes]
  have hend : readAll (readReply .closed) [43] = ([], .connectionClosed) :=
    readAll_of_error (by rw [readReply]; rfl)
  rw [hend]
  rfl

end RespClient.Wire
