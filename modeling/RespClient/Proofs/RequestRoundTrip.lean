/-
Requests survive the wire. A writer only adds to its buffer, and what it adds for a command is that command's frame
whatever the buffer held before; a reader gives the command back and leaves what follows the frame. So commands written
one after the other are read in the same order, and then the stream is at its end.

- `toList_putDigits`, `size_putDigits_le`: what the loop over the digits of a number leaves in its buffer, which twenty octets
  are enough for if the number is a 64-bit word. So `toList_appendNumber`: a number is written as its decimal.
- `toList_appendRequest`: the buffer after writing, in terms of `encode`.
- `readRequest_encode`: one frame, with any octets after it. The parts are read by their lengths, so they may hold line
  ends and marks.
- `request_appendRequest`: both together, for one command and for a sequence of them.
-/
import RespClient.Proofs.ReplyGrammar
import RespClient.Wire.Requests

namespace RespClient

namespace Wire

/-! ## Digits -/

/-- The loop leaves the digits the wrong way round. -/
theorem toList_putDigits {n : Nat} (hn : n ≠ 0) (buffer : Array UInt8) :
    (putDigits buffer n).toList = buffer.toList ++ (Bytes.decimal n).reverse := by
  induction n using Nat.strong_induction_on generalizing buffer with
  | _ n ih =>
    rw [putDigits, if_neg hn, Bytes.decimal_eq, List.reverse_append, List.reverse_singleton]
    by_cases hlt : n < 10
    · rw [Nat.div_eq_of_lt hlt, putDigits, if_pos rfl, if_pos hlt, Array.toList_push]
      rfl
    · rw [ih (n / 10) (by omega) (by omega), if_neg hlt, Array.toList_push, List.append_assoc]

/-- Twenty octets are enough for a word. -/
theorem size_putDigits_le {n : Nat} (hn : n < UInt64.size) : (putDigits #[] n).size ≤ 20 := by
  by_cases hzero : n = 0
  · rw [putDigits, if_pos hzero]
    exact Nat.zero_le _
  · rw [← Array.length_toList, toList_putDigits hzero, List.nil_append, List.length_reverse]
    exact Bytes.length_decimal_le (by decide) (Nat.lt_trans hn (by decide))

/-- A number is written as its decimal. -/
theorem toList_appendNumber (out : Array UInt8) (n : Nat) :
    (appendNumber out n).toList = out.toList ++ Bytes.decimal n := by
  have hpush : ∀ digits : List UInt8,
      (digits.foldr (fun digit out => Array.push out digit) out).toList = out.toList ++ digits.reverse := by
    intro digits
    induction digits with
    | nil => exact (List.append_nil _).symm
    | cons digit digits ih => rw [List.foldr_cons, Array.toList_push, ih, List.reverse_cons, List.append_assoc]
  unfold appendNumber
  rw [← Array.foldr_toList, hpush]
  split_ifs with hzero
  · rw [hzero]
    rfl
  · rw [toList_putDigits hzero, List.nil_append, List.reverse_reverse]

/-! ## Writing only adds -/

theorem toList_appendHeader (out : Array UInt8) (mark : UInt8) (n : Nat) :
    (appendHeader out mark n).toList = out.toList ++ header mark n := by
  simp [appendHeader, header, toList_appendNumber]

theorem toList_appendBulk (out : Array UInt8) (data : Bytes) :
    (appendBulk out data).toList = out.toList ++ encodeBulk data := by
  simp [appendBulk, encodeBulk, toList_appendHeader]

theorem toList_foldl_appendBulk (args : List Bytes) (out : Array UInt8) :
    (args.foldl appendBulk out).toList = out.toList ++ args.flatMap encodeBulk := by
  induction args generalizing out with
  | nil => simp
  | cons arg args ih => rw [List.foldl_cons, ih, toList_appendBulk, List.flatMap_cons, List.append_assoc]

/-- Writing a command adds its frame to the buffer. -/
theorem toList_appendRequest (out : Array UInt8) (id : Bytes) (args : List Bytes) :
    (appendRequest out id args).toList = out.toList ++ encode id args := by
  rw [appendRequest, toList_foldl_appendBulk, toList_appendBulk, toList_appendHeader, encode]
  simp only [List.append_assoc]

/-- Writes commands one after the other. -/
def appendAll (out : Array UInt8) (commands : List (Bytes × List Bytes)) : Array UInt8 :=
  commands.foldl (fun out c => appendRequest out c.1 c.2) out

theorem toList_appendAll (commands : List (Bytes × List Bytes)) (out : Array UInt8) :
    (appendAll out commands).toList = out.toList ++ commands.flatMap fun c => encode c.1 c.2 := by
  induction commands generalizing out with
  | nil => simp [appendAll]
  | cons c commands ih =>
    show (appendAll (appendRequest out c.1 c.2) commands).toList = _
    rw [ih, toList_appendRequest, List.flatMap_cons, List.append_assoc]

/-! ## Reading what was written -/

theorem lineFeed_not_mem_decimal (n : Nat) : lineFeed ∉ Bytes.decimal n :=
  fun h => absurd (Bytes.isDigit_of_mem_decimal h) (by decide)

/-- The line of a header. -/
theorem line_header {mark : UInt8} (hm : lineFeed ≠ mark) (ending : Ending) (n : Nat) (rest : Bytes) :
    ∃ h, line ending (header mark n ++ rest) = .value (mark :: Bytes.decimal n) rest h :=
  Reading.eq_value_of_toPair (line_eq_iff.2
    ⟨by simp [header], List.not_mem_cons_of_ne_of_not_mem hm (lineFeed_not_mem_decimal n)⟩)

theorem maxPayload_lt_signedBound : maxPayload < Numeral.signedBound := by decide

theorem readPart_encodeBulk {data : Bytes} (h : data.length ≤ maxPayload) (ending : Ending) (rest : Bytes) :
    (readPart ending (encodeBulk data ++ rest)).toPair = (.ok data, rest) := by
  have hn := Numeral.integer?_decimal (Nat.lt_of_le_of_lt h maxPayload_lt_signedBound)
  have hbulk : encodeBulk data ++ rest = header payloadMark data.length ++ (data ++ terminator ++ rest) := by
    simp [encodeBulk]
  have hmark : lineFeed ≠ payloadMark := by decide
  rw [hbulk]
  obtain ⟨hl, hline⟩ := line_header hmark ending data.length (data ++ terminator ++ rest)
  obtain ⟨hp, hpayload⟩ := Reading.eq_value_of_toPair
    (payload_eq_iff.2 ⟨rfl, rfl⟩ : (payload ending data.length (data ++ terminator ++ rest)).toPair = _)
  have hhead := Header.ofLine_of_announces (.payload (Bytes.decimal data.length) data.length hn h)
  unfold readPart
  simp only [hline, List.head?_cons, ↓reduceIte, hhead, hpayload, Reading.toPair_value]

theorem readParts_encodeBulk {parts : List Bytes} (h : ∀ part ∈ parts, part.length ≤ maxPayload) (ending : Ending)
    (rest : Bytes) :
    (readParts ending parts.length (parts.flatMap encodeBulk ++ rest)).toPair = (.ok parts, rest) := by
  induction parts with
  | nil => rfl
  | cons part parts ih =>
    have hpart := readPart_encodeBulk (h part List.mem_cons_self) ending (parts.flatMap encodeBulk ++ rest)
    rw [List.flatMap_cons, List.append_assoc, List.length_cons, readParts]
    obtain ⟨hp, hpart⟩ := Reading.eq_value_of_toPair hpart
    obtain ⟨hs, hparts⟩ := Reading.eq_value_of_toPair (ih fun q hq => h q (List.mem_cons_of_mem _ hq))
    simp only [hpart, hparts, Reading.toPair_value]

/-- What the readers accept of a command: payloads of an accepted length, and a number of parts that a count can name. -/
def Sendable (id : Bytes) (args : List Bytes) : Prop :=
  (∀ data ∈ id :: args, data.length ≤ maxPayload) ∧ args.length < 2 ^ 63 - 1

theorem partCount_decimal {n : Nat} (hpos : 0 < n) (h : n < Numeral.signedBound) :
    partCount (arrayMark :: Bytes.decimal n) = .ok n := by
  have hn : ¬ (n : Int) < 1 := by omega
  simp only [partCount, ↓reduceIte, Header.integer_eq_ok_iff.2 (Numeral.integer?_decimal h), Except.bind, hn,
    Int.toNat_natCast]

theorem encode_eq (id : Bytes) (args : List Bytes) :
    encode id args = header arrayMark (args.length + 1) ++ (id :: args).flatMap encodeBulk := by
  simp [encode]

/-- A frame is read as its command, whatever follows. -/
theorem readRequest_encode {id : Bytes} {args : List Bytes} (h : Sendable id args) (ending : Ending) (rest : Bytes) :
    (readRequest ending (encode id args ++ rest)).toPair = (.ok (id, args), rest) := by
  obtain ⟨hparts, hcount⟩ := h
  have hbound : args.length + 1 < Numeral.signedBound := by
    unfold Numeral.signedBound
    omega
  have hmark : lineFeed ≠ arrayMark := by decide
  rw [encode_eq, List.append_assoc]
  obtain ⟨hl, hline⟩ := line_header hmark ending (args.length + 1) ((id :: args).flatMap encodeBulk ++ rest)
  obtain ⟨hs, hread⟩ := Reading.eq_value_of_toPair (readParts_encodeBulk hparts ending rest)
  rw [List.length_cons] at hread
  unfold readRequest
  simp only [hline, partCount_decimal (Nat.succ_pos _) hbound, hread, Reading.toPair_value]

/-- The end of a stream between two requests. -/
theorem readRequest_nil : (readRequest .closed []).toPair = (.error .connectionClosed, []) := rfl

theorem readAll_encode {commands : List (Bytes × List Bytes)} (h : ∀ c ∈ commands, Sendable c.1 c.2) :
    readAll (readRequest .closed) (commands.flatMap fun c => encode c.1 c.2) = (commands, .connectionClosed) := by
  induction commands with
  | nil => exact readAll_of_error readRequest_nil
  | cons c commands ih =>
    have hread := readRequest_encode (h c List.mem_cons_self) .closed (commands.flatMap fun c => encode c.1 c.2)
    rw [List.flatMap_cons, readAll_of_value hread, ih fun d hd => h d (List.mem_cons_of_mem c hd)]

/-- **Requests survive the wire.** Writing a command adds octets to the buffer, the same whatever the buffer holds; read
back, with any octets behind them, they give the command and leave those octets. Commands written into one buffer are
read in order, all of them, and then the stream is at its end. -/
theorem request_appendRequest :
    (∀ (id : Bytes) (args : List Bytes), ∃ w, (∀ out, (appendRequest out id args).toList = out.toList ++ w) ∧
      (Sendable id args → ∀ (ending : Ending) (t : Bytes), request ending (w ++ t) = (.ok (id, args), t))) ∧
    ∀ commands : List (Bytes × List Bytes), ∃ w, (∀ out, (appendAll out commands).toList = out.toList ++ w) ∧
      ((∀ c ∈ commands, Sendable c.1 c.2) → readAll (readRequest .closed) w = (commands, .connectionClosed)) := by
  constructor
  · intro id args
    refine ⟨encode id args, ?_, ?_⟩
    · intro out
      exact toList_appendRequest out id args
    · intro h ending t
      exact readRequest_encode h ending t
  · intro commands
    refine ⟨commands.flatMap fun c => encode c.1 c.2, ?_, ?_⟩
    · intro out
      exact toList_appendAll commands out
    · intro h
      exact readAll_encode h

/-- Arguments that are empty, end a line or look like a header, and octets behind the frame that look like one too. -/
theorem request_appendRequest_marks :
    Sendable [83] [[], terminator, [42, 49, 13, 10]] ∧
    (∃ w, (appendRequest #[1] [83] [[], terminator, [42, 49, 13, 10]]).toList = [1] ++ w ∧
      request .closed (w ++ [36, 51]) = (.ok ([83], [[], terminator, [42, 49, 13, 10]]), [36, 51])) ∧
    ∃ w, (appendAll #[] [([83], [terminator]), ([], [])]).toList = w ∧
      readAll (readRequest .closed) w = ([([83], [terminator]), ([], [])], .connectionClosed) := by
  have hsend : Sendable [83] [[], terminator, [42, 49, 13, 10]] := by
    unfold Sendable
    decide
  have hall : ∀ c ∈ [([83], [terminator]), (([], []) : Bytes × List Bytes)], Sendable c.1 c.2 := by
    unfold Sendable
    decide
  obtain ⟨w, hout, hread⟩ := request_appendRequest.1 [83] [[], terminator, [42, 49, 13, 10]]
  obtain ⟨v, hall_out, hall_read⟩ := request_appendRequest.2 [([83], [terminator]), ([], [])]
  exact ⟨hsend, ⟨w, hout #[1], hread hsend .closed [36, 51]⟩, v, hall_out #[], hall_read hall⟩

end Wire

end RespClient
