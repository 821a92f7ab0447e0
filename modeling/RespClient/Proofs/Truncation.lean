/-
Truncation shows at the end of a stream only. A reader either comes to an answer by the octets it consumes, whatever
follows them, or it consumes all there is and the stream's end is the error. So a frame cut off anywhere, inside whatever
element, is never read as something else and never refused as malformed.

- `Ends`: the two ways in which one run of a reader ends. `Ends.andThen` puts runs together; the readers of lines and
  payloads are the base.
- `ends_reply`, `ends_request`: by the readers' own recursion.
- `Dependable`: what this says of answers and octets consumed. `Dependable.cut`: so no part of a whole frame is read.
- `truncation_law`: for replies and for requests.
-/
import RespClient.Proofs.RequestGrammar

namespace RespClient

/-- The transport failed or ended; no octets were refused. -/
def DecodeError.isTransport : DecodeError → Bool
  | .transport _ | .connectionClosed => true
  | _ => false

namespace Wire

/-- The error of a transport, as an answer. -/
def isTransport {α : Type} : Except DecodeError α → Bool
  | .error e => e.isTransport
  | .ok _ => false

/-- All was consumed, and the stream's end is the error. -/
def Starved {α : Type} (ending : Ending) (answer : Except DecodeError α × Bytes) : Prop :=
  answer = (.error ending.inLine, []) ∨ answer = (.error ending.inPayload, [])

theorem Ending.isTransport_inLine (ending : Ending) : ending.inLine.isTransport := by
  cases ending <;> rfl

theorem Ending.isTransport_inPayload (ending : Ending) : ending.inPayload.isTransport := by
  cases ending <;> rfl

theorem Starved.isTransport {α : Type} {ending : Ending} {answer : Except DecodeError α × Bytes}
    (h : Starved ending answer) : Wire.isTransport answer.1 := by
  rcases h with rfl | rfl
  · exact ending.isTransport_inLine
  · exact ending.isTransport_inPayload

namespace Reader

variable {α β : Type}

/-! ## One run of a reader -/

/-- How a reader ends on a stream: with an answer that the octets consumed settle, or starved. -/
inductive Ends (f : Reader α) (ending : Ending) (s : Bytes) : Prop where
  | settled (w rest : Bytes) (res : Except DecodeError α) (split : s = w ++ rest) (answered : isTransport res = false)
      (stable : ∀ (ending' : Ending) (t : Bytes), f ending' (w ++ t) = (res, t)) : Ends f ending s
  | starved (h : Starved ending (f ending s)) : Ends f ending s

variable {f : Reader α} {ending : Ending} {s : Bytes}

theorem ends_give {res : Except DecodeError α} (h : isTransport res = false) : Ends (give res) ending s :=
  .settled [] s res rfl h fun _ _ => rfl

theorem starved_andThen {g : α → Reader β} (h : Starved ending (f ending s)) :
    Starved ending (f.andThen g ending s) := by
  rcases h with h | h
  · exact .inl (andThen_of_error h)
  · exact .inr (andThen_of_error h)

/-- Two readers in a row end as the second one does, or as the first one does without a value. -/
theorem Ends.andThen {g : α → Reader β} (hf : Ends f ending s)
    (hg : ∀ a rest, f ending s = (.ok a, rest) → Ends (g a) ending rest) : Ends (f.andThen g) ending s := by
  cases hf with
  | starved h => exact .starved (starved_andThen h)
  | settled w rest res split answered stable =>
    subst split
    cases res with
    | error e => exact .settled w rest (.error e) rfl answered fun ending' t => andThen_of_error (stable ending' t)
    | ok a =>
      have hthen : ∀ ending' t, f.andThen g ending' (w ++ t) = g a ending' t :=
        fun ending' t => andThen_of_ok (stable ending' t)
      cases hg a rest (stable ending rest) with
      | starved h => exact .starved (by rw [hthen]; exact h)
      | settled v rest' res' split' answered' stable' =>
        refine .settled (w ++ v) rest' res' (by rw [split', List.append_assoc]) answered' fun ending' t => ?_
        rw [List.append_assoc, hthen, stable']

/-! ## Lines and payloads -/

theorem ends_line : Ends (of line) ending s := by
  cases hcut : cutFirst? lineFeed s with
  | none =>
    refine .starved (.inl ?_)
    unfold of line
    split
    · rfl
    · rename_i hsome
      rw [hcut] at hsome
      contradiction
  | some pair =>
    obtain ⟨full, rest⟩ := pair
    obtain ⟨rfl, hlf⟩ := cutFirst?_eq_some_iff.1 hcut
    refine .settled (full ++ [lineFeed]) rest
      (if full.getLast? = some carriageReturn then .ok full.dropLast else .error .missingTerminator)
      (by simp) (by split_ifs <;> rfl) fun ending' t => ?_
    have hcut' : cutFirst? lineFeed (full ++ [lineFeed] ++ t) = some (full, t) :=
      cutFirst?_eq_some_iff.2 ⟨by simp, hlf⟩
    unfold of line
    split
    · rename_i hnone
      rw [hcut'] at hnone
      contradiction
    · rename_i body rest' hsome
      rw [hcut', Option.some.injEq, Prod.mk.injEq] at hsome
      obtain ⟨rfl, rfl⟩ := hsome
      split_ifs <;> rfl

theorem ends_payload (n : Nat) : Ends (of fun ending => payload ending n) ending s := by
  by_cases hlen : n + 2 ≤ s.length
  · have hblock : (s.take (n + 2)).length = n + 2 := List.length_take_of_le hlen
    refine .settled (s.take (n + 2)) (s.drop (n + 2))
      (if (s.take (n + 2)).drop n = terminator then .ok ((s.take (n + 2)).take n) else .error .missingTerminator)
      (List.take_append_drop _ _).symm (by split_ifs <;> rfl) fun ending' t => ?_
    have htake : (s.take (n + 2) ++ t).take (n + 2) = s.take (n + 2) := List.take_left' hblock
    have hdrop : (s.take (n + 2) ++ t).drop (n + 2) = t := List.drop_left' hblock
    simp only [of, payload, htake, hdrop, dif_pos hblock]
    split_ifs <;> rfl
  · have hblock : ¬ (s.take (n + 2)).length = n + 2 := by
      rw [List.length_take]
      omega
    refine .starved (.inr ?_)
    simp only [of, payload, dif_neg hblock, Reading.toPair_failure]

end Reader

/-! ## Replies and requests -/

open Reader (of give Ends ends_give ends_line ends_payload)

/-- No octets of a line are refused with the error of a transport. -/
theorem isTransport_integer (s : Bytes) : isTransport (integer s) = false := by
  unfold integer
  cases Numeral.integer? s <;> rfl

theorem isTransport_bind {α β : Type} {x : Except DecodeError α} {f : α → Except DecodeError β}
    (hx : isTransport x = false) (hf : ∀ a, isTransport (f a) = false) : isTransport (x.bind f) = false := by
  cases x with
  | error e => exact hx
  | ok a => exact hf a

theorem isTransport_ofLine (body : Bytes) : isTransport (Header.ofLine body) = false := by
  cases body with
  | nil => rfl
  | cons mark text =>
    simp only [Header.ofLine]
    split_ifs
    · rfl
    · rfl
    · have h := isTransport_integer text
      cases hn : integer text with
      | error e => rwa [hn] at h
      | ok n => rfl
    · refine isTransport_bind (isTransport_integer text) fun n => ?_
      unfold Header.ofPayloadLength
      split_ifs <;> rfl
    · refine isTransport_bind (isTransport_integer text) fun n => ?_
      unfold Header.ofCount
      split_ifs <;> rfl
    · rfl

theorem isTransport_partCount (body : Bytes) : isTransport (partCount body) = false := by
  cases body with
  | nil => rfl
  | cons mark text =>
    simp only [partCount]
    split_ifs
    · refine isTransport_bind (isTransport_integer text) fun n => ?_
      split_ifs <;> rfl
    · rfl

section

variable {α : Type} {limit : Bytes → Nat} {read : Ending → (s : Bytes) → Reading (limit s) α}
  {ending : Ending} {s rest : Bytes} {a : α}

theorem Reader.length_lt_of_ok (h : of read ending s = (.ok a, rest)) : rest.length < limit s := by
  obtain ⟨hs, -⟩ := Reading.eq_value_of_toPair h
  exact hs

end

mutual

/-- A reply settles or starves. -/
theorem ends_reply (ending : Ending) (s : Bytes) : Ends reply ending s := by
  rw [reply_eq]
  refine ends_line.andThen fun body rest hline => ?_
  have hrest := Reader.length_lt_of_ok hline
  unfold replyAfter
  have hbody := isTransport_ofLine body
  split
  · rename_i e he
    rw [he] at hbody
    exact ends_give hbody
  · exact ends_give rfl
  · exact (ends_payload _).andThen fun _ _ _ => ends_give rfl
  · exact (ends_items ending _ rest).andThen fun _ _ _ => ends_give rfl
  termination_by (s.length, 0)

/-- So do replies one after the other. -/
theorem ends_items (ending : Ending) (count : Nat) (s : Bytes) :
    Ends (of fun ending => readItems ending count) ending s := by
  cases count with
  | zero =>
    refine .settled [] s (.ok []) rfl rfl fun ending' t => ?_
    simp [of, readItems]
  | succ count =>
    rw [items_succ]
    refine (ends_reply ending s).andThen fun r rest hr => ?_
    have hrest : rest.length < s.length := Reader.length_lt_of_ok hr
    exact (ends_items ending count rest).andThen fun _ _ _ => ends_give rfl
  termination_by (s.length, 1)

end

theorem ends_part {ending : Ending} {s : Bytes} : Ends (of readPart) ending s := by
  rw [part_eq]
  refine ends_line.andThen fun body rest _ => ?_
  unfold partAfter
  have hbody := isTransport_ofLine body
  split_ifs
  · split
    · rename_i e he
      rw [he] at hbody
      exact ends_give hbody
    · exact ends_payload _
    · exact ends_give rfl
  · exact ends_give rfl

theorem ends_parts {ending : Ending} {count : Nat} {s : Bytes} :
    Ends (of fun ending => readParts ending count) ending s := by
  induction count generalizing s with
  | zero => exact .settled [] s (.ok []) rfl rfl fun _ _ => rfl
  | succ count ih =>
    rw [parts_succ]
    exact ends_part.andThen fun _ _ _ => ih.andThen fun _ _ _ => ends_give rfl

/-- A request settles or starves. -/
theorem ends_request (ending : Ending) (s : Bytes) : Ends request ending s := by
  rw [request_eq]
  refine ends_line.andThen fun body rest _ => ?_
  unfold requestAfter
  have hcount := isTransport_partCount body
  split
  · rename_i e he
    rw [he] at hcount
    exact ends_give hcount
  · refine ends_parts.andThen fun parts _ _ => ends_give ?_
    cases parts <;> rfl

/-! ## Dependable readers -/

/-- A reader leaves an end of its stream. An answer that is no failure of the transport depends on the octets consumed
only; with a failure of the transport all was consumed, and it is the one that the stream's end gives. -/
structure Reader.Dependable {α : Type} (f : Reader α) : Prop where
  consumes : ∀ (ending : Ending) (s : Bytes), ∃ n, n ≤ s.length ∧ (f ending s).2 = s.drop n
  stable : ∀ (ending : Ending) (s : Bytes) (res : Except DecodeError α) (n : Nat),
    n ≤ s.length → f ending s = (res, s.drop n) → isTransport res = false →
    ∀ (ending' : Ending) (t : Bytes), s.take n <+: t → f ending' t = (res, t.drop n)
  starves : ∀ (ending : Ending) (s : Bytes), isTransport (f ending s).1 → Starved ending (f ending s)

namespace Reader

variable {α : Type} {f : Reader α}

theorem dependable_of_ends (h : ∀ ending s, Ends f ending s) : Dependable f where
  consumes ending s := by
    cases h ending s with
    | settled w rest res split _ stable =>
      subst split
      exact ⟨w.length, by simp, by rw [stable, List.drop_left]⟩
    | starved hs => exact ⟨s.length, le_refl _, by rcases hs with hs | hs <;> rw [hs, List.drop_length]⟩
  stable ending s res n hn hres hok ending' t ht := by
    obtain ⟨u, rfl⟩ := ht
    cases h ending s with
    | starved hs =>
      have htransport := hs.isTransport
      rw [hres, hok] at htransport
      contradiction
    | settled w rest res' split _ stable =>
      subst split
      rw [stable, Prod.mk.injEq] at hres
      obtain ⟨rfl, hrest⟩ := hres
      have hlen : n = w.length := by
        have := congrArg List.length hrest
        simp only [List.length_drop, List.length_append] at this hn
        omega
      subst hlen
      rw [List.take_left, stable, List.drop_left]
  starves ending s htransport := by
    cases h ending s with
    | starved hs => exact hs
    | settled w rest res split answered stable =>
      subst split
      rw [stable, answered] at htransport
      contradiction

/-- What a reader consumes as a whole is not read when it is cut off. -/
theorem Dependable.cut (h : Dependable f) {ending : Ending} {w : Bytes} {a : α} (hw : f ending w = (.ok a, []))
    {p : Bytes} (hp : p <+: w) (hne : p ≠ w) (ending' : Ending) : Starved ending' (f ending' p) := by
  obtain ⟨n, hn, hrest⟩ := h.consumes ending' p
  refine h.starves ending' p ?_
  -- otherwise the answer would stand for the whole frame as well, with octets left
  by_contra hok
  rw [Bool.not_eq_true] at hok
  have hfull := h.stable ending' p _ n hn (Prod.ext rfl hrest) hok ending w ((List.take_prefix n p).trans hp)
  rw [hw, Prod.mk.injEq] at hfull
  have hlen : w.length ≤ n := List.drop_eq_nil_iff.1 hfull.2.symm
  exact hne (hp.eq_of_length_le (by omega))

end Reader

theorem dependable_reply : Reader.Dependable reply := Reader.dependable_of_ends ends_reply

theorem dependable_request : Reader.Dependable request := Reader.dependable_of_ends ends_request

/-- **Truncation is a failure of the transport, and answers stand under extension.** Both readers are dependable; a proper
part of a frame, from its start, starves its reader; and the errors that say so are those a client reports as errors
of communication. -/
theorem truncation_law :
    Reader.Dependable reply ∧ Reader.Dependable request ∧
    (∀ (w : Bytes) (r : Reply), Frame w r → ∀ p, p <+: w → p ≠ w →
      ∀ ending : Ending, Starved ending (reply ending p)) ∧
    (∀ (w id : Bytes) (args : List Bytes), RequestFrame w id args → ∀ p, p <+: w → p ≠ w →
      ∀ ending : Ending, Starved ending (request ending p)) ∧
    ∀ (connection : String) (e : DecodeError),
      e.isTransport ↔ ∃ cause, ClientError.ofDecode connection e = .communication connection cause := by
  refine ⟨dependable_reply, dependable_request, ?_, ?_, ?_⟩
  · intro w r hframe p hp hne ending
    have hread : reply .closed (w ++ []) = (.ok r, []) := readReply_of_frame hframe []
    rw [List.append_nil] at hread
    exact dependable_reply.cut hread hp hne ending
  · intro w id args hframe p hp hne ending
    have hread : request .closed w = (.ok (id, args), []) :=
      request_eq_ok_iff.2 ⟨w, (List.append_nil w).symm, hframe⟩
    exact dependable_request.cut hread hp hne ending
  · intro connection e
    cases e <;> simp [DecodeError.isTransport, ClientError.ofDecode]

/-- Cut inside the end of its inner payload, the frame starves the reader; a line that is refused stays so when the
stream goes on. -/
theorem truncation_law_nestedFrame :
    Starved .closed (reply .closed (nestedFrame.take 11)) ∧
    reply (.broken .timedOut) ([58, 120, 13, 10] ++ nestedFrame) = (.error .invalidInteger, nestedFrame) := by
  obtain ⟨hreply, -, hcut, -⟩ := truncation_law
  refine ⟨hcut nestedFrame _ frame_nestedFrame _ (List.take_prefix 11 _) (by decide) .closed, ?_⟩
  have hread : reply .closed [58, 120, 13, 10] = (.error .invalidInteger, []) := by
    rw [reply, readReply]
    rfl
  exact hreply.stable .closed [58, 120, 13, 10] _ 4 (by decide) hread rfl (.broken .timedOut) _ ⟨nestedFrame, rfl⟩

end Wire

end RespClient
