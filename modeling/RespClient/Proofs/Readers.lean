/-
The readers of the wire as functions from a stream to an answer and what is left of it, put together from a line, a payload
and what the line announces. Claims about a reader then follow from what holds of one reader after another.

- `Reader.andThen`: two readers in a row; `andThen_eq_ok_iff` says when they give a value.
- `reply_eq`, `items_succ`, `part_eq`, `parts_succ`, `request_eq`: the readers of frames in these terms.
-/
import RespClient.Proofs.ReplyGrammar
import RespClient.Wire.Requests

namespace RespClient.Wire

/-- What is made of a stream, and the octets left of it. -/
abbrev Reader (α : Type) := Ending → Bytes → Except DecodeError α × Bytes

namespace Reader

variable {α β : Type}

/-- A reader, without what it says of how much it leaves. -/
def of {limit : Bytes → Nat} (read : Ending → (s : Bytes) → Reading (limit s) α) : Reader α :=
  fun ending s => (read ending s).toPair

/-- Reads nothing. -/
def give (res : Except DecodeError α) : Reader α := fun _ s => (res, s)

/-- Two readers in a row, the second one after a success of the first one. -/
def andThen (f : Reader α) (g : α → Reader β) : Reader β := fun ending s =>
  match f ending s with
  | (.ok a, rest) => g a ending rest
  | (.error e, rest) => (.error e, rest)

variable {f : Reader α} {g : α → Reader β} {ending : Ending} {s rest : Bytes}

theorem andThen_of_ok {a : α} (h : f ending s = (.ok a, rest)) : f.andThen g ending s = g a ending rest := by
  simp only [andThen, h]

theorem andThen_of_error {e : DecodeError} (h : f ending s = (.error e, rest)) :
    f.andThen g ending s = (.error e, rest) := by
  simp only [andThen, h]

/-- A value comes from the second reader, on what the first one left. -/
theorem andThen_eq_ok_iff {b : β} : f.andThen g ending s = (.ok b, rest) ↔
    ∃ a mid, f ending s = (.ok a, mid) ∧ g a ending mid = (.ok b, rest) := by
  constructor
  · intro h
    rcases hf : f ending s with ⟨e | a, mid⟩
    · rw [andThen_of_error hf] at h
      cases h
    · rw [andThen_of_ok hf] at h
      exact ⟨a, mid, rfl, h⟩
  · rintro ⟨a, mid, hf, hg⟩
    rw [andThen_of_ok hf]
    exact hg

end Reader

open Reader (of give)

/-! ## Replies -/

/-- What comes after the first line of a reply. -/
def replyAfter (body : Bytes) : Reader Reply :=
  match Header.ofLine body with
  | .error e => give (.error e)
  | .ok (.whole r) => give (.ok r)
  | .ok (.payload n) => (of fun ending => payload ending n).andThen fun data => give (.ok (.bulk data))
  | .ok (.items n) => (of fun ending => readItems ending n).andThen fun rs => give (.ok (.array rs))

theorem reply_eq : reply = (of line).andThen replyAfter := by
  funext ending s
  unfold reply readReply Reader.andThen of
  cases line ending s with
  | failure e rest => rfl
  | value body rest h =>
    simp only [Reading.toPair_value, replyAfter]
    cases Header.ofLine body with
    | error e => rfl
    | ok head =>
      cases head with
      | whole r => rfl
      | payload n =>
        simp only [Reader.andThen, of]
        cases payload ending n rest <;> rfl
      | items n =>
        simp only [Reader.andThen, of]
        cases readItems ending n rest <;> rfl

theorem items_succ (count : Nat) : (of fun ending => readItems ending (count + 1)) =
    Reader.andThen reply fun r => (of fun ending => readItems ending count).andThen fun rs => give (.ok (r :: rs)) := by
  funext ending s
  show (readItems ending (count + 1) s).toPair = _
  rw [readItems]
  simp only [Reader.andThen, reply, of]
  cases readReply ending s with
  | failure e rest => rfl
  | value r rest h =>
    simp only [Reading.toPair_value]
    cases readItems ending count rest <;> rfl

/-! ## Requests -/

/-- What comes after the first line of a part. -/
def partAfter (body : Bytes) : Reader Bytes :=
  if body.head? = some payloadMark then
    match Header.ofLine body with
    | .error e => give (.error e)
    | .ok (.payload n) => of fun ending => payload ending n
    | .ok _ => give (.error .invalidRequest)
  else give (.error .invalidRequest)

theorem part_eq : of readPart = (of line).andThen partAfter := by
  funext ending s
  show (readPart ending s).toPair = _
  unfold readPart Reader.andThen of
  cases line ending s with
  | failure e rest => rfl
  | value body rest h =>
    simp only [Reading.toPair_value, partAfter]
    split_ifs
    · cases Header.ofLine body with
      | error e => rfl
      | ok head =>
        cases head with
        | payload n =>
          simp only [of]
          cases payload ending n rest <;> rfl
        | _ => rfl
    · rfl

theorem parts_succ (count : Nat) : (of fun ending => readParts ending (count + 1)) =
    (of readPart).andThen fun part => (of fun ending => readParts ending count).andThen fun parts =>
      give (.ok (part :: parts)) := by
  funext ending s
  show (readParts ending (count + 1) s).toPair = _
  rw [readParts]
  simp only [Reader.andThen, of]
  cases readPart ending s with
  | failure e rest => rfl
  | value part rest h =>
    simp only [Reading.toPair_value]
    cases readParts ending count rest <;> rfl

/-- The id and the arguments are the parts of a request, of which there is one at least. -/
def requestOf : List Bytes → Except DecodeError (Bytes × List Bytes)
  | [] => .error .invalidRequest
  | id :: args => .ok (id, args)

/-- What comes after the first line of a request. -/
def requestAfter (body : Bytes) : Reader (Bytes × List Bytes) :=
  match partCount body with
  | .error e => give (.error e)
  | .ok n => (of fun ending => readParts ending n).andThen fun parts => give (requestOf parts)

theorem request_eq : request = (of line).andThen requestAfter := by
  funext ending s
  unfold request readRequest Reader.andThen of
  cases line ending s with
  | failure e rest => rfl
  | value body rest h =>
    simp only [Reading.toPair_value, requestAfter]
    cases partCount body with
    | error e => rfl
    | ok n =>
      simp only [Reader.andThen, of]
      cases readParts ending n rest with
      | failure e rest => rfl
      | value parts rest h => cases parts <;> rfl

end RespClient.Wire
