/-
Readers of a stream. A reader takes the octets that have arrived and what comes after the last of them (`Ending`). It
gives a value, with fewer octets left than there were, or an error; both say what is left. Lines end with carriage
return and line feed; payloads have a declared length and the same two octets after it.
-/
import RespClient.Fault

namespace RespClient.Wire

/-- What a reader meets after the last octet: the end of the stream, or a failure of the transport. -/
inductive Ending where
  | closed
  | broken (fault : Fault)
  deriving DecidableEq

/-- A reader's answer: a value and fewer than `limit` octets left, or an error. -/
inductive Reading (limit : Nat) (α : Type) where
  | value (a : α) (rest : Bytes) (shorter : rest.length < limit)
  | failure (e : DecodeError) (rest : Bytes)

namespace Reading

variable {α : Type} {limit : Nat}

def result : Reading limit α → Except DecodeError α
  | .value a _ _ => .ok a
  | .failure e _ => .error e

/-- The octets not yet consumed. -/
def rest : Reading limit α → Bytes
  | .value _ rest _ => rest
  | .failure _ rest => rest

/-- The answer and the octets left. -/
def toPair (r : Reading limit α) : Except DecodeError α × Bytes := (r.result, r.rest)

end Reading

def lineFeed : UInt8 := 10
def carriageReturn : UInt8 := 13

/-- The end of a line and of a payload. -/
def terminator : Bytes := [carriageReturn, lineFeed]

/-- The error of a stream that ends inside a line. -/
def Ending.inLine : Ending → DecodeError
  | .closed => .connectionClosed
  | .broken fault => .transport fault

/-- The error of a stream that ends inside a payload. -/
def Ending.inPayload : Ending → DecodeError
  | .closed => .transport .endOfFile
  | .broken fault => .transport fault

theorem length_of_cutFirst? {α : Type} [BEq α] {x : α} {l before after : List α}
    (h : cutFirst? x l = some (before, after)) : after.length < l.length := by
  unfold cutFirst? at h
  split at h
  · contradiction
  · rename_i hd tl heq
    have hle := (List.dropWhile_sublist (p := (· != x)) (l := l)).length_le
    rw [heq] at hle
    simp only [Option.some.injEq, Prod.mk.injEq] at h
    obtain ⟨_, rfl⟩ := h
    exact hle

/-- To read nothing leaves all. -/
theorem length_lt (s : Bytes) : s.length < s.length + 1 := Nat.lt_succ_self _

/-- Two readers in a row leave less than there was. -/
theorem shorter_trans {s mid rest : Bytes} (h : mid.length < s.length) (h' : rest.length < mid.length) :
    rest.length < s.length :=
  Nat.lt_trans h' h

/-- So they do when the second one may leave all. -/
theorem shorter_of_le {s mid rest : Bytes} (h : mid.length < s.length) (h' : rest.length < mid.length + 1) :
    rest.length < s.length :=
  Nat.lt_of_le_of_lt (Nat.le_of_lt_succ h') h

theorem le_of_le {s mid rest : Bytes} (h : mid.length < s.length) (h' : rest.length < mid.length + 1) :
    rest.length < s.length + 1 :=
  Nat.lt_succ_of_lt (shorter_of_le h h')

/-- A line, without its end. -/
def line (ending : Ending) (s : Bytes) : Reading s.length Bytes :=
  match h : cutFirst? lineFeed s with
  | none => .failure ending.inLine []
  | some (body, rest) =>
    if body.getLast? = some carriageReturn then .value body.dropLast rest (length_of_cutFirst? h)
    else .failure .missingTerminator rest

/-- The payload of `n` octets and its end. -/
def payload (ending : Ending) (n : Nat) (s : Bytes) : Reading s.length Bytes :=
  let block := s.take (n + 2)
  if h : block.length = n + 2 then
    if block.drop n = terminator then
      .value (block.take n) (s.drop (n + 2)) (by simp [block] at h ⊢; omega)
    else .failure .missingTerminator (s.drop (n + 2))
  else .failure ending.inPayload []

/-- All that a reader gives, one value after the other, and the error that ends it. -/
def readAll {α : Type} (read : (s : Bytes) → Reading s.length α) (s : Bytes) : List α × DecodeError :=
  match read s with
  | .failure e _ => ([], e)
  | .value a rest _ =>
    let (more, e) := readAll read rest
    (a :: more, e)
  termination_by s.length

end RespClient.Wire
