/-
Request frames: an array of payloads, the command's id first and its arguments after it. `encode` is the frame in its
shortest form, and `appendRequest` writes it after what a buffer holds already; `request` reads any form of it and gives
the id and the arguments back.
-/
import RespClient.Wire.Header
import RespClient.Wire.Reading

namespace RespClient.Wire

/-! ## Writing -/

/-- A mark, a number and the end of the line. -/
def header (mark : UInt8) (n : Nat) : Bytes := mark :: Bytes.decimal n ++ terminator

/-- A payload with its length before it. -/
def encodeBulk (data : Bytes) : Bytes := header payloadMark data.length ++ data ++ terminator

/-- The request frame of a command. -/
def encode (id : Bytes) (args : List Bytes) : Bytes :=
  header arrayMark (args.length + 1) ++ encodeBulk id ++ args.flatMap encodeBulk

/-- Puts the digits of a number into a buffer as they come off it, the last one first. -/
def putDigits (buffer : Array UInt8) (n : Nat) : Array UInt8 :=
  if n = 0 then buffer else putDigits (buffer.push (48 + (n % 10).toUInt8)) (n / 10)

/-- Writes a number. Its digits stand in a small buffer the wrong way round and are taken from its end. -/
def appendNumber (out : Array UInt8) (n : Nat) : Array UInt8 :=
  let digits := if n = 0 then #[48] else putDigits #[] n
  digits.foldr (fun digit out => out.push digit) out

/-- Writes a mark, a number and the end of the line into a buffer. -/
def appendHeader (out : Array UInt8) (mark : UInt8) (n : Nat) : Array UInt8 :=
  appendNumber (out.push mark) n ++ terminator

/-- Writes a payload with its length before it. -/
def appendBulk (out : Array UInt8) (data : Bytes) : Array UInt8 :=
  appendHeader out payloadMark data.length ++ data ++ terminator

/-- Writes the request frame of a command. -/
def appendRequest (out : Array UInt8) (id : Bytes) (args : List Bytes) : Array UInt8 :=
  args.foldl appendBulk (appendBulk (appendHeader out arrayMark (args.length + 1)) id)

/-! ## Reading -/

/-- A payload with its length before it; anything else is no part of a request. -/
def readPart (ending : Ending) (s : Bytes) : Reading s.length Bytes :=
  match line ending s with
  | .failure e rest => .failure e rest
  | .value body rest h =>
    if body.head? = some payloadMark then
      match Header.ofLine body with
      | .error e => .failure e rest
      | .ok (.payload n) =>
        match payload ending n rest with
        | .failure e rest => .failure e rest
        | .value data rest h' => .value data rest (shorter_trans h h')
      | .ok _ => .failure .invalidRequest rest
    else .failure .invalidRequest rest

/-- So many payloads, one after the other. -/
def readParts (ending : Ending) : (count : Nat) → (s : Bytes) → Reading (s.length + 1) (List Bytes)
  | 0, s => .value [] s (length_lt s)
  | count + 1, s =>
    match readPart ending s with
    | .failure e rest => .failure e rest
    | .value part rest h =>
      match readParts ending count rest with
      | .failure e rest => .failure e rest
      | .value parts rest h' => .value (part :: parts) rest (le_of_le h h')

/-- The number of parts that the first line of a request declares: one at least. -/
def partCount (body : Bytes) : Except DecodeError Nat :=
  match body with
  | [] => .error .invalidRequest
  | mark :: digits =>
    if mark = arrayMark then
      (integer digits).bind fun n => if n < 1 then .error .invalidRequest else .ok n.toNat
    else .error .invalidRequest

/-- One request: its id and its arguments. -/
def readRequest (ending : Ending) (s : Bytes) : Reading s.length (Bytes × List Bytes) :=
  match line ending s with
  | .failure e rest => .failure e rest
  | .value body rest h =>
    match partCount body with
    | .error e => .failure e rest
    | .ok n =>
      match readParts ending n rest with
      | .failure e rest => .failure e rest
      | .value [] rest _ => .failure .invalidRequest rest
      | .value (id :: args) rest h' => .value (id, args) rest (shorter_of_le h h')

/-- The request at the head of a stream, or why there is none, and the octets left. -/
def request (ending : Ending) (s : Bytes) : Except DecodeError (Bytes × List Bytes) × Bytes :=
  (readRequest ending s).toPair

end RespClient.Wire
