/-
What the first line of a frame says. Its first octet tells the form: `+` a status, `-` an error, `:` an integer, `$` a
payload of the length given, `*` an array of the number of items given. A length of `-1` is nil; other lengths below zero
and payloads above the greatest length are refused.
-/
import RespClient.Fault
import RespClient.Numeral
import RespClient.Utf8

namespace RespClient.Wire

/-- What a line announces: a whole reply, a payload or items. -/
inductive Header where
  | whole (reply : Reply)
  | payload (length : Nat)
  | items (count : Nat)

/-- The greatest payload length accepted. -/
def maxPayload : Nat := 512 * 1024 * 1024

/-- The marks of the five forms. -/
def statusMark : UInt8 := 43
def errorMark : UInt8 := 45
def integerMark : UInt8 := 58
def payloadMark : UInt8 := 36
def arrayMark : UInt8 := 42

def integer (s : Bytes) : Except DecodeError Int :=
  match Numeral.integer? s with
  | some n => .ok n
  | none => .error .invalidInteger

namespace Header

def ofPayloadLength (n : Int) : Except DecodeError Header :=
  if n = -1 then .ok (.whole .nil)
  else if n < 0 || n > maxPayload then .error (.invalidLength n)
  else .ok (.payload n.toNat)

def ofCount (n : Int) : Except DecodeError Header :=
  if n = -1 then .ok (.whole .nil)
  else if n < 0 then .error (.invalidLength n)
  else .ok (.items n.toNat)

/-- The announcement of a line. -/
def ofLine : Bytes → Except DecodeError Header
  | [] => .error .missingTerminator
  | mark :: body =>
    if mark = statusMark then .ok (.whole (.status (Utf8.decodeLossy body)))
    else if mark = errorMark then .ok (.whole (.error ⟨Utf8.decodeLossy body⟩))
    else if mark = integerMark then (integer body).map fun n => .whole (.integer n)
    else if mark = payloadMark then (integer body).bind ofPayloadLength
    else if mark = arrayMark then (integer body).bind ofCount
    else .error (.unknownPrefix mark)

end Header

end RespClient.Wire
