/-
Reading UTF-8, one octet at a time. The reader keeps the character under way: how many octets it still needs and the
range the next one must lie in. An octet outside that range ends the character as a defect and is then read afresh, so
every defect is a longest run that could still have become a character.

- `decodeLossy` writes one replacement character for each defect.
- `decode?` accepts texts without defects only.
-/
import RespClient.Bytes

namespace RespClient.Utf8

/-- a character under way: octets needed after the next one, range of the next one, bits so far -/
structure Pending where
  more : Nat
  low : UInt8
  high : UInt8
  code : Nat

/-- units read so far, newest first (`none` is a defect), and the character under way -/
structure State where
  units : List (Option Char)
  pending : Option Pending

/-- An octet that stands first. -/
def start (units : List (Option Char)) (b : UInt8) : State :=
  if b < 0x80 then ⟨some (Char.ofNat b.toNat) :: units, none⟩
  else if 0xC2 ≤ b && b ≤ 0xDF then ⟨units, some ⟨0, 0x80, 0xBF, b.toNat % 32⟩⟩
  else if b == 0xE0 then ⟨units, some ⟨1, 0xA0, 0xBF, 0⟩⟩
  else if b == 0xED then ⟨units, some ⟨1, 0x80, 0x9F, 13⟩⟩
  else if 0xE1 ≤ b && b ≤ 0xEF then ⟨units, some ⟨1, 0x80, 0xBF, b.toNat % 16⟩⟩
  else if b == 0xF0 then ⟨units, some ⟨2, 0x90, 0xBF, 0⟩⟩
  else if 0xF1 ≤ b && b ≤ 0xF3 then ⟨units, some ⟨2, 0x80, 0xBF, b.toNat % 8⟩⟩
  else if b == 0xF4 then ⟨units, some ⟨2, 0x80, 0x8F, 4⟩⟩
  else ⟨none :: units, none⟩

/-- One more octet. -/
def step (st : State) (b : UInt8) : State :=
  match st.pending with
  | none => start st.units b
  | some p =>
    if p.low ≤ b && b ≤ p.high then
      let code := 64 * p.code + b.toNat % 64
      match p.more with
      | 0 => ⟨some (Char.ofNat code) :: st.units, none⟩
      | more + 1 => ⟨st.units, some ⟨more, 0x80, 0xBF, code⟩⟩
    else start (none :: st.units) b

/-- The characters and defects of an octet string, in order. -/
def units (s : Bytes) : List (Option Char) :=
  let st := s.foldl step ⟨[], none⟩
  match st.pending with
  | none => st.units.reverse
  | some _ => (none :: st.units).reverse

/-- The text with a replacement character for each defect. -/
def decodeLossy (s : Bytes) : String := String.ofList ((units s).map (·.getD '\uFFFD'))

/-- The text, if it has no defect. -/
def decode? (s : Bytes) : Option String := ((units s).mapM id).map String.ofList

end RespClient.Utf8
