/-
The 32-bit cyclic redundancy check with the reflected polynomial `EDB88320`, register and result complemented.
-/
import RespClient.Bytes

namespace RespClient.Crc32

/-- One bit of the register: shift right, and fold the polynomial in when a one falls out. -/
def shift (r : UInt32) : UInt32 :=
  if r &&& 1 == 0 then r >>> 1 else (r >>> 1) ^^^ 0xEDB88320

/-- One octet: its eight bits enter from the low end. -/
def step (r : UInt32) (b : UInt8) : UInt32 :=
  let r := r ^^^ b.toUInt32
  shift (shift (shift (shift (shift (shift (shift (shift r)))))))

/-- The check value of an octet string. -/
def checksum (s : Bytes) : UInt32 := s.foldl step 0xFFFFFFFF ^^^ 0xFFFFFFFF

end RespClient.Crc32
