/-
Lengths of time in whole nanoseconds. Seconds given as a double are rounded to the nearest nanosecond, a tie to the even
one, and refused from `2 ^ 64` seconds on; seconds taken back as a double are the whole seconds and the rest, each
rounded, added with one more rounding.
-/
import RespClient.Binary64

namespace RespClient

/-- A length of time. -/
structure Timespan where
  nanoseconds : Nat
  deriving DecidableEq, Inhabited

namespace Timespan

def perSecond : Nat := 1000000000

def ofSeconds (n : Nat) : Timespan := ⟨n * perSecond⟩

def wholeSeconds (t : Timespan) : Nat := t.nanoseconds / perSecond

/-- nanoseconds beyond the whole seconds -/
def remainder (t : Timespan) : Nat := t.nanoseconds % perSecond

/-- The span of so many seconds, for a finite number that is not negative. -/
def ofBinary64? (x : Binary64) : Option Timespan :=
  let (n, d) := x.ratio
  if n ≥ UInt64.size * d then none else some ⟨roundHalfEven (n * perSecond) d⟩

def toBinary64 (t : Timespan) : Binary64 :=
  (Binary64.ofNat t.wholeSeconds).addMagnitudes
    ((Binary64.ofNat t.remainder).divMagnitudes (Binary64.ofNat perSecond))

end Timespan

end RespClient
