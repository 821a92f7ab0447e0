/-
Double-precision numbers as their 64-bit words: sign bit, eleven exponent bits, fifty-two fraction bits. A finite word
stands for `significand * 2 ^ scale`, and every operation takes the exact ratio of its operands and rounds it once, to
the nearest word, a tie to the even significand (`nearest`).
-/

namespace RespClient

/-- A double-precision number. -/
structure Binary64 where
  bits : UInt64
  deriving DecidableEq, Inhabited

/-- The whole number nearest to `n / d`, a tie to the even one. -/
def roundHalfEven (n d : Nat) : Nat :=
  let q := n / d
  let r := n % d
  if 2 * r > d || (2 * r == d && q % 2 == 1) then q + 1 else q

namespace Binary64

/-! ## Reading a word -/

/-- The place of the sign bit, `2 ^ 63`. -/
def signUnit : Nat := 0x8000000000000000

/-- The place of the exponent bits, `2 ^ 52`; also the leading bit of a significand. -/
def fieldUnit : Nat := 0x10000000000000

def word (x : Binary64) : Nat := x.bits.toNat

def isNegative (x : Binary64) : Bool := x.word ≥ signUnit

/-- the eleven exponent bits -/
def field (x : Binary64) : Nat := x.word / fieldUnit % 2048

/-- the fifty-two fraction bits -/
def fraction (x : Binary64) : Nat := x.word % fieldUnit

def isFinite (x : Binary64) : Bool := x.field != 2047

def isNaN (x : Binary64) : Bool := x.field == 2047 && x.fraction != 0

/-- Either zero. -/
def isZero (x : Binary64) : Bool := x.field == 0 && x.fraction == 0

def significand (x : Binary64) : Nat := if x.field = 0 then x.fraction else fieldUnit + x.fraction

/-- the power of two that the significand counts -/
def scale (x : Binary64) : Int := (max x.field 1 : Nat) - (1075 : Int)

/-- The power `base ^ e` as a ratio. -/
def powerRatio (base : Nat) (e : Int) : Nat × Nat :=
  if e ≥ 0 then (Nat.pow base e.toNat, 1) else (1, Nat.pow base (-e).toNat)

/-- The magnitude of a finite word as a ratio. -/
def ratio (x : Binary64) : Nat × Nat :=
  let p := powerRatio 2 x.scale
  (x.significand * p.1, p.2)

/-! ## Rounding to a word -/

/-- A word with the sign bit set or not. -/
def signed (negative : Bool) (magnitude : Nat) : Binary64 :=
  ⟨(magnitude + if negative then signUnit else 0).toUInt64⟩

def infinity (negative : Bool) : Binary64 := signed negative (2047 * fieldUnit)

def nan : Binary64 := signed false (2047 * fieldUnit + fieldUnit / 2)

/-- The greatest `e` with `2 ^ e ≤ n / d`, for positive `n` and `d`. -/
def floorLog2 (n d : Nat) : Int :=
  let e : Int := (n.log2 : Int) - d.log2
  let p := powerRatio 2 e
  if n * p.2 < d * p.1 then e - 1 else e

/-- The word nearest to `n / d`. Magnitudes from half a unit above the greatest word become infinite. -/
def nearest (negative : Bool) (n d : Nat) : Binary64 :=
  if n = 0 then signed negative 0
  else
    let q := max (floorLog2 n d - 52) (-1074)
    let p := powerRatio 2 q
    let m := roundHalfEven (n * p.2) (d * p.1)
    let magnitude := (q + 1074).toNat * fieldUnit + m
    if magnitude ≥ 2047 * fieldUnit then infinity negative else signed negative magnitude

def ofNat (n : Nat) : Binary64 := nearest false n 1

def ofInt (i : Int) : Binary64 := nearest (i < 0) i.natAbs 1

/-- The sum of two finite words that are not negative. -/
def addMagnitudes (x y : Binary64) : Binary64 :=
  nearest false (x.ratio.1 * y.ratio.2 + y.ratio.1 * x.ratio.2) (x.ratio.2 * y.ratio.2)

/-- The product of the magnitudes of two finite words. -/
def mulMagnitudes (x y : Binary64) : Binary64 :=
  nearest false (x.ratio.1 * y.ratio.1) (x.ratio.2 * y.ratio.2)

/-- The quotient of the magnitudes of two finite words, the second one not zero. -/
def divMagnitudes (x y : Binary64) : Binary64 :=
  nearest false (x.ratio.1 * y.ratio.2) (x.ratio.2 * y.ratio.1)

def negate (x : Binary64) : Binary64 := ⟨x.bits ^^^ signUnit.toUInt64⟩

/-- The number is greater than zero. -/
def isPositive (x : Binary64) : Bool := !x.isNegative && !x.isZero && !x.isNaN

end Binary64

end RespClient
