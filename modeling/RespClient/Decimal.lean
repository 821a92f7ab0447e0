/-
Doubles in decimal.

- Writing (`Binary64.toText`): the coarsest power of ten with a multiple that still reads back as the number, and of
  those multiples the one nearest to it, a tie upward; written positionally, never with an exponent.
- Reading (`Binary64.ofText?`): an optional sign and either a word for infinity or no number, or digits with an optional
  point and an optional exponent; rounded once. Exponents of five digits and more are cut short (`exponentSize`), which
  shows only where as many zeros stand before or after the point.
-/
import RespClient.Binary64
import RespClient.Bytes

namespace RespClient.Binary64

/-! ## Writing -/

/-- The reals that read back as a positive finite word: from `low` to `high` times `2 ^ exponent`, in quarters of the
word's unit, the ends included or not. -/
structure Basin where
  low : Nat
  middle : Nat
  high : Nat
  exponent : Int
  closed : Bool

/-- The gap below a power of two is half the gap above it. -/
def basin (x : Binary64) : Basin :=
  let m := 4 * x.significand
  let below := if x.fraction = 0 && x.field > 1 then 1 else 2
  { low := m - below, middle := m, high := m + 2, exponent := x.scale - 2, closed := x.significand % 2 == 0 }

/-- The multiple of `10 ^ k` to write for a basin, if one lies in it. -/
def Basin.multiple? (b : Basin) (k : Int) : Option Nat :=
  let u := powerRatio 2 b.exponent
  let g := powerRatio 10 k
  let unit := u.1 * g.2
  let grid := g.1 * u.2
  let inside (c : Nat) : Bool :=
    if b.closed then b.low * unit ≤ c * grid && c * grid ≤ b.high * unit
    else b.low * unit < c * grid && c * grid < b.high * unit
  let c := b.middle * unit / grid
  let lower := b.middle * unit - c * grid
  let upper := (c + 1) * grid - b.middle * unit
  match inside c, inside (c + 1) with
  | true, true => some (if upper ≤ lower then c + 1 else c)
  | true, false => some c
  | false, true => some (c + 1)
  | false, false => none

/-- The shortest decimal of a positive finite word: a whole number and the power of ten that it counts. -/
def shortest (x : Binary64) : Nat × Int :=
  let top : Int := (x.ratio.1 / x.ratio.2).log2 / 3 + 1
  ((List.range 400).findSome? fun (i : Nat) =>
    let k := top - (i : Int)
    (x.basin.multiple? k).map (·, k)).getD (0, 0)

/-- The digits `n` counted in powers of ten `10 ^ k`, positionally. -/
def positional (n : Nat) (k : Int) : List Char :=
  let ds := Nat.toDigits 10 n
  if k ≥ 0 then ds ++ List.replicate k.toNat '0'
  else
    let places := (-k).toNat
    if places < ds.length then ds.take (ds.length - places) ++ '.' :: ds.drop (ds.length - places)
    else '0' :: '.' :: List.replicate (places - ds.length) '0' ++ ds

/-- The decimal text of a number. -/
def toText (x : Binary64) : String :=
  if x.isNaN then "NaN"
  else
    let body :=
      if !x.isFinite then ['i', 'n', 'f']
      else if x.isZero then ['0']
      else positional x.shortest.1 x.shortest.2
    String.ofList (if x.isNegative then '-' :: body else body)

/-! ## Reading -/

/-- The word nearest to `m * 10 ^ e`. Beyond the range of words only the outcome is computed. -/
def ofDecimal (negative : Bool) (m : Nat) (e : Int) : Binary64 :=
  let magnitude : Int := (Nat.toDigits 10 m).length + e
  if m = 0 || magnitude < -330 then signed negative 0
  else if magnitude > 330 then infinity negative
  else
    let p := powerRatio 10 e
    nearest negative (m * p.1) p.2

/-- The most digits that count one by one. A midpoint between two words has fewer than 770 digits, so digits further on
tell only whether the number is above one that ends here. -/
def decisive : Nat := 800

/-- Digits and an exponent that round to the same word: beyond the decisive digits zeros go into the exponent, and
anything else becomes a single digit. -/
def curtail (ds : Bytes) (e : Int) : Bytes × Int :=
  let beyond := ds.drop decisive
  if beyond.all (· == 48) then (ds.take decisive, e + beyond.length)
  else (ds.take decisive ++ [49], e + beyond.length - 1)

/-- The word nearest to the number that digits write, times `10 ^ e`. -/
def ofDigits (negative : Bool) (ds : Bytes) (e : Int) : Binary64 :=
  let (ds, e) := curtail (ds.dropWhile (· == 48)) e
  ofDecimal negative (Bytes.digitsValue ds) e

/-- Whether an exponent after its mark is negative, and its digits; nothing written has no digits. -/
def exponentDigits? (s : Bytes) : Option (Bool × Bytes) :=
  match s with
  | [] => some (false, [])
  | mark :: rest =>
    if mark == 101 || mark == 69 then
      let (negative, ds) := match rest with
        | 45 :: ds => (true, ds)
        | 43 :: ds => (false, ds)
        | ds => (false, ds)
      if ds.isEmpty || !ds.all Bytes.isDigit then none else some (negative, ds)
    else none

/-- The exponent of a sign and a size. -/
def signedExponent (negative : Bool) (n : Nat) : Int := if negative then -n else n

/-- The size of an exponent: once its digits have reached 65536, those that follow do not count. -/
def exponentSize (ds : Bytes) : Nat := ds.foldl (fun n b => if n < 65536 then Bytes.pushDigit n b else n) 0

/-- The exponent at the end of a decimal. -/
def exponent? (s : Bytes) : Option Int :=
  (exponentDigits? s).map fun (negative, ds) => signedExponent negative (exponentSize ds)

/-- Digits with an optional point among or beside them, then an optional exponent. -/
def decimal? (negative : Bool) (s : Bytes) : Option Binary64 :=
  let whole := s.takeWhile Bytes.isDigit
  let rest := s.dropWhile Bytes.isDigit
  let (part, rest) := match rest with
    | 46 :: rest => (rest.takeWhile Bytes.isDigit, rest.dropWhile Bytes.isDigit)
    | _ => ([], rest)
  if whole.isEmpty && part.isEmpty then none
  else (exponent? rest).map fun e => ofDigits negative (whole ++ part) (e - part.length)

/-- Letters as small ones. -/
def lowerLetters (s : Bytes) : Bytes := s.map fun b => if 65 ≤ b && b ≤ 90 then b + 32 else b

/-- The number that a decimal text writes. -/
def ofText? (s : Bytes) : Option Binary64 :=
  let (negative, body) := match s with
    | 45 :: rest => (true, rest)
    | 43 :: rest => (false, rest)
    | rest => (false, rest)
  match decimal? negative body with
  | some x => some x
  | none =>
    let letters := lowerLetters body
    if letters = Bytes.ofText "inf" || letters = Bytes.ofText "infinity" then some (infinity negative)
    else if letters = Bytes.ofText "nan" then some nan
    else none

end RespClient.Binary64
