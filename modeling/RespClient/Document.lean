/-
Configuration documents: null, truth values, numbers, texts, lists and objects. A number keeps its text; `Number.read`
turns it into an integer if it is written without point and exponent and fits 64 bits, signed or unsigned. Any other
number becomes a double: the digits that fit an unsigned 64-bit word, scaled by a power of ten in steps that each round.

Documents are read from JSON (`Document.ofJson?`).
-/
import RespClient.Decimal
import RespClient.Numeral

namespace RespClient

/-- A configuration document. -/
inductive Document where
  | null
  | bool (value : Bool)
  | number (numeral : String)
  | text (value : String)
  | list (items : List Document)
  | object (entries : List (String × Document))
  deriving Inhabited

/-! ## Numbers -/

/-- A number of a document. -/
inductive Number where
  | int (value : Int)
  | float (value : Binary64)
  deriving DecidableEq

namespace Number

/-- Digits read onto a value as long as it fits 64 bits, and the digits left. -/
def fit (value : Nat) : Bytes → Nat × Bytes
  | [] => (value, [])
  | d :: ds =>
    let next := Bytes.pushDigit value d
    if next < UInt64.size then fit next ds else (value, d :: ds)

def powerOfTen (e : Nat) : Binary64 := .nearest false (Nat.pow 10 e) 1

/-- Division by a power of ten, at most `10 ^ 308` at a time. -/
def divideByTens : (steps : Nat) → Binary64 → (e : Nat) → Binary64
  | 0, x, e => x.divMagnitudes (powerOfTen e)
  | steps + 1, x, e =>
    if e ≤ 308 then x.divMagnitudes (powerOfTen e)
    else if x.isZero then x
    else divideByTens steps (x.divMagnitudes (powerOfTen 308)) (e - 308)

/-- The double for `m * 10 ^ e`. -/
def scaled (m : Nat) (e : Int) : Binary64 :=
  let x := Binary64.ofNat m
  if e < 0 then divideByTens (-e).toNat x (-e).toNat
  else if x.isZero then x
  else if e ≤ 308 then x.mulMagnitudes (powerOfTen e.toNat)
  else .infinity false

/-- The exponent at the end of a numeral. -/
def exponent (s : Bytes) : Int :=
  match Binary64.exponentDigits? s with
  | some (negative, ds) => Binary64.signedExponent negative (Bytes.digitsValue ds)
  | none => 0

/-- The number that a numeral writes. -/
def read (numeral : Bytes) : Number :=
  let (negative, body) := match numeral with
    | 45 :: rest => (true, rest)
    | _ => (false, numeral)
  let whole := body.takeWhile Bytes.isDigit
  let rest := body.dropWhile Bytes.isDigit
  let n := Bytes.digitsValue whole
  if rest.isEmpty && !negative && n < UInt64.size then .int n
  else if rest.isEmpty && negative && 0 < n && n ≤ Numeral.signedBound then .int (-(n : Int))
  else
    let (m, beyond) := fit 0 whole
    let (part, rest) := match rest with
      | 46 :: rest => (rest.takeWhile Bytes.isDigit, rest.dropWhile Bytes.isDigit)
      | _ => ([], rest)
    let (m, unread) := fit m part
    let e : Int := beyond.length - (part.length - unread.length : Nat)
    let x := scaled m (e + exponent rest)
    .float (if negative then x.negate else x)

end Number

/-! ## JSON -/

namespace Document

/-- white space between tokens -/
def skipBlanks (s : List Char) : List Char :=
  s.dropWhile fun c => c == ' ' || c == '\t' || c == '\n' || c == '\r'

def hexDigit? (c : Char) : Option Nat :=
  if c.isDigit then some (c.toNat - 48)
  else if 'a' ≤ c && c ≤ 'f' then some (c.toNat - 87)
  else if 'A' ≤ c && c ≤ 'F' then some (c.toNat - 55)
  else none

def hex4? (a b c d : Char) : Option Nat := do
  return ((← hexDigit? a) * 4096 + (← hexDigit? b) * 256 + (← hexDigit? c) * 16 + (← hexDigit? d))

/-- The character of a letter after a backslash. -/
def escape? : Char → Option Char
  | '"' => some '"'
  | '\\' => some '\\'
  | '/' => some '/'
  | 'b' => some '\x08'
  | 'f' => some '\x0c'
  | 'n' => some '\n'
  | 'r' => some '\r'
  | 't' => some '\t'
  | _ => none

/-- The rest of a quoted text: its characters after those in `done`, newest first, and what follows the closing quote. -/
def quoted? (done : List Char) : List Char → Option (String × List Char)
  | '"' :: rest => some (String.ofList done.reverse, rest)
  | '\\' :: 'u' :: a :: b :: c :: d :: rest =>
    match hex4? a b c d, rest with
    | none, _ => none
    | some high, '\\' :: 'u' :: e :: f :: g :: h :: rest' =>
      match hex4? e f g h with
      | none => none
      | some low =>
        if 0xD800 ≤ high && high < 0xDC00 && 0xDC00 ≤ low && low < 0xE000 then
          quoted? (Char.ofNat (0x10000 + (high - 0xD800) * 1024 + (low - 0xDC00)) :: done) rest'
        else quoted? (Char.ofNat high :: done) ('\\' :: 'u' :: e :: f :: g :: h :: rest')
    | some n, rest => quoted? (Char.ofNat n :: done) rest
  | '\\' :: c :: rest =>
    match escape? c with
    | some c => quoted? (c :: done) rest
    | none => none
  | c :: rest => quoted? (c :: done) rest
  | [] => none

/-- The text after an expected word. -/
def expect? : (word s : List Char) → Option (List Char)
  | [], s => some s
  | c :: cs, d :: s => if c = d then expect? cs s else none
  | _ :: _, [] => none

def isNumeral (c : Char) : Bool := c.isDigit || c == '-' || c == '+' || c == '.' || c == 'e' || c == 'E'

mutual

/-- A value and what follows it; nesting and length are bounded by `fuel`. -/
def value? : (fuel : Nat) → List Char → Option (Document × List Char)
  | 0, _ => none
  | fuel + 1, s =>
    match skipBlanks s with
    | '"' :: rest => (quoted? [] rest).map fun (t, rest) => (.text t, rest)
    | '[' :: rest =>
      match skipBlanks rest with
      | ']' :: rest => some (.list [], rest)
      | rest => items? fuel [] rest
    | '{' :: rest =>
      match skipBlanks rest with
      | '}' :: rest => some (.object [], rest)
      | rest => entries? fuel [] rest
    | 't' :: rest => (expect? ['r', 'u', 'e'] rest).map (.bool true, ·)
    | 'f' :: rest => (expect? ['a', 'l', 's', 'e'] rest).map (.bool false, ·)
    | 'n' :: rest => (expect? ['u', 'l', 'l'] rest).map (.null, ·)
    | s =>
      let numeral := s.takeWhile isNumeral
      if numeral.isEmpty then none else some (.number (String.ofList numeral), s.dropWhile isNumeral)

/-- Items of a list up to its end, after those in `done`, newest first. -/
def items? : (fuel : Nat) → List Document → List Char → Option (Document × List Char)
  | 0, _, _ => none
  | fuel + 1, done, s =>
    match value? fuel s with
    | none => none
    | some (v, rest) =>
      match skipBlanks rest with
      | ',' :: rest => items? fuel (v :: done) rest
      | ']' :: rest => some (.list (v :: done).reverse, rest)
      | _ => none

/-- Entries of an object up to its end, after those in `done`, newest first. -/
def entries? : (fuel : Nat) → List (String × Document) → List Char → Option (Document × List Char)
  | 0, _, _ => none
  | fuel + 1, done, s =>
    match skipBlanks s with
    | '"' :: rest =>
      match quoted? [] rest with
      | none => none
      | some (key, rest) =>
        match skipBlanks rest with
        | ':' :: rest =>
          match value? fuel rest with
          | none => none
          | some (v, rest) =>
            match skipBlanks rest with
            | ',' :: rest => entries? fuel ((key, v) :: done) rest
            | '}' :: rest => some (.object ((key, v) :: done).reverse, rest)
            | _ => none
        | _ => none
    | _ => none

end

/-- The document that a JSON text writes. -/
def ofJson? (s : String) : Option Document :=
  let cs := s.toList
  match value? (cs.length + 1) cs with
  | some (v, rest) => if (skipBlanks rest).isEmpty then some v else none
  | none => none

/-- The entry of an object under a key. -/
def get? (d : Document) (key : String) : Option Document :=
  match d with
  | .object entries => entries.lookup key
  | _ => none

end Document

end RespClient
