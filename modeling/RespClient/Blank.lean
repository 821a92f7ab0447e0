/-
White space around texts: the characters of Unicode's White_Space property.
-/

namespace RespClient

/-- Characters with the White_Space property. -/
def isBlank (c : Char) : Bool :=
  let n := c.toNat
  (9 ≤ n && n ≤ 13) || n == 0x20 || n == 0x85 || n == 0xA0 || n == 0x1680 || (0x2000 ≤ n && n ≤ 0x200A)
    || n == 0x2028 || n == 0x2029 || n == 0x202F || n == 0x205F || n == 0x3000

/-- The text without the blanks at both ends. -/
def trimBlanks (s : List Char) : List Char :=
  ((s.dropWhile isBlank).reverse.dropWhile isBlank).reverse

/-- Letters `a` to `z` as capitals; all else is kept. -/
def upperAscii (s : String) : String := String.ofList (s.toList.map Char.toUpper)

/-- Letters `A` to `Z` as small ones; all else is kept. -/
def lowerAscii (s : String) : String := String.ofList (s.toList.map Char.toLower)

end RespClient
