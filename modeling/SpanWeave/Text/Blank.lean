set_option autoImplicit false

/-!
# Blank characters

The characters with the Unicode property `White_Space`, and trimming by them. Core's
`Char.isWhitespace` knows the ASCII ones only.
-/
namespace SpanWeave.Text

def isBlank (c : Char) : Bool :=
  let n := c.toNat
  (9 ≤ n && n ≤ 13) || n == 0x20 || n == 0x85 || n == 0xa0 || n == 0x1680 ||
    (0x2000 ≤ n && n ≤ 0x200a) || n == 0x2028 || n == 0x2029 || n == 0x202f || n == 0x205f ||
    n == 0x3000

def trimChars (s : List Char) : List Char :=
  ((s.dropWhile isBlank).reverse.dropWhile isBlank).reverse

def trim (s : String) : String := String.ofList (trimChars s.toList)

def splitAt (separator : Char) (s : String) : List String :=
  (s.toList.splitOn separator).map String.ofList

def after? (lead s : String) : Option String :=
  if lead.toList.isPrefixOf s.toList then some (String.ofList (s.toList.drop lead.toList.length))
  else none

def lowerAscii (s : String) : String := s.map Char.toLower

end SpanWeave.Text
