import SpanWeave.Json.Value
import SpanWeave.Rounding
import SpanWeave.Text.Numeral

set_option autoImplicit false

/-!
# Numbers of JSON

A number is a sign, digits, a fraction and an exponent. Whether it is in range is decided by its
first digits, as many as a word of 64 bits holds, and by the power of ten that is left.
-/
namespace SpanWeave.Json
open Text

/-- An exponent, if one is there; `none` when it is begun and not finished. -/
def exponent : List Char → Option (Option Int × List Char)
  | c :: s =>
    if c = 'e' ∨ c = 'E' then
      let (negative, s) := match s with
        | '-' :: s => (true, s)
        | '+' :: s => (false, s)
        | s => (false, s)
      let (ds, s) := spanDigits s
      if ds.isEmpty then none
      else some (some (if negative then -(ofDigits ds : Int) else ofDigits ds), s)
    else some (none, c :: s)
  | [] => some (none, [])

def fraction : List Char → Option (List Char × List Char)
  | '.' :: s =>
    let (ds, s) := spanDigits s
    if ds.isEmpty then none else some (ds, s)
  | s => some ([], s)

/-- Adds digits to a word until one does not fit; the word, and how many digits were left out. -/
def wordOfDigits (word : Nat) : List Char → Nat × Nat
  | [] => (word, 0)
  | d :: ds =>
    let next := 10 * word + ofDigits [d]
    if next < UInt64.size then wordOfDigits next ds else (word, ds.length + 1)

def inRange (whole places : List Char) (power : Int) : Bool :=
  let (word, skipped) := wordOfDigits 0 whole
  let (word, unread) := wordOfDigits word places
  Rounded.isProductDouble word (power + skipped - (places.length - unread : Nat))

def unsigned (negative : Bool) (s : List Char) : Option (Value × List Char) := do
  let (whole, s) := spanDigits s
  if whole.isEmpty ∨ (whole.head? = some '0' ∧ 1 < whole.length) then none
  else
    let (places, s) ← fraction s
    let (power, s) ← exponent s
    let n := ofDigits whole
    let v :=
      if !inRange whole places (power.getD 0) then .garbled
      else if !places.isEmpty ∨ power.isSome ∨ (negative ∧ n = 0) then .real
      else .integer (if negative then -(n : Int) else n)
    some (v, s)

end SpanWeave.Json
