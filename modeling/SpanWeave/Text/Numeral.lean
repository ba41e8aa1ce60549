set_option autoImplicit false

/-!
# Decimal numerals

Whole numbers as text. `natural?` reads what a bounded unsigned number may be written as: an
optional plus sign and at least one ASCII digit.
-/
namespace SpanWeave.Text

def numeral (n : Nat) : List Char := Nat.toDigits 10 n

def ofDigits (ds : List Char) : Nat := Nat.ofDigitChars 10 ds 0

@[simp] theorem ofDigits_numeral (n : Nat) : ofDigits (numeral n) = n :=
  Nat.ofDigitChars_toDigits (by decide) (by decide)

def spanDigits (s : List Char) : List Char × List Char :=
  (s.takeWhile Char.isDigit, s.dropWhile Char.isDigit)

/-- An unsigned number below `bound`, written with digits only after an optional plus sign. -/
def natural? (bound : Nat) (s : List Char) : Option Nat :=
  let ds := match s with
    | '+' :: ds => ds
    | ds => ds
  if ds.isEmpty || !ds.all Char.isDigit then none
  else if ofDigits ds < bound then some (ofDigits ds) else none

/-- A signed number from `-bound` up to but not including `bound`, after an optional sign. -/
def integer? (bound : Nat) (s : List Char) : Option Int :=
  match s with
  | '-' :: ds =>
    if ds.isEmpty || !ds.all Char.isDigit then none
    else if ofDigits ds ≤ bound then some (-(ofDigits ds : Int)) else none
  | ds => (natural? bound ds).map Int.ofNat

def padLeft (width : Nat) (s : String) : String :=
  String.ofList (List.replicate (width - s.length) ' ') ++ s

def hexadecimal (width n : Nat) : String :=
  let ds := Nat.toDigits 16 n
  String.ofList (List.replicate (width - ds.length) '0' ++ ds)

def hexDigit? (c : Char) : Option Nat :=
  if c.isDigit then some (c.toNat - '0'.toNat)
  else if 'a' ≤ c ∧ c ≤ 'f' then some (c.toNat - 'a'.toNat + 10)
  else if 'A' ≤ c ∧ c ≤ 'F' then some (c.toNat - 'A'.toNat + 10)
  else none

def readHex? (count : Nat) (s : List Char) : Option (Nat × List Char) :=
  let ds := s.take count
  if ds.length = count then
    (ds.mapM hexDigit?).map fun vs => (vs.foldl (fun n v => 16 * n + v) 0, s.drop count)
  else none

end SpanWeave.Text
