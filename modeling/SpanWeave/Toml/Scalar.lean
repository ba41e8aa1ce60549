import SpanWeave.Toml.Value
import SpanWeave.Rounding
import SpanWeave.Text.Numeral

set_option autoImplicit false

/-!
# TOML numbers and times

The words that stand for a value without quotes or brackets: truth values, whole numbers in four
bases, fractional numbers, dates and times.
-/
namespace SpanWeave.Toml
open Text

def digitGroups? (isDigit : Char → Bool) : List Char → Option (List Char)
  | [] => none
  | [d] => if isDigit d then some [d] else none
  | d :: '_' :: ds => if isDigit d then (digitGroups? isDigit ds).map (d :: ·) else none
  | d :: ds => if isDigit d then (digitGroups? isDigit ds).map (d :: ·) else none

def basedInteger? (base : Nat) (ds : List Char) : Option Int := do
  let ds ← digitGroups? (fun c => (hexDigit? c).any (· < base)) ds
  let n := ds.foldl (fun n c => base * n + (hexDigit? c).getD 0) 0
  if n < 0x8000000000000000 then some (n : Int) else none

def decimalDigits? (s : List Char) : Option (List Char) := do
  let ds ← digitGroups? Char.isDigit s
  if ds.head? = some '0' ∧ 1 < ds.length then none else some ds

def splitSign : List Char → Bool × List Char
  | '-' :: s => (true, s)
  | '+' :: s => (false, s)
  | s => (false, s)

def integer? (s : List Char) : Option Int :=
  match s with
  | '0' :: 'x' :: ds => basedInteger? 16 ds
  | '0' :: 'o' :: ds => basedInteger? 8 ds
  | '0' :: 'b' :: ds => basedInteger? 2 ds
  | s => do
    let (negative, s) := splitSign s
    let n := ofDigits (← decimalDigits? s)
    if negative then (if n ≤ 0x8000000000000000 then some (-(n : Int)) else none)
    else if n < 0x8000000000000000 then some (n : Int) else none

def exponent? : List Char → Option Int
  | c :: s => do
    if c = 'e' ∨ c = 'E' then
      let (negative, s) := splitSign s
      let ds ← digitGroups? Char.isDigit s
      some (if negative then -(ofDigits ds : Int) else ofDigits ds)
    else none
  | [] => none

/-- A number with a fraction or an exponent or both: its digits, and the power of ten by which they
are multiplied. -/
def decimal? (s : List Char) : Option (List Char × Int) := do
  let isPart (c : Char) : Bool := c.isDigit || c == '_'
  let whole ← decimalDigits? (s.takeWhile isPart)
  match s.dropWhile isPart with
  | '.' :: rest =>
    let places ← digitGroups? Char.isDigit (rest.takeWhile isPart)
    let power ← match rest.dropWhile isPart with
      | [] => some 0
      | rest => exponent? rest
    some (whole ++ places, power - places.length)
  | rest => do some (whole, ← exponent? rest)

/-- A fractional number or one of the two words. A number may be too small for a double, but not too
large. -/
def isReal (s : List Char) : Bool :=
  let (negative, s) := splitSign s
  s == "inf".toList || s == "nan".toList ||
    match decimal? s with
    | some (ds, power) => negative || Rounded.isDouble (ofDigits ds) power
    | none => false

def field? (digits lo hi : Nat) (s : List Char) : Option (Nat × List Char) :=
  let ds := s.take digits
  if ds.length = digits ∧ ds.all Char.isDigit ∧ lo ≤ ofDigits ds ∧ ofDigits ds ≤ hi then
    some (ofDigits ds, s.drop digits)
  else none

def daysIn (year month : Nat) : Nat :=
  if month = 2 then
    if year % 4 = 0 ∧ (year % 100 ≠ 0 ∨ year % 400 = 0) then 29 else 28
  else if month ∈ [4, 6, 9, 11] then 30 else 31

def afterDate? (s : List Char) : Option (List Char) := do
  let (year, s) ← field? 4 0 9999 s
  let '-' :: s := s | none
  let (month, s) ← field? 2 1 12 s
  let '-' :: s := s | none
  let (_, s) ← field? 2 1 (daysIn year month) s
  some s

def afterTime? (s : List Char) : Option (List Char) := do
  let (_, s) ← field? 2 0 23 s
  let ':' :: s := s | none
  let (_, s) ← field? 2 0 59 s
  let ':' :: s := s | none
  let (_, s) ← field? 2 0 60 s
  match s with
  | '.' :: s => if (spanDigits s).1.isEmpty then none else some (spanDigits s).2
  | s => some s

def isOffset : List Char → Bool
  | [] | ['Z'] | ['z'] => true
  | sign :: s => (sign == '+' || sign == '-') && ((do
    let (_, s) ← field? 2 0 23 s
    let ':' :: s := s | none
    let (_, s) ← field? 2 0 59 s
    some s.isEmpty).getD false)

def isTime (s : List Char) : Bool := afterTime? s == some []

def isMoment (s : List Char) : Bool :=
  match afterDate? s with
  | some [] => true
  | some (t :: s) => (t == 'T' || t == 't' || t == ' ') && ((afterTime? s).map isOffset).getD false
  | none => isTime s

def scalar? (s : List Char) : Option Value :=
  if s = "true".toList then some (.bool true)
  else if s = "false".toList then some (.bool false)
  else
    match integer? s with
    | some i => some (.integer i)
    | none => if isReal s || isMoment s then some .other else none

end SpanWeave.Toml
