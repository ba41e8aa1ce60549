import SpanWeave.Text.Numeral

set_option autoImplicit false

/-!
# Rounded numbers

Non-negative numbers with a significand of 53 bits, as the tables of a report compute with them.
Every operation is the exact one followed by rounding to the nearest such number, a tie going to the
even significand. The exponents that occur here are far from the ends of the range, so there is
no overflow and no gradual underflow.
-/
namespace SpanWeave

/-- `n / d` rounded to the nearest whole number, a tie going to the even one. -/
def roundDiv (n d : Nat) : Nat :=
  let q := n / d
  let r := n % d
  if 2 * r < d then q
  else if d < 2 * r then q + 1
  else q + q % 2

/-- The number `significand * 2 ^ exponent`. -/
structure Rounded where
  significand : Nat
  exponent : Int
  deriving DecidableEq, Repr, Inhabited

namespace Rounded

def precision : Nat := 53

def zero : Rounded := ⟨0, 0⟩

def fraction (x : Rounded) : Nat × Nat :=
  (x.significand <<< x.exponent.toNat, 1 <<< (-x.exponent).toNat)

/-- `n / d` with the exponent `e` and as much of the significand as that leaves. -/
def atExponent (n d : Nat) (e : Int) : Nat := roundDiv (n <<< (-e).toNat) (d <<< e.toNat)

def ofFraction (n d : Nat) : Rounded :=
  if n = 0 ∨ d = 0 then zero
  else
    let e : Int := (n.log2 : Int) - d.log2 - precision
    let m := atExponent n d e
    if m < 1 <<< precision then ⟨m, e⟩
    else ⟨atExponent n d (e + 1), e + 1⟩

def ofNat (n : Nat) : Rounded := ofFraction n 1

def div (x y : Rounded) : Rounded :=
  ofFraction (x.fraction.1 * y.fraction.2) (x.fraction.2 * y.fraction.1)

def mul (x y : Rounded) : Rounded :=
  ofFraction (x.fraction.1 * y.fraction.1) (x.fraction.2 * y.fraction.2)

/-- The least whole number that rounds to no finite double. -/
def doubleBound : Nat := (1 <<< 1024) - (1 <<< 970)

def isDouble (mantissa : Nat) (exponent : Int) : Bool :=
  let magnitude : Int := (Text.numeral mantissa).length + exponent
  if mantissa = 0 ∨ magnitude < 300 then true
  else if magnitude > 320 then false
  else if 0 ≤ exponent then mantissa * Nat.pow 10 exponent.toNat < doubleBound
  else mantissa < doubleBound * Nat.pow 10 (-exponent).toNat

/-- Both factors are rounded before they are multiplied, and no power of ten is beyond
`10 ^ 308`. -/
def isProductDouble (mantissa : Nat) (exponent : Int) : Bool :=
  if mantissa = 0 ∨ exponent < 0 then true
  else if 308 < exponent then false
  else
    let m := (ofNat mantissa).fraction
    let power := (ofNat (Nat.pow 10 exponent.toNat)).fraction
    m.1 * power.1 < doubleBound * (m.2 * power.2)

def percentage (part whole : Nat) : Rounded :=
  ((ofNat part).div (ofNat whole)).mul (ofNat 100)

/-- The exact value rounded to a number of decimal places, a tie going to the even digit. -/
def fixed (places : Nat) (x : Rounded) : String :=
  let scaled := roundDiv (x.fraction.1 * Nat.pow 10 places) x.fraction.2
  let ds := Text.numeral scaled
  let ds := List.replicate (places + 1 - ds.length) '0' ++ ds
  String.ofList (ds.take (ds.length - places)) ++ "." ++
    String.ofList (ds.drop (ds.length - places))

end Rounded

end SpanWeave
