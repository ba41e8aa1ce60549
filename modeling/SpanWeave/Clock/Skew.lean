import SpanWeave.Clock

set_option autoImplicit false

/-!
# Clock skew

The offset that is added to times of the device to get times of the host. One reading of the
device is bracketed by two of the host and taken to have happened halfway between them; the offset
is the mean over several such brackets. It is measured once, when it is first asked for.
-/
namespace SpanWeave

structure Calibration where
  offset : Int
  hostAverage : Nanos
  deviceAverage : Nanos
  iterations : Nat
  deriving DecidableEq, Repr, Inhabited

def clampSigned (i : Int) : Int := max (-0x8000000000000000) (min i 0x7fffffffffffffff)

/-- A reading of the device, and the half-way time between the readings of the host around it. -/
def Clocks.bracket (c : Clocks) : Reading (Nanos × Nanos) := do
  let first ← c.read .host
  let device ← c.read .device
  let second ← c.read .host
  return (first / 2 + second / 2, device)

/-- The calibration that brackets give, halves of the mean going toward zero. -/
def Calibration.ofBrackets (brackets : List (Nanos × Nanos)) : Calibration :=
  let n := brackets.length
  let host : Nat := (brackets.map (·.1)).foldr (· + ·) 0
  let device : Nat := (brackets.map (·.2)).foldr (· + ·) 0
  { offset := clampSigned (((host : Int) - device).tdiv n)
    hostAverage := host / n
    deviceAverage := device / n
    iterations := n }

/-- Reads each clock once for nothing, then takes the brackets, at least one of them. -/
def Clocks.calibrate (c : Clocks) (iterations : Nat) : Reading Calibration := do
  let _ ← c.read .host
  let _ ← c.read .device
  let brackets ← (List.range (max iterations 1)).mapM fun _ => c.bracket
  return Calibration.ofBrackets brackets

structure Skew where
  iterations : Nat
  enabled : Bool
  /-- What the first question led to; a measurement that failed is not repeated. -/
  measured : Option (Option Calibration) := none
  deriving DecidableEq, Repr, Inhabited

namespace Skew

def start (iterations : Nat) (enabled : Bool) : Skew := { iterations := max iterations 1, enabled }

def fixed (offset : Int) : Skew :=
  { iterations := 1, enabled := true, measured := some (some ⟨offset, 0, 0, 0⟩) }

def calibration? (s : Skew) : Option Calibration := s.measured.join

def isCalibrated (s : Skew) : Bool := s.measured.isSome

/-- The offset in use: 0 before it was measured, when that failed, and when it is not wanted. -/
def current (s : Skew) : Int :=
  match s.calibration? with
  | some c => if s.enabled then c.offset else 0
  | none => 0

structure Asked where
  offset : Int
  skew : Skew
  reads : Reads := {}
  warnings : List Warning := []

/-- The offset, measured now if it was not asked for before. -/
def ask (s : Skew) (clocks : Clocks) : Asked :=
  match s.measured with
  | some _ => { offset := s.current, skew := s }
  | none =>
    match clocks.calibrate s.iterations {} with
    | (.ok c, reads) =>
      let s := { s with measured := some (some c) }
      { offset := s.current, skew := s, reads }
    | (.error fault, reads) =>
      { offset := 0, skew := { s with measured := some none }, reads,
        warnings := [.skewUnavailable fault] }

def apply (s : Skew) (time : Nanos) : Nanos := shiftTime time s.current

end Skew

end SpanWeave
