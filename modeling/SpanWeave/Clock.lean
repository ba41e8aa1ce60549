import SpanWeave.Identity
import SpanWeave.Fault

set_option autoImplicit false

/-!
# Clocks

A clock is known by what its readings give, in order; any of them may fail. A `Reading` computes
with a clock of the host and one of the device and keeps count of what it read, and in which order.
-/
namespace SpanWeave

def timeLimit : Nanos := UInt64.size - 1

/-- What reading number `n` of the clock gives, counting from 0. -/
abbrev Clock := Nat → Except Fault Nanos

def Clock.constant (time : Nanos) : Clock := fun _ => .ok time

/-- A time moved by an offset, kept within what a clock can show. -/
def shiftTime (time : Nanos) (offset : Int) : Nanos := min ((time : Int) + offset).toNat timeLimit

def Clock.shifted (c : Clock) (offset : Int) : Clock := fun n => (c n).map (shiftTime · offset)

inductive ClockSide where
  | host
  | device
  deriving DecidableEq, Repr, Inhabited

structure Clocks where
  host : Clock
  device : Clock

structure Reads where
  /-- Which clocks were read, the latest one first. -/
  order : List ClockSide := []
  host : Nat := 0
  device : Nat := 0
  deriving DecidableEq, Repr, Inhabited

abbrev Reading (α : Type) := ExceptT Fault (StateM Reads) α

/-- A reading also counts when it fails. -/
def Clocks.read (c : Clocks) (side : ClockSide) : Reading Nanos := fun r =>
  match side with
  | .host => (c.host r.host, { r with order := .host :: r.order, host := r.host + 1 })
  | .device => (c.device r.device, { r with order := .device :: r.order, device := r.device + 1 })

end SpanWeave
