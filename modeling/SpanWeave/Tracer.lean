import SpanWeave.Clock

set_option autoImplicit false

/-!
# The tracer

What a session asks the runtime for: to report a domain of events or to stop doing so, and the
time on the device. This one follows a script: it can be told to refuse, and it remembers what it
was asked.
-/
namespace SpanWeave

inductive Domain where
  | correlatedApi
  | untrackedApi
  | deviceActivity
  | untrackedActivity
  deriving DecidableEq, Repr, Inhabited

namespace Domain

def all : List Domain := [correlatedApi, untrackedApi, deviceActivity, untrackedActivity]

theorem mem_all (d : Domain) : d ∈ all := by cases d <;> decide

def name : Domain → String
  | correlatedApi => "correlated_api"
  | untrackedApi => "untracked_api"
  | deviceActivity => "device_activity"
  | untrackedActivity => "untracked_activity"

end Domain

inductive TracerCall where
  | enable (domain : Domain)
  | disable (domain : Domain)
  deriving DecidableEq, Repr, Inhabited

inductive DeviceTime where
  /-- The clock of the host less an offset. -/
  | behindHost (offset : Int)
  | fixed (time : Nanos)
  | missing
  deriving DecidableEq, Repr, Inhabited

structure Tracer where
  time : DeviceTime := .behindHost 0
  refusedEnable : Option Domain := none
  refusesDisable : Bool := false
  calls : Array TracerCall := #[]
  reported : List Domain := []
  deriving DecidableEq, Repr, Inhabited

namespace Tracer

def name : String := "fake"

def refusal : String := "injected failure"

def enable (t : Tracer) (d : Domain) : Except Fault Unit × Tracer :=
  let t := { t with calls := t.calls.push (.enable d) }
  if t.refusedEnable = some d then (.error (.enableFailed d.name refusal), t)
  else (.ok (), { t with reported := t.reported.insert d })

def disable (t : Tracer) (d : Domain) : Except Fault Unit × Tracer :=
  let t := { t with calls := t.calls.push (.disable d) }
  if t.refusesDisable then (.error (.disableFailed d.name refusal), t)
  else (.ok (), { t with reported := t.reported.erase d })

def enabled (t : Tracer) : List Domain := Domain.all.filter t.reported.contains

def deviceClock (t : Tracer) (host : Clock) : Clock :=
  match t.time with
  | .behindHost offset => host.shifted (-offset)
  | .fixed time => .constant time
  | .missing => fun _ => .error (.clockUnavailable "fake source has no device clock")

end Tracer

end SpanWeave
