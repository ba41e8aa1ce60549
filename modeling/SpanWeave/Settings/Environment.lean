import SpanWeave.Settings
import SpanWeave.Text.Blank
import SpanWeave.Text.Numeral

set_option autoImplicit false

/-!
# Settings in the environment

Variables that take the place of settings. A flag takes one of four words for each truth value, in
any case; a number is one of 64 bits, of which a setting may keep fewer.
-/
namespace SpanWeave.Settings
open Text

abbrev Environment := String → Option String

def useClockSkewVariable : String := "HETRACE_USE_CLOCK_SKEW"
def skewIterationsVariable : String := "HETRACE_SKEW_ITERATIONS"
def workersVariable : String := "HETRACE_WORKER_THREADS"
def timelineVariable : String := "HETRACE_TIMELINE_PROFILE"
def flatVariable : String := "HETRACE_FLAT_PROFILE"
def callFilterVariable : String := "HETRACE_API_FILTER"
def lapRetentionVariable : String := "HETRACE_LAP_RETENTION"

def truthWord? (word : String) : Option Bool :=
  if word ∈ ["1", "true", "yes", "on"] then some true
  else if word ∈ ["0", "false", "no", "off"] then some false
  else none

def flag? (env : Environment) (name : String) : Except Fault (Option Bool) :=
  match env name with
  | none => .ok none
  | some raw =>
    let word := lowerAscii (trim raw)
    match truthWord? word with
    | some b => .ok (some b)
    | none => .error (.badSettings (.notBoolean name word))

def number? (env : Environment) (name : String) : Except Fault (Option Nat) :=
  match env name with
  | none => .ok none
  | some raw =>
    match natural? UInt64.size (trim raw).toList with
    | some n => .ok (some n)
    | none => .error (.badSettings (.notInteger name raw))

/-- The text that a variable holds, if it is set and not blank. -/
def text? (env : Environment) (name : String) : Option String :=
  (env name).filter fun raw => !(trim raw).isEmpty

/-- Iterations are kept in 32 bits. -/
def iterationsOf (n : Nat) : Nat := n % UInt32.size

/-- No retention bound is written as zero. -/
def retentionOf (n : Nat) : LapRetention := if n = 0 then .unbounded else .bounded n

/-- The settings with those of the environment in their places; of several faults the first one
counts. -/
def override (s : Settings) (env : Environment) : Except Fault Settings := do
  let useClockSkew ← flag? env useClockSkewVariable
  let skewIterations ← number? env skewIterationsVariable
  let workers ← number? env workersVariable
  let timeline ← flag? env timelineVariable
  let flat ← flag? env flatVariable
  let lapRetention ← number? env lapRetentionVariable
  let changed : Settings := { s with
    useClockSkew := useClockSkew.getD s.useClockSkew
    skewIterations := (skewIterations.map iterationsOf).getD s.skewIterations
    workers := workers.getD s.workers
    timeline := timeline.getD s.timeline
    flat := flat.getD s.flat
    callFilter := (text? env callFilterVariable).orElse fun _ => s.callFilter
    lapRetention := (lapRetention.map retentionOf).getD s.lapRetention }
  changed.validate

end SpanWeave.Settings
