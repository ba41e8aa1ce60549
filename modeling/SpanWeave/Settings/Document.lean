import SpanWeave.Settings
import SpanWeave.Toml.Reader
import SpanWeave.Toml.Writer

set_option autoImplicit false

/-!
# Settings in TOML

Keys that name no setting are passed over, and settings that are left out have their defaults. A
document with a setting of the wrong type is as unreadable as one that is no TOML at all.
-/
namespace SpanWeave.Settings

def tomlBool : Toml.Value → Option Bool
  | .bool b => some b
  | _ => none

def tomlText : Toml.Value → Option String
  | .text s => some s
  | _ => none

def tomlNatBelow (bound : Nat) : Toml.Value → Option Nat
  | .integer (.ofNat n) => if n < bound then some n else none
  | _ => none

/-- The bound of a retention; no other key may stand beside it. -/
def tomlBound : Toml.Value → Option LapRetention
  | .table _ [("max_entries", v)] => (tomlNatBelow UInt64.size v).map .bounded
  | .array (v :: _) => (tomlNatBelow UInt64.size v).map .bounded
  | _ => none

def tomlRetention : Toml.Value → Option LapRetention
  | .text "unbounded" => some .unbounded
  | .table _ [("unbounded", .table _ [])] | .table _ [("unbounded", .array [])] => some .unbounded
  | .table _ [("bounded", v)] => tomlBound v
  | _ => none

def tomlField {α : Type} (es : Toml.Entries) (name : String) (default : α)
    (read : Toml.Value → Option α) : Option α :=
  match es.lookup name with
  | none => some default
  | some v => read v

def ofToml (es : Toml.Entries) : Option Settings := do
  let s : Settings := {}
  let useClockSkew ← tomlField es "use_clock_skew" s.useClockSkew tomlBool
  let skewIterations ← tomlField es "skew_iterations" s.skewIterations (tomlNatBelow UInt32.size)
  let workers ← tomlField es "worker_threads" s.workers (tomlNatBelow UInt64.size)
  let warnAbove ← tomlField es "queue_warn_threshold" s.warnAbove (tomlNatBelow UInt64.size)
  let lapRetention ← tomlField es "lap_retention" s.lapRetention tomlRetention
  let timeline ← tomlField es "timeline_profile" s.timeline tomlBool
  let flat ← tomlField es "flat_profile" s.flat tomlBool
  let recordSpans ← tomlField es "use_visualization" s.recordSpans tomlBool
  let recordDurations ← tomlField es "use_aggregation" s.recordDurations tomlBool
  let recordMarks ← tomlField es "use_critical_trace" s.recordMarks tomlBool
  let callFilter ← tomlField es "api_filter" s.callFilter fun v => (tomlText v).map some
  let activityFilter ←
    tomlField es "activity_filter" s.activityFilter fun v => (tomlText v).map some
  let standardExclusions ← tomlField es "default_api_exclusions" s.standardExclusions tomlBool
  let blockSignals ← tomlField es "block_signals_on_drain" s.blockSignals tomlBool
  some { useClockSkew, skewIterations, workers, warnAbove, lapRetention, timeline, flat,
         recordSpans, recordDurations, recordMarks, callFilter, activityFilter,
         standardExclusions, blockSignals }

def read (document : String) : Except Fault Settings :=
  match (Toml.parse document).bind ofToml with
  | some s => s.validate
  | none => .error (.badSettings .unreadable)

/-- One line for each setting, tables last; nothing if a number is too great for a document. -/
def write? (s : Settings) : Option String := do
  let line (name : String) (value : String) : String := name ++ " = " ++ value ++ "\n"
  let flag (name : String) (b : Bool) : String := line name (Toml.writeBool b)
  let text (name : String) (t : Option String) : String :=
    match t with
    | some t => line name (Toml.writeText t)
    | none => ""
  let workers ← Toml.writeNat? s.workers
  let warnAbove ← Toml.writeNat? s.warnAbove
  let (retention, tables) ← match s.lapRetention with
    | .unbounded => some (line "lap_retention" (Toml.writeText "unbounded"), "")
    | .bounded n => do
      some ("", "\n[lap_retention.bounded]\n" ++ line "max_entries" (← Toml.writeNat? n))
  some (flag "use_clock_skew" s.useClockSkew ++
    line "skew_iterations" (toString s.skewIterations) ++
    line "worker_threads" workers ++ line "queue_warn_threshold" warnAbove ++ retention ++
    flag "timeline_profile" s.timeline ++ flag "flat_profile" s.flat ++
    flag "use_visualization" s.recordSpans ++ flag "use_aggregation" s.recordDurations ++
    flag "use_critical_trace" s.recordMarks ++ text "api_filter" s.callFilter ++
    text "activity_filter" s.activityFilter ++
    flag "default_api_exclusions" s.standardExclusions ++
    flag "block_signals_on_drain" s.blockSignals ++ tables)

end SpanWeave.Settings
