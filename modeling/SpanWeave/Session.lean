import SpanWeave.Settings
import SpanWeave.Tracer
import SpanWeave.Engine.HostCalls
import SpanWeave.Engine.Drain

set_option autoImplicit false

/-!
# Sessions

A session owns an engine and a tracer, and goes from inactive over active to finalized. Events count
only while it is active. Threads may be tracked by the caller, or by the session itself under
numbers that it gives them.
-/
namespace SpanWeave

inductive SessionState where
  | inactive
  | active
  | finalized
  deriving DecidableEq, Repr, Inhabited

def SessionState.name : SessionState → String
  | inactive => "Inactive"
  | active => "Active"
  | finalized => "Finalized"

inductive RoutineEnd where
  | done
  | failed (cause : Fault)
  | aborted
  deriving DecidableEq, Repr, Inhabited

structure Routine where
  name : String
  ending : RoutineEnd
  deriving DecidableEq, Repr, Inhabited

structure ShutdownReport where
  /-- Calls that were still open. -/
  discarded : Nat := 0
  /-- Deferred jobs that ran during the shutdown. -/
  flushed : Nat := 0
  disableFailures : Nat := 0
  deriving DecidableEq, Repr, Inhabited

structure Session where
  settings : Settings
  engine : Engine
  tracer : Tracer
  hostClock : Clock
  state : SessionState := .inactive
  /-- How many threads the session has numbered. -/
  threads : Nat := 0
  /-- The calling thread, once the session has numbered it. -/
  own? : Option ThreadState := none
  setup : List Routine := []
  teardown : List Routine := []
  /-- The routines that were run, in order. -/
  routines : Array Routine := #[]

namespace Session

def callFilterOf (s : Settings) (language : PatternLanguage := Pattern.language) :
    Except Fault NameFilter := do
  let asked ← s.callFilter.mapM (NameFilter.ofExpression · language)
  return match s.standardExclusions, asked with
    | true, some f => NameFilter.standard.merge f
    | true, none => .standard
    | false, some f => f
    | false, none => .all

def build (s : Settings) (tracer : Tracer) (hostClock : Clock) (skew : Option Skew)
    (spans : Option Recorder) (durations : Option Durations)
    (language : PatternLanguage := Pattern.language) : Except Fault Session := do
  let callFilter ← callFilterOf s language
  let activityFilter ← s.activityFilter.mapM (NameFilter.ofExpression · language)
  return {
    settings := s
    tracer
    hostClock
    engine := {
      callFilter
      activityFilter := activityFilter.getD .all
      work := { workers := s.workers, warnAbove := some s.warnAbove }
      skew := skew.getD (.start s.skewIterations s.useClockSkew)
      sinks := {
        spans := spans.filter fun _ => s.recordSpans
        durations := durations.filter fun _ => s.recordDurations
        marks := if s.recordMarks then some {} else none
        scope := s.scope } } }

def isActive (s : Session) : Bool := s.state == .active

def warn (s : Session) (w : Warning) : Session :=
  { s with engine := { s.engine with warnings := s.engine.warnings.push w } }

def runRoutines (s : Session) (routines : List Routine) : Session :=
  routines.foldl (fun s r =>
    let s := { s with routines := s.routines.push r }
    match r.ending with
    | .done => s
    | .failed cause => s.warn (.routineFailed cause)
    | .aborted => s.warn .routineAborted) s

def onSetup (s : Session) (r : Routine) : Session := { s with setup := s.setup ++ [r] }

def onShutdown (s : Session) (r : Routine) : Session := { s with teardown := s.teardown ++ [r] }

def enableDomain (s : Session) (d : Domain) : Session :=
  match s.tracer.enable d with
  | (.ok _, tracer) => { s with tracer }
  | (.error fault, tracer) => { s with tracer }.warn (.enableFailed fault)

/-- Also counts the refusals. -/
def disableDomain (sn : Session × Nat) (d : Domain) : Session × Nat :=
  match sn.1.tracer.disable d with
  | (.ok _, tracer) => ({ sn.1 with tracer }, sn.2)
  | (.error fault, tracer) => ({ sn.1 with tracer }.warn (.disableFailed fault), sn.2 + 1)

/-- Becomes active, whatever the tracer refuses; only a finalized session cannot. -/
def start (s : Session) : Except Fault Unit × Session :=
  match s.state with
  | .active => (.ok (), s)
  | .finalized => (.error .inactive, s)
  | .inactive =>
    let s := Domain.all.foldl enableDomain { s with state := .active }
    (.ok (), { s with setup := [] }.runRoutines s.setup)

/-- Gives up open calls, does all deferred work and disables everything. A second time nothing
happens. -/
def shutdown (s : Session) : ShutdownReport × Session :=
  if s.state = .finalized then ({}, s)
  else
    let (opened, registry) := s.engine.registry.drain
    let before := s.engine.work.executed
    let engine := { s.engine with registry }.stopWork
    let (s, failures) :=
      Domain.all.foldl disableDomain ({ s with state := .finalized, engine }, 0)
    let s := { s with teardown := [] }.runRoutines s.teardown
    ({ discarded := opened.length, flushed := engine.work.executed - before,
       disableFailures := failures }, { s with own? := none })

def close (s : Session) : Session := if s.isActive then s.shutdown.2 else s

def clocks (s : Session) : Clocks := ⟨s.hostClock, s.tracer.deviceClock s.hostClock⟩

def threadState (s : Session) (thread : ThreadId) : ThreadState :=
  .start thread s.settings.lapRetention

def onCall (s : Session) (t : ThreadState) (c : HostCall) (now : Nanos) :
    Outcome × ThreadState × Session :=
  if s.isActive then
    let (outcome, t, engine) := s.engine.onCall t c now
    (outcome, t, { s with engine })
  else (.ignored, t, s)

def inactiveReport (batch : List Completion) : DrainReport := { advanced := batch.length }

def onBatch (s : Session) (t : ThreadState) (batch : List Completion) :
    DrainReport × ThreadState × Session :=
  if s.isActive then
    let (report, t, engine) := s.engine.drain s.clocks t batch
    (report, t, { s with engine })
  else (inactiveReport batch, t, s)

def onUntracked (s : Session) (t : ThreadState) (batch : List Completion) :
    DrainReport × ThreadState × Session :=
  if s.isActive then
    let (report, engine) := s.engine.drainUntracked s.clocks t.thread batch
    (report, t, { s with engine })
  else (inactiveReport batch, t, s)

/-- Does something on the calling thread, which gets a number when it first comes up. -/
def onOwnThread {α : Type} (s : Session) (f : Session → ThreadState → α × ThreadState × Session) :
    α × Session :=
  let (t, s) := match s.own? with
    | some t => (t, s)
    | none => (s.threadState (UInt64.ofNat s.threads), { s with threads := s.threads + 1 })
  let (a, t, s) := f s t
  (a, { s with own? := some t })

def onOwnCall (s : Session) (c : HostCall) (now : Nanos) : Outcome × Session :=
  if s.isActive then s.onOwnThread fun s t => s.onCall t c now else (.ignored, s)

def onOwnBatch (s : Session) (batch : List Completion) : DrainReport × Session :=
  if s.isActive then s.onOwnThread fun s t => s.onBatch t batch else (inactiveReport batch, s)

def onOwnUntracked (s : Session) (batch : List Completion) : DrainReport × Session :=
  if s.isActive then s.onOwnThread fun s t => s.onUntracked t batch else (inactiveReport batch, s)

def flush (s : Session) (thread : ThreadId) : Session := { s with engine := s.engine.flush thread }

end Session

end SpanWeave
