import SpanWeave.Session
import SpanWeave.Recorded
import SpanWeave.Forest.Assembly
import SpanWeave.Forest.Path

set_option autoImplicit false

/-!
# Replay

Recorded events drive a session of their own; each recorded thread keeps its number. The offset of
device times is given, since recorded times cannot be measured again.
-/
namespace SpanWeave

structure Replay where
  session : Session
  threads : Std.ExtTreeMap ThreadId ThreadState := ∅
  drains : DrainReport := {}

structure ReplayResult where
  /-- By begin time, then depth. -/
  spans : List Span
  durations : Durations
  path : Option CriticalPath
  defects : List Defect
  drains : DrainReport
  shutdown : ShutdownReport
  session : Session

namespace Replay

def start (s : Settings) (offset : Option Int) (language : PatternLanguage := Pattern.language) :
    Except Fault Replay := do
  let skew := Skew.fixed (if s.useClockSkew then offset.getD 0 else 0)
  let session ← Session.build s {} (.constant 0) skew (some {}) (some {}) language
  let (started, session) := session.start
  started
  return { session }

def threadState (r : Replay) (thread : ThreadId) : ThreadState :=
  r.threads.getD thread (r.session.threadState thread)

def keep (r : Replay) (t : ThreadState) (session : Session) : Replay :=
  { r with session, threads := r.threads.insert t.thread t }

def apply (r : Replay) (event : RecordedEvent) : Replay :=
  let t := r.threadState event.thread
  match event with
  | .call _ time c =>
    let (_, t, session) := r.session.onCall t c time.toNat
    r.keep t session
  | .batch _ cs =>
    let (report, t, session) := r.session.onBatch t cs
    { r.keep t session with drains := r.drains.merge report }
  | .untracked _ cs =>
    let (report, t, session) := r.session.onUntracked t cs
    { r.keep t session with drains := r.drains.merge report }

def comesBefore (a b : Span) : Bool :=
  a.beginsAt < b.beginsAt || (a.beginsAt == b.beginsAt && a.depth ≤ b.depth)

def finish (r : Replay) : Except PathFault ReplayResult := do
  let (shutdown, session) := r.session.shutdown
  let forest := session.engine.sinks.marks.map (·.forest)
  let path ← forest.mapM (·.criticalPath)
  let defects := (forest.map (·.defects)).getD []
  let spans := ((session.engine.sinks.spans.map (·.finished.toList)).getD []).mergeSort comesBefore
  return {
    spans
    durations := session.engine.sinks.durations.getD {}
    path
    defects
    drains := r.drains
    shutdown
    session := defects.foldl (fun s _ => s.warn .forestDefect) session }

def all (r : Replay) (events : List RecordedEvent) : Replay := events.foldl apply r

end Replay

end SpanWeave
