import SpanWeave.Proofs.Replay.Desk
import SpanWeave.Proofs.Replay.Soundness

set_option autoImplicit false

/-!
# Closing

What the result of a replay tells. The counts are those of the desk. Without a timeline the spans,
the durations and the marks are those that the sinks show when all deferred work is done.
-/
namespace SpanWeave

namespace Replay

/-! ## Whatever the timeline -/

theorem warned_eq (s : Session) (defects : List Defect) : ∃ warnings,
    defects.foldl (fun s _ => s.warn .forestDefect) s =
      { s with engine := { s.engine with warnings } } := by
  induction defects generalizing s with
  | nil => exact ⟨s.engine.warnings, rfl⟩
  | cons d defects ih =>
    obtain ⟨warnings, rest⟩ := ih (s.warn .forestDefect)
    exact ⟨warnings, rest⟩

/-- What a result tells: all of it is read off the sinks, except for what was counted. -/
structure Told (r : Replay) (result : ReplayResult) : Prop where
  spans : result.spans = ((result.session.engine.sinks.spans.map (·.finished.toList)).getD
    []).mergeSort comesBefore
  durations : result.durations = result.session.engine.sinks.durations.getD {}
  path : (result.session.engine.sinks.marks.map (·.forest)).mapM (·.criticalPath) = .ok result.path
  defects : result.defects =
    ((result.session.engine.sinks.marks.map (·.forest)).map (·.defects)).getD []
  drains : result.drains = r.drains
  shutdown : result.shutdown =
    { discarded := r.session.engine.registry.owners.toList.length
      flushed := r.session.stopped.work.executed - r.session.engine.work.executed
      disableFailures := if r.session.tracer.refusesDisable then Domain.all.length else 0 }
  engine : ∃ warnings, result.session.engine = { r.session.stopped with warnings }

theorem Live.told {r : Replay} (live : r.Live) {path : Option CriticalPath}
    (found : (r.session.stopped.sinks.marks.map (·.forest)).mapM (·.criticalPath) = .ok path) :
    ∃ result, r.finish = .ok result ∧ r.Told result := by
  have unfinished : r.session.state ≠ .finalized := by
    rw [live.active]
    decide
  have sinks := Session.sinks_shutdown live.active
  obtain ⟨tracer, warnings, ended, _, _⟩ := Session.shutdown_eq unfinished
  rw [← sinks] at found
  let defects := ((r.session.shutdown.2.engine.sinks.marks.map (·.forest)).map (·.defects)).getD []
  obtain ⟨later, warned⟩ := warned_eq r.session.shutdown.2 defects
  have same : (defects.foldl (fun s _ => s.warn .forestDefect) r.session.shutdown.2).engine =
      { r.session.stopped with warnings := later } := by
    rw [warned, ended]
  refine ⟨_, finish_eq found, ?_, ?_, ?_, ?_, rfl, Session.report_shutdown unfinished, later, same⟩
  all_goals
    dsimp only
    rw [warned]
  exact found

/-! ## Without a timeline -/

/-- What a shutdown leaves of the books and of the sinks, when `given` jobs were handed in. -/
structure Ends (d : Desk) (v : Sinks.View) (given : Nat) (e : Engine) : Prop where
  view : e.sinks.view = v
  registry : e.registry = { counts := d.counts.registry }
  calls : e.calls = d.counts.calls
  submitted : e.work.submitted = given
  executed : e.work.executed = given
  failed : e.work.failed = 0
  pending : e.work.pending = 0

structure Closing (d : Desk) (v : Sinks.View) (given : Nat) (result : ReplayResult) : Prop where
  spans : (result.spans : Multiset Span) = (v.spans.map (·.finished)).getD 0
  durations : result.durations = v.durations.getD {}
  path : (v.marks.map (·.forest)).mapM (·.criticalPath) = .ok result.path
  defects : result.defects = ((v.marks.map (·.forest)).map (·.defects)).getD []
  drains : result.drains = d.counts.drains
  discarded : result.shutdown.discarded = d.owners.toList.length
  ends : Ends d v given result.session.engine

def caughtUp (r : Replay) : Sinks.View := r.session.engine.bench.caughtUp

def given (r : Replay) : Nat := r.session.engine.work.submitted

theorem ends_stopped {r : Replay} (tidy : r.session.engine.bench.Tidy) :
    Ends r.desk r.caughtUp r.given r.session.stopped := by
  obtain ⟨view, submitted, executed, pending, failed⟩ := tidy.stop
  exact ⟨view, rfl, rfl, submitted, executed, failed, pending⟩

/-- A replay comes to a result as soon as the critical path is found. -/
theorem Live.closing {r : Replay} (live : r.Live) (tidy : r.session.engine.bench.Tidy)
    {path : Option CriticalPath}
    (found : (r.caughtUp.marks.map (·.forest)).mapM (·.criticalPath) = .ok path) :
    ∃ result, r.finish = .ok result ∧ Closing r.desk r.caughtUp r.given result := by
  obtain ⟨view, registry, calls, submitted, executed, failed, pending⟩ := ends_stopped tidy
  rw [← congrArg Sinks.View.marks view] at found
  obtain ⟨result, finished, told⟩ := live.told found
  obtain ⟨warnings, engine⟩ := told.engine
  have sinks : result.session.engine.sinks.view = r.caughtUp := by
    rw [engine]
    exact view
  have marks : result.session.engine.sinks.marks = r.caughtUp.marks :=
    congrArg Sinks.View.marks sinks
  refine ⟨result, finished, ?_, ?_, ?_, ?_, told.drains, ?_, ?_⟩
  · rw [told.spans, ← congrArg Sinks.View.spans sinks]
    refine (Multiset.coe_eq_coe.mpr (List.mergeSort_perm _ _)).trans ?_
    change _ = ((result.session.engine.sinks.spans.map (·.view)).map (·.finished)).getD 0
    cases result.session.engine.sinks.spans <;> rfl
  · rw [told.durations, ← congrArg Sinks.View.durations sinks]
    rfl
  · rw [← marks]
    exact told.path
  · rw [told.defects, marks]
  · rw [told.shutdown]
    rfl
  · rw [engine]
    exact ⟨view, registry, calls, submitted, executed, failed, pending⟩

/-! ## From the start -/

theorem Started.live {s : Settings} {r : Replay} (started : r.Started s) : r.Live := by
  have running := started.fresh.running
  obtain ⟨offset, language, turns, fresh, start, rfl⟩ := started
  obtain ⟨⟨callFilter, activityFilter, engine⟩, _⟩ := start_eq start
  refine ⟨running.active, running.thread, ?_⟩
  change fresh.session.engine.skew.measured.isSome = true
  rw [engine]
  rfl

/-- Every run comes to a result. -/
theorem Started.told {s : Settings} {r : Replay} (started : r.Started s)
    (events : List RecordedEvent) :
    ∃ result, (r.all events).finish = .ok result ∧ (r.all events).Told result := by
  have live := (started.live.desked_all events).2
  obtain ⟨path, found⟩ := started.path_found events
  rw [Session.sinks_shutdown live.active] at found
  exact live.told found

theorem Started.tidy {s : Settings} {r : Replay} (started : r.Started s)
    (untimed : s.timeline = false) : r.session.engine.bench.Tidy := by
  obtain ⟨offset, language, turns, fresh, start, rfl⟩ := started
  obtain ⟨⟨callFilter, activityFilter, engine⟩, _⟩ := start_eq start
  unfold scheduled
  rw [engine]
  refine ⟨untimed, rfl, rfl, ⟨rfl, rfl⟩, ⟨?_, rfl, rfl, ?_⟩⟩
  · exact List.forall_mem_nil _
  · exact List.forall_mem_nil _

theorem Started.path_caughtUp {s : Settings} {r : Replay} (started : r.Started s)
    {events : List RecordedEvent} (live : (r.all events).Live)
    (tidy : (r.all events).session.engine.bench.Tidy) : ∃ path,
      ((r.all events).caughtUp.marks.map (·.forest)).mapM (·.criticalPath) = .ok path := by
  obtain ⟨path, found⟩ := started.path_found events
  refine ⟨path, ?_⟩
  rw [Session.sinks_shutdown live.active] at found
  rw [← (ends_stopped tidy).view]
  exact found

end Replay

end SpanWeave
