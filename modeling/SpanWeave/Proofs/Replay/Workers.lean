import SpanWeave.Proofs.Replay.Closing
import SpanWeave.Proofs.Replay.Samples

set_option autoImplicit false

/-!
# Workers

A run with workers that take what waits whenever they like: between two events, and between any two
things that one event does. Without a timeline it makes no difference to the result of a replay how
many workers there are and when they take their turns, but for the order of the spans.
-/
namespace SpanWeave

namespace Replay

def onBench (r : Replay) (b : Bench) : Replay :=
  r.onEngine { r.session.engine with work := b.work, sinks := b.sinks }

/-- The events are taken in order. All the while workers may take what is first in their lanes. -/
inductive Runs : Replay → List RecordedEvent → Replay → Prop
  | done (r : Replay) : Runs r [] r
  | event {r r' : Replay} {event : RecordedEvent} {events : List RecordedEvent} {b : Bench}
      (performed : r.session.engine.bench.Performs
        (r.desk.deeds r.session.engine.setting event.steps) b)
      (later : Runs ((r.apply event).onBench b) events r') : Runs r (event :: events) r'
  | worker {r r' : Replay} {events : List RecordedEvent} {lane : Nat} {work : WorkQueue Deferred}
      (taken : r.session.engine.work.step? lane = some work)
      (later : Runs (r.onEngine (r.session.engine.settle work)) events r') : Runs r events r'

/-- A replay whose queue knows the turns of its workers is one that the workers run. -/
theorem Live.runs_all {r : Replay} (live : r.Live) (events : List RecordedEvent) :
    r.Runs events (r.all events) := by
  induction events generalizing r with
  | nil => exact .done r
  | cons event events ih =>
    obtain ⟨desked, live'⟩ := live.desked event
    refine .event (b := (r.apply event).session.engine.bench) ?_ (ih live')
    rw [desked.bench]
    exact Bench.performs_actAll _ _

theorem Runs.append {r r' r'' : Replay} {past later : List RecordedEvent} (h : r.Runs past r')
    (k : r'.Runs later r'') : r.Runs (past ++ later) r'' := by
  induction h with
  | done => exact k
  | event performed _ ih => exact .event performed (ih k)
  | worker taken _ ih => exact .worker taken (ih k)

def deskAfter (r : Replay) (events : List RecordedEvent) : Desk :=
  r.desk.run r.session.engine.setting (events.flatMap RecordedEvent.steps)

def deeds (r : Replay) (events : List RecordedEvent) : List Deed :=
  r.desk.deeds r.session.engine.setting (events.flatMap RecordedEvent.steps)

/-- What the replay comes to: the desk does not depend on the workers, and what the sinks will show
depends on the events only. -/
structure Comes (r : Replay) (events : List RecordedEvent) (r' : Replay) : Prop where
  live : r'.Live
  desk : r'.desk = r.deskAfter events
  bench : r.session.engine.bench.Advances r'.session.engine.bench
    ((r.deeds events).flatMap Deed.prompt) ((r.deeds events).flatMap Deed.given).length

theorem Live.comes {r r' : Replay} (live : r.Live) (tidy : r.session.engine.bench.Tidy)
    {events : List RecordedEvent} (runs : r.Runs events r') : r.Comes events r' := by
  -- by induction on the run: the desk moves with the events only, and a worker only advances the
  -- bench, by nothing that the caught-up view would show
  induction runs with
  | done r => exact ⟨live, rfl, .refl tidy⟩
  | @event r r' event events b performed later ih =>
    obtain ⟨desked, live'⟩ := live.desked event
    have went := tidy.performs performed
    have setting :
        ((r.apply event).onBench b).session.engine.setting = r.session.engine.setting := by
      have listens : b.sinks.durations.isSome = r.session.engine.sinks.durations.isSome :=
        performed.listens
      refine Eq.trans ?_ desked.setting
      have same := congrArg Setting.listens desked.setting
      change (Setting.mk _ _ _ b.sinks.durations.isSome) = Setting.mk _ _ _ _
      rw [listens]
      exact congrArg (Setting.mk _ _ _) same.symm
    have rest := ih ⟨live'.active, live'.thread, live'.measured⟩ went.tidy
    have turned : ((r.apply event).onBench b).desk = r.desk.run _ event.steps := desked.desk
    have desk : r'.desk = r.deskAfter (event :: events) := by
      rw [rest.desk, deskAfter, deskAfter, setting, turned, List.flatMap_cons, Desk.run_append]
    have deeds : r.deeds (event :: events) =
        r.desk.deeds r.session.engine.setting event.steps ++
          ((r.apply event).onBench b).deeds events := by
      rw [Replay.deeds, Replay.deeds, setting, turned, List.flatMap_cons, Desk.deeds_append]
    refine ⟨rest.live, desk, ?_⟩
    rw [deeds, List.flatMap_append, List.flatMap_append, List.length_append]
    exact went.trans rest.bench
  | @worker r r' events lane work taken later ih =>
    have went := tidy.worker taken
    have listens : (r.session.engine.bench.settle work).sinks.durations.isSome =
      r.session.engine.sinks.durations.isSome := 
        Bench.kept_settle (fun s n _ => s.listens_take n) rfl work
    have setting : (r.onEngine (r.session.engine.settle work)).session.engine.setting =
        r.session.engine.setting := congrArg (Setting.mk _ _ _) listens
    have rest := ih ⟨live.active, live.thread, live.measured⟩ went.tidy
    have desk := rest.desk
    have bench := went.trans rest.bench
    rw [List.nil_append, Nat.zero_add] at bench
    rw [deskAfter, setting] at desk
    rw [deeds, setting] at bench
    exact ⟨rest.live, desk, bench⟩

/-- Two results that tell the same, but for the order of their spans. -/
structure Alike (a b : ReplayResult) : Prop where
  spans : a.spans.Perm b.spans
  durations : a.durations = b.durations
  path : a.path = b.path
  defects : a.defects = b.defects
  drains : a.drains = b.drains
  discarded : a.shutdown.discarded = b.shutdown.discarded
  registry : a.session.engine.registry = b.session.engine.registry
  calls : a.session.engine.calls = b.session.engine.calls
  submitted : a.session.engine.work.submitted = b.session.engine.work.submitted
  executed : a.session.engine.work.executed = a.session.engine.work.submitted ∧
    b.session.engine.work.executed = b.session.engine.work.submitted
  pending : a.session.engine.work.pending = 0 ∧ b.session.engine.work.pending = 0

theorem Closing.alike {d : Desk} {v : Sinks.View} {given : Nat} {a b : ReplayResult}
    (h : Closing d v given a) (k : Closing d v given b) : Alike a b where
  spans := Multiset.coe_eq_coe.mp (h.spans.trans k.spans.symm)
  durations := h.durations.trans k.durations.symm
  path := Except.ok.inj (h.path.symm.trans k.path)
  defects := h.defects.trans k.defects.symm
  drains := h.drains.trans k.drains.symm
  discarded := h.discarded.trans k.discarded.symm
  registry := h.ends.registry.trans k.ends.registry.symm
  calls := h.ends.calls.trans k.ends.calls.symm
  submitted := h.ends.submitted.trans k.ends.submitted.symm
  executed := ⟨h.ends.executed.trans h.ends.submitted.symm,
    k.ends.executed.trans k.ends.submitted.symm⟩
  pending := ⟨h.ends.pending, k.ends.pending⟩

def withWorkers (r : Replay) (n : Nat) : Replay :=
  { r with session := { r.session with
      settings := { r.session.settings with workers := n }
      engine := { r.session.engine with work := { r.session.engine.work with workers := n } } } }

theorem start_workers (s : Settings) (n : Nat) (offset : Option Int)
    (language : PatternLanguage) : Replay.start { s with workers := n } offset language =
      (Replay.start s offset language).map (·.withWorkers n) := by
  have asked : Session.callFilterOf { s with workers := n } language =
      Session.callFilterOf s language := rfl
  unfold Replay.start Session.build
  rw [asked]
  cases Session.callFilterOf s language with
  | error fault => rfl
  | ok callFilter =>
    cases s.activityFilter.mapM (NameFilter.ofExpression · language) with
    | error fault => rfl
    | ok activityFilter => rfl

/-- Without a timeline a replay with workers, whatever they take and when, comes to the same result
as one without. -/
theorem workers_change_nothing {s : Settings} (untimed : s.timeline = false) {n : Nat}
    {offset : Option Int} {language : PatternLanguage} {r : Replay}
    (start : Replay.start { s with workers := n } offset language = .ok r) :
    ∃ alone, Replay.start { s with workers := 0 } offset language = .ok alone ∧
      ∀ (turns : List (List Nat)) (events : List RecordedEvent) (r' : Replay),
        (r.scheduled turns).Runs events r' → ∃ result expected,
          r'.finish = .ok result ∧ (alone.all events).finish = .ok expected ∧
          Alike result expected := by
  have start' : Replay.start { s with workers := 0 } offset language = .ok (r.withWorkers 0) := by
    have same := start_workers { s with workers := n } 0 offset language
    rw [start] at same
    exact same
  refine ⟨r.withWorkers 0, start', fun turns events r' runs => ?_⟩
  have started : (r.scheduled turns).Started { s with workers := n } :=
    ⟨offset, language, turns, r, start, rfl⟩
  have started' := Started.of_start start'
  have comes := started.live.comes (started.tidy untimed) runs
  have comes' := started'.live.comes (started'.tidy untimed) (started'.live.runs_all events)
  have desk : r'.desk = ((r.withWorkers 0).all events).desk := comes.desk.trans comes'.desk.symm
  have view : r'.caughtUp = ((r.withWorkers 0).all events).caughtUp :=
    comes.bench.caughtUp.trans comes'.bench.caughtUp.symm
  have given : r'.given = ((r.withWorkers 0).all events).given :=
    comes.bench.submitted.trans comes'.bench.submitted.symm
  obtain ⟨path, found⟩ := started'.path_caughtUp comes'.live comes'.bench.tidy
  obtain ⟨expected, finished', closing'⟩ := comes'.live.closing comes'.bench.tidy found
  rw [← view] at found
  obtain ⟨result, finished, closing⟩ := comes.live.closing comes.bench.tidy found
  rw [desk, view, given] at closing
  exact ⟨result, expected, finished, finished', closing.alike closing'⟩

/-- Of two workers one does its job before the next event, and the other one leaves its job to the
shutdown. -/
theorem workers_change_nothing_of_idle_worker : ({} : Settings).timeline = false ∧
    ∃ r, Replay.start { ({} : Settings) with workers := 2 } none = .ok r ∧
      ∃ alone, Replay.start { ({} : Settings) with workers := 0 } none = .ok alone ∧
      let events : List RecordedEvent :=
        [.call 1 10 { HostCall.enter "hipLaunchKernel" 7 with kernel := some "sgemm" },
          .batch 2 [.ofOp 7 .dispatch 100 200], .untracked 2 [.ofOp 0 .barrier 300 330]]
      ∃ r' result expected, r.Runs events r' ∧ r'.session.engine.work.executed = 1 ∧
        r'.session.engine.work.pending = 1 ∧ r'.finish = .ok result ∧
        (alone.all events).finish = .ok expected ∧ Alike result expected := by
  obtain ⟨r, start⟩ : ∃ r, Replay.start { ({} : Settings) with workers := 2 } none = .ok r :=
    ⟨_, rfl⟩
  obtain ⟨alone, start', same⟩ := workers_change_nothing (s := {}) rfl start
  refine ⟨rfl, r, start, alone, start', ?_⟩
  intro events
  have started := Started.of_start start
  have launched := started.live.runs_all (events.take 2)
  let r₂ := r.all (events.take 2)
  let work := (r₂.session.engine.work.step? 1).getD r₂.session.engine.work
  have taken : r₂.session.engine.work.step? 1 = some work := by
    have waits : (r₂.session.engine.work.step? 1).isSome = true := by
      cases start
      decide +kernel
    obtain ⟨first, taken⟩ := Option.isSome_iff_exists.mp waits
    exact taken.trans (congrArg (fun x => some (x.getD r₂.session.engine.work)) taken).symm
  have live := (started.live.comes (started.tidy rfl) launched).live
  let r₃ := r₂.onEngine (r₂.session.engine.settle work)
  have live₃ : r₃.Live := ⟨live.active, live.thread, live.measured⟩
  have runs : r.Runs events (r₃.all (events.drop 2)) :=
    launched.append (.worker taken (live₃.runs_all (events.drop 2)))
  obtain ⟨result, expected, finished, finished', alike⟩ :=
    same r.session.engine.work.turns events _ runs
  refine ⟨_, result, expected, runs, ?_, ?_, finished, finished', alike⟩
  all_goals
    cases start
    decide +kernel

end Replay

end SpanWeave
