import Mathlib.Logic.Function.Basic
import SpanWeave.Replay
import SpanWeave.Proofs.Engine.Steps
import SpanWeave.Proofs.Session.Shutdown

set_option autoImplicit false

/-!
# Runs

What a replay has to tell afterwards: the calls on the host with what became of them, and the
completions of batches with calls behind them, in the order in which they were taken. A property
of that history, the threads and the engine that the background and every step keep holds after
every list of events, whatever the workers' turns were.
-/
namespace SpanWeave

structure Answer where
  thread : ThreadId
  time : Nanos
  call : HostCall
  outcome : Outcome
  deriving DecidableEq, Repr, Inhabited

inductive Happening where
  | call (answer : Answer)
  /-- A completion of a batch that was drained on a thread. -/
  | completion (thread : ThreadId) (completion : Completion) (disposition : Disposition)
  deriving DecidableEq, Repr, Inhabited

def answers (history : List Happening) : List Answer :=
  history.filterMap fun
    | .call answer => some answer
    | .completion _ _ _ => none

@[simp] theorem answers_append (past later : List Happening) :
    answers (past ++ later) = answers past ++ answers later := List.filterMap_append

@[simp] theorem answers_call (a : Answer) : answers [.call a] = [a] := rfl

@[simp] theorem answers_completion (thread : ThreadId) (c : Completion) (d : Disposition) :
    answers [.completion thread c d] = [] := rfl

theorem answers_append_completion (past : List Happening) (thread : ThreadId) (c : Completion)
    (d : Disposition) : answers (past ++ [.completion thread c d]) = answers past := by
  rw [answers_append, answers_completion, List.append_nil]

/-- An open call is one of the thread that has moved, or was open before. -/
theorem mem_calls_update {ts : ThreadId → ThreadState} {thread other : ThreadId} {t : ThreadState}
    {call : OpenCall} (held : call ∈ (Function.update ts thread t other).calls) :
    other = thread ∧ call ∈ t.calls ∨ call ∈ (ts other).calls := by
  by_cases same : other = thread
  · subst same
    rw [Function.update_self] at held
    exact .inl ⟨rfl, held⟩
  · rw [Function.update_of_ne same] at held
    exact .inr held

theorem calls_update_sublist {ts : ThreadId → ThreadState} {thread : ThreadId} {t : ThreadState}
    (calls : t.calls.Sublist (ts thread).calls) (other : ThreadId) :
    (Function.update ts thread t other).calls.Sublist (ts other).calls := by
  by_cases same : other = thread
  · rw [same, Function.update_self]
    exact calls
  · simp [Function.update_of_ne same]

theorem Engine.DrainStep.calls_update {ts : ThreadId → ThreadState} {thread : ThreadId}
    {e e' : Engine} {offset : Int} {c : Completion} {d : Disposition} {t : ThreadState}
    (h : DrainStep e (ts thread) offset c d t e') (other : ThreadId) :
    (Function.update ts thread t other).calls = (ts other).calls := by
  by_cases same : other = thread
  · rw [same, Function.update_self, h.calls_eq]
  · rw [Function.update_of_ne same]

def Engine.completions (offset : Int) : List Completion → ThreadState → Engine → List Happening
  | [], _, _ => []
  | c :: cs, t, e =>
    let x := e.drainOne t offset c
    .completion t.thread c x.1 :: completions offset cs x.2.1 x.2.2

namespace Replay

def happenings (r : Replay) : RecordedEvent → List Happening
  | .call thread time c =>
    [.call ⟨thread, time.toNat, c,
      (r.session.onCall (r.threadState thread) c time.toNat).1⟩]
  | .batch thread cs =>
    if r.session.isActive then
      let asked := r.session.engine.askOffset r.session.clocks
      asked.2.completions asked.1 cs (r.threadState thread)
    else []
  | .untracked _ _ => []

def history (r : Replay) : List RecordedEvent → List Happening
  | [] => []
  | event :: events => r.happenings event ++ (r.apply event).history events

/-- The replay with the turns that its workers will take. -/
def scheduled (r : Replay) (turns : List (List Nat)) : Replay :=
  { r with session := { r.session with engine := { r.session.engine with
      work := { r.session.engine.work with turns } } } }

/-- A replay that has just been started under the settings, with any offset, any turns and filters
in any language of patterns. -/
def Started (s : Settings) (r : Replay) : Prop :=
  ∃ offset language turns fresh,
    Replay.start s offset language = .ok fresh ∧ r = fresh.scheduled turns

/-- Turns that the workers do take are among those they may take. -/
theorem Started.of_start {s : Settings} {offset : Option Int} {language : PatternLanguage}
    {r : Replay} (h : Replay.start s offset language = .ok r) : r.Started s :=
  ⟨offset, language, r.session.engine.work.turns, r, h, rfl⟩

/-- An active session whose threads are known under their own numbers. -/
structure Running (r : Replay) : Prop where
  active : r.session.state = .active
  ready : r.session.engine.Ready
  thread : ∀ thread, (r.threadState thread).thread = thread

/-- An active session in which no call was traced yet, whatever its settings and sinks are. -/
structure Unused (r : Replay) : Prop where
  running : r.Running
  idle : ∀ thread, (r.threadState thread).calls = []
  registry : r.session.engine.registry = {}

structure Fresh (s : Settings) (r : Replay) : Prop where
  running : r.Running
  threadState : ∀ thread, r.threadState thread = .start thread s.lapRetention
  registry : r.session.engine.registry = {}
  ids : r.session.engine.ids = {}
  calls : r.session.engine.calls = {}
  spans : r.session.engine.sinks.spans = if s.recordSpans then some {} else none
  marks : r.session.engine.sinks.marks = if s.recordMarks then some {} else none

theorem Fresh.unused {s : Settings} {r : Replay} (fresh : r.Fresh s) : r.Unused := by
  refine ⟨fresh.running, fun thread => ?_, fresh.registry⟩
  rw [fresh.threadState]
  rfl

theorem start_filters {s : Settings} {offset : Option Int} {language : PatternLanguage}
    {r : Replay} (h : Replay.start s offset language = .ok r) :
    ∃ callFilter activityFilter, Session.callFilterOf s language = .ok callFilter ∧
      s.activityFilter.mapM (NameFilter.ofExpression · language) = .ok activityFilter := by
  unfold Replay.start at h
  dsimp only at h
  cases built : Session.build s {} (.constant 0)
      (some (.fixed (if s.useClockSkew then offset.getD 0 else 0))) (some {}) (some {})
      language with
  | error fault =>
    rw [built] at h
    cases h
  | ok session => exact Session.build_filters built

theorem start_eq {s : Settings} {offset : Option Int} {language : PatternLanguage} {r : Replay}
    (h : Replay.start s offset language = .ok r) :
    (∃ callFilter activityFilter, r.session.engine =
      { callFilter := callFilter
        activityFilter := activityFilter
        work := { workers := s.workers, warnAbove := some s.warnAbove }
        skew := .fixed (if s.useClockSkew then offset.getD 0 else 0)
        sinks :=
          { spans := if s.recordSpans then some {} else none
            durations := if s.recordDurations then some {} else none
            marks := if s.recordMarks then some {} else none
            scope := s.scope } }) ∧
      r.session.state = .active ∧ r.session.settings = s ∧ r.threads = ∅ := by
  obtain ⟨callFilter, activityFilter, calls, activities⟩ := start_filters h
  unfold Replay.start Session.build at h
  rw [calls, activities] at h
  cases h
  refine ⟨⟨callFilter, activityFilter.getD .all, ?_⟩, rfl, rfl, rfl⟩
  cases s.recordSpans <;> cases s.recordDurations <;> rfl

theorem Started.fresh {s : Settings} {r : Replay} (h : r.Started s) : r.Fresh s := by
  obtain ⟨offset, language, turns, fresh, started, rfl⟩ := h
  obtain ⟨⟨callFilter, activityFilter, engine⟩, state, settings, threads⟩ := start_eq started
  have threadState : ∀ thread,
      (fresh.scheduled turns).threadState thread = .start thread s.lapRetention := by
    intro thread
    change fresh.threads.getD thread (.start thread fresh.session.settings.lapRetention) = _
    rw [threads, settings]
    exact Std.ExtTreeMap.getD_empty
  refine ⟨⟨state, ?_, fun thread => by rw [threadState]; rfl⟩, threadState, ?_, ?_, ?_, ?_, ?_⟩
  · change ({ fresh.session.engine.work with turns } : WorkQueue Deferred).All Deferred.IsLoose
    rw [engine]
    exact ⟨fun p member => absurd member List.not_mem_nil,
      fun d member => absurd member (Array.not_mem_empty d)⟩
  all_goals
    simp only [scheduled, engine]

def moved (r : Replay) (t : ThreadState) (e : Engine) (drains : DrainReport) : Replay :=
  { r.keep t { r.session with engine := e } with drains }

theorem threadState_moved (r : Replay) {t : ThreadState} {thread : ThreadId}
    (known : t.thread = thread) (e : Engine) (drains : DrainReport) :
    (r.moved t e drains).threadState = Function.update r.threadState thread t := by
  subst known
  funext thread
  change (r.threads.insert t.thread t).getD thread (r.session.threadState thread) = _
  by_cases same : thread = t.thread
  · subst same
    rw [Function.update_self, Std.ExtTreeMap.getD_insert_self]
  · rw [Function.update_of_ne same, Std.ExtTreeMap.getD_insert]
    simp only [Std.LawfulEqCmp.compare_eq_iff_eq, Ne.symm same, ↓reduceIte]
    rfl

theorem Running.moved {r : Replay} (running : r.Running) {t : ThreadState} {thread : ThreadId}
    (known : t.thread = thread) {e : Engine} (ready : e.Ready) (drains : DrainReport) :
    (r.moved t e drains).Running := by
  refine ⟨running.active, ready, fun other => ?_⟩
  rw [threadState_moved r known]
  by_cases same : other = thread
  · rw [same, Function.update_self, known]
  · rw [Function.update_of_ne same, running.thread]

theorem history_append (r : Replay) (past later : List RecordedEvent) :
    r.history (past ++ later) = r.history past ++ (r.all past).history later := by
  induction past generalizing r with
  | nil => rfl
  | cons event past ih =>
    simp only [List.cons_append, history, ih, List.append_assoc]
    rfl

theorem all_append (r : Replay) (past later : List RecordedEvent) :
    r.all (past ++ later) = (r.all past).all later := List.foldl_append

structure Kept (Inv : List Happening → (ThreadId → ThreadState) → Engine → Prop) : Prop where
  background : ∀ {past ts e e'}, Inv past ts e → Engine.Background e e' → Inv past ts e'
  host : ∀ {past ts e thread now c outcome t e'}, Inv past ts e → (ts thread).thread = thread →
    Engine.HostStep e (ts thread) c now outcome t e' →
    Inv (past ++ [.call ⟨thread, now, c, outcome⟩]) (Function.update ts thread t) e'
  completion : ∀ {past ts e thread offset c d t e'}, Inv past ts e → (ts thread).thread = thread →
    Engine.DrainStep e (ts thread) offset c d t e' →
    Inv (past ++ [.completion thread c d]) (Function.update ts thread t) e'

namespace Kept
variable {Inv : List Happening → (ThreadId → ThreadState) → Engine → Prop}

theorem batch (kept : Kept Inv) (thread : ThreadId) (offset : Int) (cs : List Completion)
    {past : List Happening} {ts : ThreadId → ThreadState} {e : Engine} (report : DrainReport)
    (known : (ts thread).thread = thread) (ready : e.Ready) (h : Inv past ts e) :
    let x := cs.foldl (fun x c => (x.1.add (x.2.2.drainOne x.2.1 offset c).1,
      (x.2.2.drainOne x.2.1 offset c).2)) (report, ts thread, e)
    Inv (past ++ e.completions offset cs (ts thread)) (Function.update ts thread x.2.1) x.2.2 ∧
      x.2.1.thread = thread ∧ x.2.2.Ready := by
  induction cs generalizing past ts e report with
  | nil =>
    refine ⟨?_, known, ready⟩
    simpa only [List.foldl_nil, Engine.completions, List.append_nil, Function.update_eq_self]
      using h
  | cons c cs ih =>
    obtain ⟨step, ready'⟩ := Engine.drainOne_step ready (ts thread) offset c
    have after := kept.completion h known step
    have same : (Function.update ts thread (e.drainOne (ts thread) offset c).2.1 thread).thread =
        thread := by rw [Function.update_self, step.thread_eq, known]
    have ih := ih (report.add (e.drainOne (ts thread) offset c).1) same ready' after
    simp only [Function.update_self, Function.update_idem, List.append_assoc,
      List.singleton_append] at ih
    simpa only [List.foldl_cons, Engine.completions, known] using ih

theorem drain (kept : Kept Inv) (thread : ThreadId) (clocks : Clocks) (cs : List Completion)
    {past : List Happening} {ts : ThreadId → ThreadState} {e : Engine}
    (known : (ts thread).thread = thread) (ready : e.Ready) (h : Inv past ts e) :
    let asked := e.askOffset clocks
    let x := e.drain clocks (ts thread) cs
    Inv (past ++ asked.2.completions asked.1 cs (ts thread)) (Function.update ts thread x.2.1)
      x.2.2 ∧ x.2.1.thread = thread ∧ x.2.2.Ready := by
  obtain ⟨asked, ready⟩ := Engine.Background.askOffset ready clocks
  obtain ⟨after, known, ready⟩ := kept.batch thread (e.askOffset clocks).1 cs {} known ready
    (kept.background h asked)
  exact ⟨kept.background after (.books _ _), known, ready⟩

end Kept

theorem apply_call {r : Replay} (active : r.session.state = .active) (thread : ThreadId)
    (time : UInt64) (c : HostCall) :
    let x := r.session.engine.onCall (r.threadState thread) c time.toNat
    r.apply (.call thread time c) = r.moved x.2.1 x.2.2 r.drains ∧
      r.happenings (.call thread time c) = [.call ⟨thread, time.toNat, c, x.1⟩] := by
  have active : r.session.isActive = true := by simp only [Session.isActive, active]; rfl
  unfold apply happenings
  simp only [RecordedEvent.thread, Session.onCall, active, ↓reduceIte]
  exact ⟨rfl, trivial⟩

theorem apply_batch {r : Replay} (active : r.session.state = .active) (thread : ThreadId)
    (cs : List Completion) :
    let asked := r.session.engine.askOffset r.session.clocks
    let x := r.session.engine.drain r.session.clocks (r.threadState thread) cs
    r.apply (.batch thread cs) = r.moved x.2.1 x.2.2 (r.drains.merge x.1) ∧
      r.happenings (.batch thread cs) = asked.2.completions asked.1 cs (r.threadState thread) := by
  have active : r.session.isActive = true := by simp only [Session.isActive, active]; rfl
  unfold apply happenings
  simp only [RecordedEvent.thread, Session.onBatch, active, ↓reduceIte]
  exact ⟨rfl, trivial⟩

theorem apply_untracked {r : Replay} (active : r.session.state = .active) {thread : ThreadId}
    (known : (r.threadState thread).thread = thread) (cs : List Completion) :
    let x := r.session.engine.drainUntracked r.session.clocks thread cs
    r.apply (.untracked thread cs) =
      r.moved (r.threadState thread) x.2 (r.drains.merge x.1) := by
  have active : r.session.isActive = true := by simp only [Session.isActive, active]; rfl
  unfold apply
  simp only [RecordedEvent.thread, Session.onUntracked, active, ↓reduceIte, known]
  rfl

theorem session_apply (r : Replay) (event : RecordedEvent) :
    ∃ e, (r.apply event).session = { r.session with engine := e } := by
  unfold apply
  cases event with
  | call thread time c =>
    dsimp only
    unfold Session.onCall
    by_cases active : r.session.isActive = true
    · rw [if_pos active]
      exact ⟨_, rfl⟩
    · rw [if_neg active]
      exact ⟨r.session.engine, rfl⟩
  | batch thread cs =>
    dsimp only
    unfold Session.onBatch
    by_cases active : r.session.isActive = true
    · rw [if_pos active]
      exact ⟨_, rfl⟩
    · rw [if_neg active]
      exact ⟨r.session.engine, rfl⟩
  | untracked thread cs =>
    dsimp only
    unfold Session.onUntracked
    by_cases active : r.session.isActive = true
    · rw [if_pos active]
      exact ⟨_, rfl⟩
    · rw [if_neg active]
      exact ⟨r.session.engine, rfl⟩

/-- A run moves nothing of the session but its engine. -/
theorem session_all (r : Replay) (events : List RecordedEvent) :
    ∃ e, (r.all events).session = { r.session with engine := e } := by
  induction events generalizing r with
  | nil => exact ⟨r.session.engine, rfl⟩
  | cons event events ih =>
    obtain ⟨e, first⟩ := r.session_apply event
    obtain ⟨e', rest⟩ := ih (r.apply event)
    rw [first] at rest
    exact ⟨e', rest⟩

theorem Kept.apply {Inv : List Happening → (ThreadId → ThreadState) → Engine → Prop}
    (kept : Kept Inv) {r : Replay} (running : r.Running) {past : List Happening}
    (h : Inv past r.threadState r.session.engine) (event : RecordedEvent) :
    Inv (past ++ r.happenings event) (r.apply event).threadState (r.apply event).session.engine ∧
      (r.apply event).Running := by
  cases event with
  | call thread time c =>
    obtain ⟨applied, happened⟩ := apply_call running.active thread time c
    obtain ⟨step, ready⟩ := Engine.onCall_step running.ready (r.threadState thread) c
      time.toNat
    have after := kept.host h (running.thread thread) step
    have known := step.thread_eq.trans (running.thread thread)
    rw [applied, happened, threadState_moved r known]
    exact ⟨after, running.moved known ready _⟩
  | batch thread cs =>
    obtain ⟨applied, happened⟩ := apply_batch running.active thread cs
    obtain ⟨after, known, ready⟩ := kept.drain thread r.session.clocks cs (running.thread thread)
      running.ready h
    rw [applied, happened, threadState_moved r known]
    exact ⟨after, running.moved known ready _⟩
  | untracked thread cs =>
    obtain ⟨after, ready⟩ := Engine.Background.drainUntracked running.ready r.session.clocks
      thread cs
    have known := running.thread thread
    rw [apply_untracked running.active (running.thread thread), threadState_moved r known,
      Function.update_eq_self]
    refine ⟨?_, running.moved known ready _⟩
    rw [happenings, List.append_nil]
    exact kept.background h after

/-- What every step keeps, every run keeps. -/
theorem Kept.all {Inv : List Happening → (ThreadId → ThreadState) → Engine → Prop}
    (kept : Kept Inv) {r : Replay} (running : r.Running)
    (h : Inv [] r.threadState r.session.engine) (events : List RecordedEvent) :
    Inv (r.history events) (r.all events).threadState (r.all events).session.engine ∧
      (r.all events).Running := by
  -- over any past, since each event adds to the one that the invariant is about
  have run : ∀ (events : List RecordedEvent) {r : Replay} {past : List Happening}, r.Running →
      Inv past r.threadState r.session.engine →
      Inv (past ++ r.history events) (r.all events).threadState (r.all events).session.engine ∧
        (r.all events).Running := by
    intro events
    induction events with
    | nil =>
      intro r past running h
      rw [history, List.append_nil]
      exact ⟨h, running⟩
    | cons event events ih =>
      intro r past running h
      obtain ⟨after, running'⟩ := kept.apply running h event
      obtain ⟨later, running''⟩ := ih running' after
      rw [List.append_assoc] at later
      exact ⟨later, running''⟩
  exact run events running h

end Replay

end SpanWeave
