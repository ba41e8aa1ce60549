import SpanWeave.Proofs.Replay.Begins
import SpanWeave.Proofs.Replay.Soundness

set_option autoImplicit false

/-!
# Samples of a run

Over a whole run the sink for durations hears each sample that the history leaves once, and each
sample of work with no call behind it once, and nothing else. What still waits for its thread when
the events are over is told by the shutdown.
-/
namespace SpanWeave

def looseSamples (filter : NameFilter) (offset : Int) (events : List RecordedEvent) :
    List Sample :=
  events.flatMap fun
    | .untracked _ cs => cs.filterMap (·.looseSample? filter offset)
    | _ => []

theorem looseSamples_cons (filter : NameFilter) (offset : Int) (event : RecordedEvent)
    (events : List RecordedEvent) : looseSamples filter offset (event :: events) =
      looseSamples filter offset [event] ++ looseSamples filter offset events := by
  simp only [looseSamples, List.flatMap_cons, List.flatMap_nil, List.append_nil]

namespace Replay

def onEngine (r : Replay) (e : Engine) : Replay :=
  { r with session := { r.session with engine := e } }

def into (r : Replay) (d : Durations) (scope : Scope) : Replay :=
  r.onEngine (r.session.engine.into d scope)

/-- Over the events the replay is due these samples: it tells them to whoever listens, or leaves
them to the queue. -/
structure Tells (r : Replay) (events : List RecordedEvent) (due : List Sample) : Prop where
  told : ∃ told, (∀ d scope, (r.into d scope).all events =
      (r.all events).into (d.recordAll scope told) scope) ∧
    (told ++ (r.all events).session.engine.owed).Perm (r.session.engine.owed ++ due)
  listening : (r.all events).session.engine.Listening
  activityFilter : (r.all events).session.engine.activityFilter = r.session.engine.activityFilter
  skew : (r.all events).session.engine.skew = r.session.engine.skew

namespace Tells
variable {r : Replay} {event : RecordedEvent} {events : List RecordedEvent}
  {due due' : List Sample}

theorem nil (h : r.session.engine.Listening) : r.Tells [] [] :=
  ⟨⟨[], fun _ _ => rfl, List.perm_append_comm⟩, h, rfl, rfl⟩

theorem cons (h : r.Tells [event] due) (k : (r.apply event).Tells events due') :
    r.Tells (event :: events) (due ++ due') := by
  obtain ⟨told, same, perm⟩ := h.told
  obtain ⟨told', same', perm'⟩ := k.told
  refine ⟨⟨told ++ told', fun d scope => ?_, ?_⟩, k.listening,
    k.activityFilter.trans h.activityFilter, k.skew.trans h.skew⟩
  · have first : (r.into d scope).apply event =
        (r.apply event).into (d.recordAll scope told) scope := same d scope
    rw [Durations.recordAll_append]
    change ((r.into d scope).apply event).all events = _
    rw [first]
    exact same' _ scope
  · rw [List.append_assoc, ← List.append_assoc r.session.engine.owed]
    refine (perm'.append_left told).trans ?_
    rw [← List.append_assoc]
    exact perm.append_right due'

theorem perm (h : r.Tells events due) (same : due.Perm due') : r.Tells events due' := by
  obtain ⟨told, known, whole⟩ := h.told
  exact ⟨⟨told, known, whole.trans (same.append_left _)⟩, h.listening, h.activityFilter, h.skew⟩

/-- One event, as the engine takes it. -/
theorem of_engine {β : Type} {op : Engine → β × Engine} (running : r.Running)
    (told : r.session.engine.Tells op due) (state : β → ThreadState) (drains : β → DrainReport)
    (applied : ∀ e : Engine, e.Ready → (r.onEngine e).apply event =
      (r.onEngine e).moved (state (op e).1) (op e).2 (drains (op e).1)) : r.Tells [event] due := by
  obtain ⟨samples, same, perm⟩ := told.told
  have here : r.all [event] = r.moved (state (op r.session.engine).1) (op r.session.engine).2
      (drains (op r.session.engine).1) := applied r.session.engine running.ready
  refine ⟨⟨samples, fun d scope => ?_, ?_⟩, ?_, ?_, ?_⟩ <;> rw [here]
  · refine (applied (r.session.engine.into d scope) running.ready).trans ?_
    rw [same]
    rfl
  · exact perm
  · exact told.listening
  · exact told.activityFilter
  · exact told.skew

end Tells

theorem Running.onEngine {r : Replay} (running : r.Running) {e : Engine} (ready : e.Ready) :
    (r.onEngine e).Running := ⟨running.active, ready, running.thread⟩

/-- The samples that an event is due are those that the history and its completions leave. -/
theorem Begins.tells_event {filter : NameFilter} {past : List Happening} {r : Replay}
    (h : Begins filter past r.threadState r.session.engine) (running : r.Running)
    (listening : r.session.engine.Listening) (event : RecordedEvent) : ∃ due,
      Leave filter r.session.engine.skew.current (answers past) (r.happenings event) due ∧
      r.Tells [event] (due ++ looseSamples r.session.engine.activityFilter
        r.session.engine.skew.current [event]) := by
  cases event with
  | call thread time c =>
    obtain ⟨_, happened⟩ := apply_call running.active thread time c
    obtain ⟨step, _⟩ := Engine.onCall_step running.ready (r.threadState thread) c time.toNat
    rw [happened]
    refine ⟨_, .one (h.leaves_call step), ?_⟩
    rw [looseSamples, List.flatMap_singleton, List.append_nil]
    exact .of_engine running (Engine.tells_onCall listening (r.threadState thread) c time.toNat)
      (·.2) (fun _ => r.drains)
      fun e ready => (apply_call (running.onEngine ready).active thread time c).1
  | batch thread cs =>
    obtain ⟨_, happened⟩ := apply_batch running.active thread cs
    obtain ⟨quiet, ready⟩ := Engine.Background.askOffset running.ready r.session.clocks
    obtain ⟨_, offset⟩ := Engine.tells_askOffset listening r.session.clocks
    have asked := (kept_begins filter).background h quiet
    rw [happened, offset]
    refine ⟨_, asked.leave_batch (running.thread thread) ready cs, ?_⟩
    rw [looseSamples, List.flatMap_singleton, List.append_nil]
    exact .of_engine running
      (Engine.tells_drain listening r.session.clocks (r.threadState thread) cs)
      (·.2) (fun out => r.drains.merge out.1)
      fun e ready => (apply_batch (running.onEngine ready).active thread cs).1
  | untracked thread cs =>
    refine ⟨[], .nil, ?_⟩
    rw [looseSamples, List.flatMap_singleton, List.nil_append]
    exact .of_engine running (Engine.tells_drainUntracked listening r.session.clocks thread cs)
      (fun _ => r.threadState thread) (r.drains.merge ·)
      fun e ready => apply_untracked (running.onEngine ready).active (running.thread thread) cs

theorem Begins.tells_all {filter : NameFilter} {past : List Happening} {r : Replay}
    (h : Begins filter past r.threadState r.session.engine) (running : r.Running)
    (listening : r.session.engine.Listening) (events : List RecordedEvent) : ∃ due,
      Leave filter r.session.engine.skew.current (answers past) (r.history events) due ∧
      r.Tells events (due ++ looseSamples r.session.engine.activityFilter
        r.session.engine.skew.current events) := by
  induction events generalizing r past with
  | nil => exact ⟨[], .nil, .nil listening⟩
  | cons event events ih =>
    obtain ⟨due, leave, tells⟩ := h.tells_event running listening event
    obtain ⟨after, running'⟩ := (kept_begins filter).apply running h event
    obtain ⟨due', leave', tells'⟩ := ih after running' tells.listening
    have skew : (r.apply event).session.engine.skew = r.session.engine.skew := tells.skew
    have kept : (r.apply event).session.engine.activityFilter =
      r.session.engine.activityFilter := tells.activityFilter
    rw [skew, answers_append] at leave'
    rw [skew, kept] at tells'
    refine ⟨due ++ due', leave.append leave', (tells.cons tells').perm ?_⟩
    rw [looseSamples_cons _ _ event events, List.append_assoc, List.append_assoc]
    exact (List.perm_append_comm_assoc _ _ _).append_left due

/-- The shutdown tells all that is owed, whatever else comes of it. -/
theorem told_finish {r : Replay} (running : r.Running) (listening : r.session.engine.Listening)
    {path : Option CriticalPath} (found : (r.session.shutdown.2.engine.sinks.marks.map
      (·.forest)).mapM (·.criticalPath) = .ok path) :
    ∃ told, told.Perm r.session.engine.owed ∧ ∀ d scope, ∃ result,
      (r.into d scope).finish = .ok result ∧ result.durations = d.recordAll scope told := by
  have unregistered : { r.session.engine with
      registry := r.session.engine.registry.drain.2 }.Listening :=
    ⟨listening.aggregates, listening.settled, listening.running, listening.measured⟩
  obtain ⟨told, perm, same⟩ := Engine.told_stopWork unregistered
  refine ⟨told, perm, fun d scope => ?_⟩
  have active : (r.into d scope).session.state = .active := running.active
  have sinks : (r.into d scope).session.shutdown.2.engine.sinks =
      r.session.stopped.sinks.into (d.recordAll scope told) scope :=
    (Session.sinks_shutdown active).trans (congrArg Engine.sinks (same d scope))
  rw [Session.sinks_shutdown running.active] at found
  have whole : ((r.into d scope).session.shutdown.2.engine.sinks.marks.map (·.forest)).mapM
      (·.criticalPath) = .ok path := by
    rw [sinks]
    exact found
  obtain ⟨result, finished, _, _, durations⟩ := finish_ok whole
  rw [sinks] at durations
  exact ⟨result, finished, durations⟩

theorem Started.listening {s : Settings} {r : Replay} (started : r.Started s)
    (wanted : s.recordDurations = true) :
    r.session.engine.Listening ∧ r.session.engine.owed = [] ∧ r.into {} s.scope = r := by
  obtain ⟨offset, language, turns, fresh, start, rfl⟩ := started
  obtain ⟨⟨callFilter, activityFilter, engine⟩, _⟩ := start_eq start
  rw [wanted] at engine
  refine ⟨⟨?_, ?_, ?_, ?_⟩, ?_, ?_⟩
  all_goals simp only [scheduled, into, onEngine, engine]
  all_goals rfl

/-- Over every list of events, whoever listens for durations hears the samples that the history
leaves and those of work with no calls behind it, each of them once. -/
theorem Started.samples_told {s : Settings} {r : Replay} (started : r.Started s)
    (wanted : s.recordDurations = true) (events : List RecordedEvent) :
    ∃ due told,
      (∀ samples, Leave r.session.engine.callFilter r.session.engine.skew.current []
        (r.history events) samples ↔ samples = due) ∧
      told.Perm (due ++ looseSamples r.session.engine.activityFilter
        r.session.engine.skew.current events) ∧
      (∃ result, (r.all events).finish = .ok result ∧
        result.durations = ({} : Durations).recordAll s.scope told) ∧
      ∀ d scope, ∃ result, ((r.into d scope).all events).finish = .ok result ∧
        result.durations = d.recordAll scope told := by
  have fresh := started.fresh
  obtain ⟨listening, owed, own⟩ := started.listening wanted
  obtain ⟨due, leave, tells⟩ := fresh.begins.tells_all fresh.running listening events
  obtain ⟨_, running⟩ := (kept_begins r.session.engine.callFilter).all fresh.running fresh.begins
    events
  obtain ⟨told, same, perm⟩ := tells.told
  obtain ⟨path, found⟩ := started.path_found events
  obtain ⟨last, rest, finish⟩ := told_finish running tells.listening found
  have heard : ∀ d scope, ∃ result, ((r.into d scope).all events).finish = .ok result ∧
      result.durations = d.recordAll scope (told ++ last) := by
    intro d scope
    rw [same, Durations.recordAll_append]
    exact finish _ scope
  have hears := heard {} s.scope
  rw [own] at hears
  refine ⟨due, told ++ last, fun samples => ⟨fun other => other.unique leave, fun eq => eq ▸ leave⟩,
    (rest.append_left told).trans ?_, hears, heard⟩
  rw [owed, List.nil_append] at perm
  exact perm

/-- Work of a call that returns, of one that never does and of none; an exit that misses its call,
and untracked work on the host and on a device. -/
theorem samples_told_of_lost_exit : ∃ r : Replay, r.Started {} ∧
    ({} : Settings).recordDurations = true ∧
    let events : List RecordedEvent :=
      [.call 1 10 { HostCall.enter "hipLaunchKernel" 7 with kernel := some "sgemm" },
        .batch 2 [.ofOp 7 .dispatch 100 200], .call 1 300 (.exit "hipLaunchKernel" 7),
        .call 3 400 (.enter "hipMemcpy" 8),
        .batch 2 [.ofOp 8 .copy 410 450, .ofOp 9 .copy 460 470], .call 4 500 (.exit "hipFree" 9),
        .call 1 600 { HostCall.enter "hsa_memory_copy" 0 with domain := .untracked },
        .call 1 650 { HostCall.exit "hsa_memory_copy" 0 with domain := .untracked },
        .untracked 2 [.ofOp 0 .barrier 700 730]]
    ∃ due told result,
      Leave r.session.engine.callFilter r.session.engine.skew.current [] (r.history events) due ∧
      told.Perm (due ++ [("hsa_barrier", 30)]) ∧ (r.all events).finish = .ok result ∧
      result.durations = ({} : Durations).recordAll {} told ∧
      result.durations.table.toList = [("hipLaunchKernel", ⟨1, 290, 290, 290⟩),
        ("hipMemcpy", ⟨1, 40, 40, 40⟩), ("hsa_barrier", ⟨1, 30, 30, 30⟩),
        ("hsa_memory_copy", ⟨1, 50, 50, 50⟩), ("sgemm", ⟨1, 100, 100, 100⟩)] := by
  obtain ⟨r, start⟩ : ∃ r, Replay.start {} none = .ok r := ⟨_, rfl⟩
  have started := Started.of_start start
  refine ⟨r, started, rfl, ?_⟩
  intro events
  obtain ⟨due, told, leave, perm, ⟨result, finished, durations⟩, _⟩ :=
    started.samples_told rfl events
  obtain ⟨path, found⟩ := started.path_found events
  obtain ⟨other, finished', _, _, table⟩ := finish_ok found
  cases finished.symm.trans finished'
  refine ⟨due, told, result, (leave due).mpr rfl, ?_, finished, durations, ?_⟩
  · have loose : looseSamples r.session.engine.activityFilter r.session.engine.skew.current
        events = [("hsa_barrier", 30)] := by
      cases start
      decide +kernel
    rw [← loose]
    exact perm
  · rw [table]
    cases start
    decide +kernel

end Replay

end SpanWeave
