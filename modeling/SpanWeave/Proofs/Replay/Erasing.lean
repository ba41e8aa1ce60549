import SpanWeave.Proofs.Replay.Closing

set_option autoImplicit false

/-!
# Erasing

What a filter rejects leaves no trace but in the counts: a replay with filters comes to what a
replay without any comes to on the events that the filters let through.
-/
namespace SpanWeave

def Completion.passes (g : NameFilter) (c : Completion) : Bool :=
  c.op?.all fun op => g.accepts op.name

namespace RecordedEvent

/-- The event without what the filters reject. A batch stays, even as an empty one. -/
def passed? (f g : NameFilter) : RecordedEvent → Option RecordedEvent
  | .call thread time c => if f.accepts c.name then some (.call thread time c) else none
  | .batch thread cs => some (.batch thread (cs.filter (·.passes g)))
  | .untracked thread cs => some (.untracked thread (cs.filter (·.passes g)))

def erase (f g : NameFilter) (events : List RecordedEvent) : List RecordedEvent :=
  events.filterMap (·.passed? f g)

def erasedCalls (f g : NameFilter) (events : List RecordedEvent) : Nat :=
  events.countP fun event => (event.passed? f g).isNone

def erasedCompletions (g : NameFilter) (events : List RecordedEvent) : Nat :=
  (events.flatMap completions).countP fun c => !c.passes g

end RecordedEvent

def Counts.filtered (calls completions : Nat) : Counts where
  calls := { filtered := calls }
  drains := { advanced := completions, filtered := completions }

theorem Counts.filtered_add (n m n' m' : Nat) :
    (filtered n m).add (filtered n' m') = filtered (n + n') (m + m') := rfl

theorem Counts.add_assoc (a b c : Counts) : (a.add b).add c = a.add (b.add c) := by
  simp only [add, CallCounts.add, RegistryCounts.add, DrainReport.merge, Nat.add_assoc]

def Setting.unfiltered (k : Setting) : Setting :=
  { k with callFilter := .all, activityFilter := .all }

namespace Part

def passes (f g : NameFilter) : Part → Bool
  | .call _ c => f.accepts c.name
  | .completion c | .loose c => c.passes g

def isCall : Part → Bool
  | .call _ _ => true
  | .completion _ | .loose _ => false

def rejection : Part → Counts
  | .call _ _ => .filtered 1 0
  | .completion _ | .loose _ => .filtered 0 1

variable {p : Part} {k : Setting}

theorem move_rejected (rejected : p.passes k.callFilter k.activityFilter = false)
    (t : ThreadState) (x : Entry) (fresh : SpanId) :
    p.move k t x fresh = { thread := t, counts := p.rejection } := by
  have named : ∀ c : Completion, c.passes k.activityFilter = false →
      ∃ op, c.op? = some op ∧ k.activityFilter.accepts op.name = false := by
    intro c fails
    unfold Completion.passes at fails
    cases supported : c.op? with
    | none =>
      rw [supported] at fails
      cases fails
    | some op =>
      rw [supported] at fails
      exact ⟨op, rfl, fails⟩
  cases p with
  | call now c =>
    change k.callFilter.accepts c.name = false at rejected
    unfold move Setting.call
    dsimp only
    rw [rejected]
    rfl
  | completion c =>
    obtain ⟨op, supported, refused⟩ := named c rejected
    unfold move Setting.completion
    dsimp only
    rw [supported]
    dsimp only
    rw [refused]
    rfl
  | loose c =>
    obtain ⟨op, supported, refused⟩ := named c rejected
    unfold move Setting.loose
    dsimp only
    rw [supported]
    dsimp only
    rw [refused]
    rfl

/-- A part that passes does what it does without filters. -/
theorem move_passed (passed : p.passes k.callFilter k.activityFilter = true)
    (t : ThreadState) (x : Entry) (fresh : SpanId) :
    p.move k t x fresh = p.move k.unfiltered t x fresh := by
  have every : ∀ name, k.unfiltered.callFilter.accepts name = true ∧
      k.unfiltered.activityFilter.accepts name = true := fun name =>
    ⟨NameFilter.accepts_all name, NameFilter.accepts_all name⟩
  cases p with
  | call now c =>
    change k.callFilter.accepts c.name = true at passed
    unfold move Setting.call
    dsimp only
    rw [passed, (every c.name).1]
    rfl
  | completion c =>
    change c.passes k.activityFilter = true at passed
    unfold Completion.passes at passed
    unfold move Setting.completion
    dsimp only
    cases supported : c.op? with
    | none => rfl
    | some op =>
      rw [supported] at passed
      change k.activityFilter.accepts op.name = true at passed
      dsimp only
      rw [passed, (every op.name).2]
      rfl
  | loose c =>
    change c.passes k.activityFilter = true at passed
    unfold Completion.passes at passed
    unfold move Setting.loose
    dsimp only
    cases supported : c.op? with
    | none => rfl
    | some op =>
      rw [supported] at passed
      change k.activityFilter.accepts op.name = true at passed
      dsimp only
      rw [passed, (every op.name).2]
      rfl

end Part

/-! ## Over the desk -/

namespace Desk

def counting (d : Desk) (c : Counts) : Desk := { d with counts := d.counts.add c }

theorem next_counting (k : Setting) (d : Desk) (c : Counts) (x : ThreadId × Part) :
    (d.counting c).next k x = (d.next k x).counting c :=
  congrArg (Desk.mk _ _ _ _) (Counts.add_right_comm d.counts c _)

theorem run_counting (k : Setting) (d : Desk) (c : Counts) (xs : List (ThreadId × Part)) :
    (d.counting c).run k xs = (d.run k xs).counting c := by
  induction xs generalizing d with
  | nil => rfl
  | cons x xs ih =>
    change ((d.counting c).next k x).run k xs = _
    rw [next_counting]
    exact ih (d.next k x)

theorem deeds_counting (k : Setting) (d : Desk) (c : Counts) (xs : List (ThreadId × Part)) :
    (d.counting c).deeds k xs = d.deeds k xs := by
  induction xs generalizing d with
  | nil => rfl
  | cons x xs ih =>
    rw [deeds, deeds, next_counting, ih]
    rfl

theorem next_rejected {k : Setting} {x : ThreadId × Part}
    (rejected : x.2.passes k.callFilter k.activityFilter = false) (d : Desk) :
    (d.move k x).deeds = [] ∧ d.next k x = d.counting x.2.rejection := by
  have moved : d.move k x = { thread := d.threads x.1, counts := x.2.rejection } :=
    Part.move_rejected rejected _ _ _
  unfold next
  rw [moved]
  refine ⟨rfl, ?_⟩
  unfold after counting
  dsimp only
  rw [Function.update_eq_self]
  cases x.2.id? <;> rfl

theorem next_passed {k : Setting} {x : ThreadId × Part}
    (passed : x.2.passes k.callFilter k.activityFilter = true) (d : Desk) :
    d.move k x = d.move k.unfiltered x ∧ d.next k x = d.next k.unfiltered x := by
  have moved : d.move k x = d.move k.unfiltered x := Part.move_passed passed _ _ _
  refine ⟨moved, ?_⟩
  unfold next
  rw [moved]

def rejections (f g : NameFilter) (xs : List (ThreadId × Part)) : Counts :=
  .filtered (xs.countP fun x => !x.2.passes f g && x.2.isCall)
    (xs.countP fun x => !x.2.passes f g && !x.2.isCall)

theorem rejections_passed {f g : NameFilter} {x : ThreadId × Part}
    (passed : x.2.passes f g = true) (xs : List (ThreadId × Part)) :
    rejections f g (x :: xs) = rejections f g xs := by
  simp [rejections, passed]

theorem rejections_rejected {f g : NameFilter} {x : ThreadId × Part}
    (rejected : x.2.passes f g = false) (xs : List (ThreadId × Part)) :
    rejections f g (x :: xs) = x.2.rejection.add (rejections f g xs) := by
  obtain ⟨thread, p⟩ := x
  cases p <;>
    simp_all [rejections, Part.rejection, Part.isCall, Counts.filtered_add, Nat.add_comm]

theorem rejections_append (f g : NameFilter) (xs ys : List (ThreadId × Part)) :
    rejections f g (xs ++ ys) = (rejections f g xs).add (rejections f g ys) := by
  rw [rejections, List.countP_append, List.countP_append]
  rfl

/-- The parts that are rejected do nothing to the desk but count, and leave no deeds. -/
theorem run_passed (k : Setting) (d : Desk) (xs : List (ThreadId × Part)) :
    let passed := xs.filter fun x => x.2.passes k.callFilter k.activityFilter
    d.deeds k xs = d.deeds k.unfiltered passed ∧
      d.run k xs =
        (d.run k.unfiltered passed).counting (rejections k.callFilter k.activityFilter xs) := by
  induction xs generalizing d with
  | nil => exact ⟨rfl, rfl⟩
  | cons x xs ih =>
    intro passed
    obtain ⟨deeds, run⟩ := ih (d.next k x)
    cases passes : x.2.passes k.callFilter k.activityFilter with
    | true =>
      have kept : passed = x :: xs.filter fun x => x.2.passes k.callFilter k.activityFilter :=
        List.filter_cons_of_pos passes
      obtain ⟨moved, turned⟩ := next_passed passes d
      rw [turned] at deeds run
      rw [kept, rejections_passed passes]
      constructor
      · rw [Desk.deeds, moved, turned, deeds]
        rfl
      · change (d.next k x).run k xs = _
        rw [turned, run]
        rfl
    | false =>
      have kept : passed = xs.filter fun x => x.2.passes k.callFilter k.activityFilter :=
        List.filter_cons_of_neg (by simp [passes])
      obtain ⟨nothing, turned⟩ := next_rejected passes d
      rw [turned] at deeds run
      rw [kept, rejections_rejected passes]
      constructor
      · rw [Desk.deeds, nothing, turned, deeds, deeds_counting, List.nil_append]
      · change (d.next k x).run k xs = _
        rw [turned, run, run_counting]
        exact congrArg (Desk.mk _ _ _ _) (Counts.add_assoc _ _ _)

end Desk

namespace RecordedEvent

theorem steps_erase (f g : NameFilter) (events : List RecordedEvent) :
    (erase f g events).flatMap steps =
      (events.flatMap steps).filter fun x => x.2.passes f g := by
  induction events with
  | nil => rfl
  | cons event events ih =>
    have first : (event.passed? f g).toList.flatMap steps =
        event.steps.filter fun x => x.2.passes f g := by
      cases event with
      | call thread time c =>
        change ((if f.accepts c.name then some (call thread time c) else none).toList.flatMap
          steps) = [(thread, Part.call time.toNat c)].filter _
        cases passes : f.accepts c.name with
        | true => simp [steps, parts, Part.passes, passes, RecordedEvent.thread]
        | false => simp [Part.passes, passes]
      | batch thread cs => simp [passed?, steps, parts, List.filter_map, Function.comp_def,
          Part.passes, RecordedEvent.thread]
      | untracked thread cs => simp [passed?, steps, parts, List.filter_map, Function.comp_def,
          Part.passes, RecordedEvent.thread]
    rw [List.flatMap_cons, List.filter_append, ← first, ← ih, erase, List.filterMap_cons]
    cases event.passed? f g <;> simp [erase]

theorem rejections_steps (f g : NameFilter) (events : List RecordedEvent) :
    Desk.rejections f g (events.flatMap steps) =
      .filtered (erasedCalls f g events) (erasedCompletions g events) := by
  induction events with
  | nil => rfl
  | cons event events ih =>
    have first : Desk.rejections f g event.steps =
        .filtered (if (event.passed? f g).isNone then 1 else 0)
          (event.completions.countP fun c => !c.passes g) := by
      cases event with
      | call thread time c =>
        cases passes : f.accepts c.name <;>
          simp [Desk.rejections, passed?, steps, parts, completions, Part.passes, Part.isCall,
            passes]
      | batch thread cs => simp [Desk.rejections, passed?, steps, parts, completions, Part.passes,
          Part.isCall, List.countP_map, Function.comp_def]
      | untracked thread cs => simp [Desk.rejections, passed?, steps, parts, completions,
          Part.passes, Part.isCall, List.countP_map, Function.comp_def]
    have calls : erasedCalls f g (event :: events) =
        (if (event.passed? f g).isNone then 1 else 0) + erasedCalls f g events := by
      rw [erasedCalls, List.countP_cons, Nat.add_comm]
      rfl
    have batches : erasedCompletions g (event :: events) =
        event.completions.countP (fun c => !c.passes g) + erasedCompletions g events := by
      rw [erasedCompletions, List.flatMap_cons, List.countP_append]
      rfl
    rw [List.flatMap_cons, Desk.rejections_append, first, ih, Counts.filtered_add, calls, batches]

end RecordedEvent

/-! ## Two replays -/

def Settings.unfiltered (s : Settings) : Settings :=
  { s with callFilter := none, activityFilter := none, standardExclusions := false }

namespace Replay

theorem start_filtered {s : Settings} {language : PatternLanguage} {f : NameFilter}
    {g : Option NameFilter} (calls : Session.callFilterOf s language = .ok f)
    (activities : s.activityFilter.mapM (NameFilter.ofExpression · language) = .ok g)
    (offset : Option Int) :
    ∃ r, Replay.start s offset language = .ok r ∧ r.session.engine.callFilter = f ∧
      r.session.engine.activityFilter = g.getD .all := by
  unfold Replay.start Session.build
  rw [calls, activities]
  exact ⟨_, rfl, rfl, rfl⟩

def unfiltered (r : Replay) : Replay :=
  { r with session := { r.session with
      settings := r.session.settings.unfiltered
      engine := { r.session.engine with callFilter := .all, activityFilter := .all } } }

theorem start_unfiltered {s : Settings} {offset : Option Int} {language : PatternLanguage}
    {r : Replay} (start : Replay.start s offset language = .ok r) :
    Replay.start s.unfiltered offset language = .ok r.unfiltered := by
  obtain ⟨callFilter, activityFilter, calls, activities⟩ := start_filters start
  unfold Replay.start Session.build at start
  rw [calls, activities] at start
  cases start
  rfl

/-- Of two results the first one has filtered so much more, and that is all. -/
structure Filtered (calls completions : Nat) (result expected : ReplayResult) : Prop where
  spans : result.spans = expected.spans
  durations : result.durations = expected.durations
  path : result.path = expected.path
  defects : result.defects = expected.defects
  sinks : result.session.engine.sinks = expected.session.engine.sinks
  work : result.session.engine.work = expected.session.engine.work
  registry : result.session.engine.registry = expected.session.engine.registry
  ids : result.session.engine.ids = expected.session.engine.ids
  shutdown : result.shutdown = expected.shutdown
  drains : result.drains =
    { expected.drains with
      advanced := expected.drains.advanced + completions
      filtered := expected.drains.filtered + completions }
  calls : result.session.engine.calls =
    { expected.session.engine.calls with
      filtered := expected.session.engine.calls.filtered + calls }

theorem Told.filtered {r r' : Replay} {calls completions : Nat} {result expected : ReplayResult}
    (told : r.Told result) (told' : r'.Told expected)
    (bench : r.session.engine.bench = r'.session.engine.bench)
    (desk : r.desk = r'.desk.counting (.filtered calls completions))
    (tracer : r.session.tracer = r'.session.tracer) :
    Filtered calls completions result expected := by
  obtain ⟨_, engine⟩ := told.engine
  obtain ⟨_, engine'⟩ := told'.engine
  have sinks : result.session.engine.sinks = expected.session.engine.sinks := by
    rw [engine, engine']
    exact congrArg (fun b : Bench => (b.settle b.work.stop).sinks) bench
  have work : r.session.stopped.work = r'.session.stopped.work :=
    congrArg (fun b : Bench => (b.settle b.work.stop).work) bench
  have counts := congrArg Desk.counts desk
  have path := told.path
  rw [sinks, told'.path] at path
  refine ⟨?_, ?_, (Except.ok.inj path).symm, ?_, sinks, ?_, ?_, ?_, ?_, ?_, ?_⟩
  · rw [told.spans, told'.spans, sinks]
  · rw [told.durations, told'.durations, sinks]
  · rw [told.defects, told'.defects, sinks]
  · rw [engine, engine']
    exact work
  · rw [engine, engine']
    exact congrArg (fun c : Counts => Registry.mk ∅ ∅ c.registry) counts
  · rw [engine, engine']
    exact congrArg (fun d : Desk => SpanIds.mk d.allocated) desk
  · have opened : r.session.engine.registry.owners = r'.session.engine.registry.owners :=
      congrArg Desk.owners desk
    have before : r.session.engine.work = r'.session.engine.work := congrArg Bench.work bench
    rw [told.shutdown, told'.shutdown, opened, before, work, tracer]
  · rw [told.drains, told'.drains]
    exact congrArg Counts.drains counts
  · rw [engine, engine']
    exact congrArg Counts.calls counts

/-- Filters do what it would do to erase what they reject from the recorded events. -/
theorem filters_erase {s : Settings} {language : PatternLanguage} {f : NameFilter}
    {g : Option NameFilter} (calls : Session.callFilterOf s language = .ok f)
    (activities : s.activityFilter.mapM (NameFilter.ofExpression · language) = .ok g)
    (offset : Option Int) :
    ∃ r r', Replay.start s offset language = .ok r ∧
      Replay.start s.unfiltered offset language = .ok r' ∧
      ∀ events : List RecordedEvent, ∃ result expected,
        (r.all events).finish = .ok result ∧
        (r'.all (RecordedEvent.erase f (g.getD .all) events)).finish = .ok expected ∧
        Filtered (RecordedEvent.erasedCalls f (g.getD .all) events)
          (RecordedEvent.erasedCompletions (g.getD .all) events) result expected := by
  obtain ⟨r, start, rfl, activityFilter⟩ := start_filtered calls activities offset
  have start' := start_unfiltered start
  refine ⟨r, r.unfiltered, start, start', fun events => ?_⟩
  rw [← activityFilter]
  have started := Started.of_start start
  have started' := Started.of_start start'
  let passed := RecordedEvent.erase r.session.engine.callFilter r.session.engine.activityFilter
    events
  obtain ⟨desked, _⟩ := started.live.desked_all events
  obtain ⟨desked', _⟩ := started'.live.desked_all passed
  obtain ⟨deeds, run⟩ :=
    r.desk.run_passed r.session.engine.setting (events.flatMap RecordedEvent.steps)
  have steps : passed.flatMap RecordedEvent.steps =
      (events.flatMap RecordedEvent.steps).filter fun x =>
        x.2.passes r.session.engine.callFilter r.session.engine.activityFilter :=
    RecordedEvent.steps_erase _ _ events
  have bench : (r.all events).session.engine.bench =
      (r.unfiltered.all passed).session.engine.bench := by
    rw [desked.bench, desked'.bench, steps, deeds]
    rfl
  have desk : (r.all events).desk = (r.unfiltered.all passed).desk.counting (.filtered
      (RecordedEvent.erasedCalls r.session.engine.callFilter r.session.engine.activityFilter
        events)
      (RecordedEvent.erasedCompletions r.session.engine.activityFilter events)) := by
    rw [desked.desk, desked'.desk, steps, run, ← RecordedEvent.rejections_steps]
    rfl
  have tracer : (r.all events).session.tracer = (r.unfiltered.all passed).session.tracer := by
    obtain ⟨_, session⟩ := r.session_all events
    obtain ⟨_, session'⟩ := r.unfiltered.session_all passed
    rw [session, session']
    rfl
  obtain ⟨result, finished, told⟩ := started.told events
  obtain ⟨expected, finished', told'⟩ := started'.told passed
  exact ⟨result, expected, finished, finished', told.filtered told' bench desk tracer⟩

/-- A call inside of another one and two copies are not let through. -/
theorem filters_erase_of_inner_call :
    let s : Settings :=
      { callFilter := some "exclude=hipFree", activityFilter := some "exclude=COPY" }
    ∃ r r', Replay.start s none = .ok r ∧ Replay.start s.unfiltered none = .ok r' ∧
      let events : List RecordedEvent :=
        [.call 1 10 (.enter "hipLaunchKernel" 7), .call 1 15 (.enter "hipFree" 8),
          .call 1 20 (.exit "hipFree" 8),
          .batch 2 [.ofOp 7 .dispatch 100 200, .ofOp 7 .copy 210 220],
          .call 1 25 (.exit "hipLaunchKernel" 7),
          .untracked 2 [.ofOp 0 .copy 230 240, .ofOp 0 .barrier 240 250]]
      let passed : List RecordedEvent :=
        [.call 1 10 (.enter "hipLaunchKernel" 7), .batch 2 [.ofOp 7 .dispatch 100 200],
          .call 1 25 (.exit "hipLaunchKernel" 7), .untracked 2 [.ofOp 0 .barrier 240 250]]
      ∃ result expected, (r.all events).finish = .ok result ∧
        (r'.all passed).finish = .ok expected ∧ Filtered 2 2 result expected ∧
        result.drains = { advanced := 4, emitted := 2, filtered := 2 } := by
  intro s
  obtain ⟨f, calls⟩ : ∃ f, Session.callFilterOf s = .ok f := ⟨_, rfl⟩
  obtain ⟨g, activities⟩ : ∃ g,
    s.activityFilter.mapM (NameFilter.ofExpression ·) = .ok g := ⟨_, rfl⟩
  obtain ⟨r, r', start, start', same⟩ := filters_erase calls activities none
  refine ⟨r, r', start, start', ?_⟩
  intro events passed
  obtain ⟨result, expected, finished, finished', filtered⟩ := same events
  have erased : RecordedEvent.erase f (g.getD .all) events = passed ∧
      RecordedEvent.erasedCalls f (g.getD .all) events = 2 ∧
      RecordedEvent.erasedCompletions (g.getD .all) events = 2 := by
    cases calls
    cases activities
    decide +kernel
  obtain ⟨left, n, m⟩ := erased
  rw [left] at finished'
  rw [n, m] at filtered
  refine ⟨result, expected, finished, finished', filtered, ?_⟩
  have drains : (r.all events).finish.map (·.drains) =
      .ok { advanced := 4, emitted := 2, filtered := 2 } := by
    cases start
    decide +kernel
  rw [finished] at drains
  exact Except.ok.inj drains

end Replay

end SpanWeave
