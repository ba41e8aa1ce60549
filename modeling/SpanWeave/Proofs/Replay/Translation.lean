import Mathlib.Data.Multiset.MapFold
import SpanWeave.Proofs.Engine.Delay
import SpanWeave.Proofs.Replay.Closing

set_option autoImplicit false

/-!
# Translation

The offset of device times translates the intervals on devices, as long as no time is moved out of
the range of the clock. All else of the result is the same: the spans of the host, the durations,
the reports, the defects, and the time that the critical path takes.
-/
namespace SpanWeave

/-! ## The desk under two offsets -/

def Part.Delays (a b : Int) (n : Nat) : Part → Prop
  | .call _ _ => True
  | .completion c | .loose c => c.Delays a b n

theorem Part.move_delay {k : Setting} {offset : Int} {n : Nat} {p : Part}
    (delays : p.Delays k.offset offset n) (t : ThreadState) (x : Entry) (fresh : SpanId) :
    p.move { k with offset } t x fresh = (p.move k t x fresh).delay n := by
  cases p with
  | call now c => exact congrArg Prod.snd (k.call_delay t x fresh c now)
  | completion c =>
    unfold move
    dsimp only
    rw [k.completion_delay t x c delays]
    rfl
  | loose c =>
    unfold move
    dsimp only
    rw [k.loose_delay t c delays]
    rfl

theorem Part.opensHost_move (p : Part) (k : Setting) (t : ThreadState) (x : Entry)
    (fresh : SpanId) : ∀ d ∈ (p.move k t x fresh).deeds, d.OpensHost := by
  intro d member
  cases p with
  | call now c => exact (k.deeds_call t x fresh c now d member).opensHost
  | completion c => exact (k.deeds_completion t x c d member).opensHost
  | loose c => exact (k.deeds_loose t c d member).opensHost

namespace Desk
variable {k : Setting} {offset : Int} {n : Nat}

/-- The books are the same, and the deeds are the later ones. -/
theorem run_delay (d : Desk) {xs : List (ThreadId × Part)}
    (delays : ∀ x ∈ xs, x.2.Delays k.offset offset n) :
    d.run { k with offset } xs = d.run k xs ∧
      d.deeds { k with offset } xs = (d.deeds k xs).map (Deed.delay n) := by
  induction xs generalizing d with
  | nil => exact ⟨rfl, rfl⟩
  | cons x xs ih =>
    obtain ⟨first, others⟩ := List.forall_mem_cons.mp delays
    have move : d.move { k with offset } x = (d.move k x).delay n := Part.move_delay first _ _ _
    have next : d.next { k with offset } x = d.next k x := by
      unfold Desk.next
      rw [move]
      rfl
    obtain ⟨books, deeds⟩ := ih (d.next k x) others
    constructor
    · change (d.next { k with offset } x).run { k with offset } xs = (d.next k x).run k xs
      rw [next, books]
    · rw [Desk.deeds, Desk.deeds, move, next, deeds, List.map_append]
      rfl

theorem opensHost_deeds (d : Desk) (xs : List (ThreadId × Part)) :
    ∀ deed ∈ d.deeds k xs, deed.OpensHost := by
  induction xs generalizing d with
  | nil => exact List.forall_mem_nil _
  | cons x xs ih =>
    exact List.forall_mem_append.mpr ⟨x.2.opensHost_move k _ _ _, ih (d.next k x)⟩

end Desk

namespace RecordedEvent

theorem delays_steps {a b : Int} {n : Nat} {events : List RecordedEvent}
    (delays : ∀ c ∈ events.flatMap completions, c.Delays a b n) :
    ∀ x ∈ events.flatMap steps, x.2.Delays a b n := by
  intro x member
  obtain ⟨event, among, step⟩ := List.mem_flatMap.mp member
  have each : ∀ c ∈ event.completions, c.Delays a b n :=
    fun c own => delays c (List.mem_flatMap.mpr ⟨event, among, own⟩)
  obtain ⟨p, part, rfl⟩ := List.mem_map.mp step
  cases event with
  | call thread time c =>
    rw [List.mem_singleton.mp part]
    trivial
  | batch thread cs | untracked thread cs =>
    obtain ⟨c, own, rfl⟩ := List.mem_map.mp part
    exact each c own

end RecordedEvent

/-! ## Two results -/

namespace Replay

/-- The one result shows the spans of devices so much later than the other, and that is all. -/
structure Delayed (n : Nat) (result result' : ReplayResult) : Prop where
  spans : (result'.spans : Multiset Span) = (result.spans : Multiset Span).map (Span.delay n)
  durations : result'.durations = result.durations
  drains : result'.drains = result.drains
  defects : result'.defects = result.defects
  total : result'.path.map (·.total) = result.path.map (·.total)

theorem total_delay {n : Nat} {marks : Option MarkLog} {path path' : Option CriticalPath}
    (found : (marks.map (·.forest)).mapM (·.criticalPath) = .ok path)
    (found' : ((marks.map (MarkLog.delay n)).map (·.forest)).mapM (·.criticalPath) = .ok path') :
    path'.map (·.total) = path.map (·.total) := by
  cases marks with
  | none =>
    cases found
    cases found'
    rfl
  | some log =>
    rw [Option.map_some, Option.mapM_some] at found
    rw [Option.map_some, Option.map_some, Option.mapM_some] at found'
    cases walked : log.forest.criticalPath with
    | error fault =>
      rw [walked] at found
      cases found
    | ok p =>
      cases walked' : (log.delay n).forest.criticalPath with
      | error fault =>
        rw [walked'] at found'
        cases found'
      | ok p' =>
        rw [walked] at found
        rw [walked'] at found'
        cases found
        cases found'
        exact congrArg some (MarkLog.total_delay walked walked')

theorem Told.delayed {n : Nat} {r r' : Replay} {result result' : ReplayResult}
    (told : r.Told result) (told' : r'.Told result')
    (sinks : r'.session.stopped.sinks = r.session.stopped.sinks.delay n)
    (drains : r'.drains = r.drains) : Delayed n result result' := by
  obtain ⟨_, engine⟩ := told.engine
  obtain ⟨_, engine'⟩ := told'.engine
  have shown : result.session.engine.sinks = r.session.stopped.sinks := by rw [engine]
  have shown' : result'.session.engine.sinks = r.session.stopped.sinks.delay n := by
    rw [engine']
    exact sinks
  have path := told.path
  have path' := told'.path
  rw [shown] at path
  rw [shown'] at path'
  refine ⟨?_, ?_, ?_, ?_, ?_⟩
  · rw [told'.spans, told.spans, shown, shown']
    refine (Multiset.coe_eq_coe.mpr (List.mergeSort_perm _ _)).trans ?_
    rw [Multiset.coe_eq_coe.mpr (List.mergeSort_perm _ _), Multiset.map_coe]
    unfold Sinks.delay
    cases r.session.stopped.sinks.spans with
    | none => rfl
    | some recorder => exact congrArg _ Array.toList_map
  · rw [told'.durations, told.durations, shown, shown']
    rfl
  · rw [told'.drains, told.drains, drains]
  · rw [told'.defects, told.defects, shown, shown']
    unfold Sinks.delay
    cases r.session.stopped.sinks.marks with
    | none => rfl
    | some log => exact (log.forest_delay n).1
  · exact total_delay path path'

/-! ## One start under two offsets -/

def skewed (r : Replay) (offset : Int) : Replay :=
  { r with session := { r.session with engine := { r.session.engine with skew := .fixed offset } } }

theorem start_skewed {s : Settings} (wanted : s.useClockSkew = true) {a : Int}
    {language : PatternLanguage} {r : Replay} (start : Replay.start s (some a) language = .ok r)
    (b : Int) : Replay.start s (some b) language = .ok (r.skewed b) := by
  obtain ⟨callFilter, activityFilter, calls, activities⟩ := start_filters start
  unfold Replay.start Session.build at start ⊢
  rw [wanted, calls, activities] at start ⊢
  cases start
  rfl

/-- Nothing was recorded yet, so there is nothing that could be later. -/
theorem Started.delay_bench {s : Settings} {r : Replay} (started : r.Started s) (n : Nat) :
    r.session.engine.bench.delay n = r.session.engine.bench := by
  obtain ⟨offset, language, turns, fresh, start, rfl⟩ := started
  obtain ⟨⟨callFilter, activityFilter, engine⟩, _⟩ := start_eq start
  unfold scheduled
  rw [engine]
  cases s.recordSpans <;> cases s.recordMarks <;>
    simp [Engine.bench, Bench.delay, WorkQueue.map, Sinks.delay, Recorder.delay, MarkLog.delay]

theorem Started.opensHost {s : Settings} {r : Replay} (started : r.Started s) :
    r.session.engine.sinks.OpensHost := by
  intro recorder held track start member
  rw [started.fresh.spans] at held
  split at held
  · cases held
    rw [Recorder.openOn_empty] at member
    cases member
  · cases held

theorem Started.delayed {s : Settings} {r : Replay} {offset : Int} (started : r.Started s)
    (started' : (r.skewed offset).Started s) {n : Nat} {events : List RecordedEvent}
    (delays : ∀ c ∈ events.flatMap RecordedEvent.completions,
      c.Delays r.session.engine.setting.offset offset n) :
    ∃ result result', (r.all events).finish = .ok result ∧
      ((r.skewed offset).all events).finish = .ok result' ∧ Delayed n result result' := by
  obtain ⟨desked, _⟩ := started.live.desked_all events
  obtain ⟨desked', _⟩ := started'.live.desked_all events
  obtain ⟨run, deeds⟩ := r.desk.run_delay (RecordedEvent.delays_steps delays)
  -- both runs start from one bench, on which nothing is recorded yet
  have bench : ((r.skewed offset).all events).session.engine.bench =
      (r.all events).session.engine.bench.delay n := by
    rw [desked.bench, ← Bench.delay_actAll n started.opensHost (r.desk.opensHost_deeds _),
      started.delay_bench, ← deeds]
    exact desked'.bench
  have desk : ((r.skewed offset).all events).desk = (r.all events).desk := by
    rw [desked.desk, ← run]
    exact desked'.desk
  have sinks : ((r.skewed offset).all events).session.stopped.sinks =
      (r.all events).session.stopped.sinks.delay n := by
    refine (congrArg (fun b : Bench => (b.settle b.work.stop).sinks) bench).trans ?_
    exact congrArg Bench.sinks (Bench.delay_stop n _)
  obtain ⟨result, finished, told⟩ := started.told events
  obtain ⟨result', finished', told'⟩ := started'.told events
  exact ⟨result, result', finished, finished',
    told.delayed told' sinks (congrArg (fun d : Desk => d.counts.drains) desk)⟩

end Replay

/-! ## Offsets of either sign -/

/-- The offset moves no time of the completion out of the range of the clock. -/
structure Completion.Within (offset : Int) (c : Completion) : Prop where
  begins : 0 ≤ c.beginsAt.toNat + offset ∧ c.beginsAt.toNat + offset < UInt64.size
  ends : 0 ≤ c.endsAt.toNat + offset ∧ c.endsAt.toNat + offset < UInt64.size

instance (offset : Int) (c : Completion) : Decidable (c.Within offset) :=
  decidable_of_iff (_ ∧ _) ⟨fun h => ⟨h.1, h.2⟩, fun h => ⟨h.begins, h.ends⟩⟩

theorem shiftTime_eq {time : Nat} {offset : Int} (low : 0 ≤ time + offset)
    (high : time + offset < UInt64.size) : (shiftTime time offset : Int) = time + offset := by
  unfold shiftTime timeLimit UInt64.size at *
  omega

theorem Completion.Within.delays {a b : Int} {n : Nat} {c : Completion} (base : c.Within a)
    (later : c.Within b) (apart : b = a + n) : c.Delays a b n := by
  have begins := shiftTime_eq base.begins.1 base.begins.2
  have begins' := shiftTime_eq later.begins.1 later.begins.2
  have ends := shiftTime_eq base.ends.1 base.ends.2
  have ends' := shiftTime_eq later.ends.1 later.ends.2
  constructor
  · refine Int.ofNat_inj.mp ?_
    omega
  · refine Int.ofNat_inj.mp ?_
    omega

theorem Completion.within_zero (c : Completion) : c.Within 0 := by
  have begins := c.beginsAt.toNat_lt
  have ends := c.endsAt.toNat_lt
  constructor <;> unfold UInt64.size <;> omega

def Span.Moved (offset : Int) (s s' : Span) : Prop :=
  match s.kind with
  | .cpu => s' = s
  | .device => s' = { s with beginsAt := s'.beginsAt, endsAt := s'.endsAt } ∧
      (s'.beginsAt : Int) = s.beginsAt + offset ∧ (s'.endsAt : Int) = s.endsAt + offset

theorem Span.moved_delay (s : Span) (n : Nat) :
    Moved n s (s.delay n) ∧ Moved (-n) (s.delay n) s := by
  obtain ⟨name, kind⟩ := s
  have back : ∀ time : Nat, (time : Int) = (time + n : Nat) + -n := by
    intro time
    omega
  cases kind with
  | cpu => exact ⟨rfl, rfl⟩
  | device =>
    exact ⟨⟨rfl, Int.natCast_add _ _, Int.natCast_add _ _⟩, rfl, back _, back _⟩

namespace Replay

structure Translated (offset : Int) (result result' : ReplayResult) : Prop where
  spans : Multiset.Rel (Span.Moved offset) result.spans result'.spans
  durations : result'.durations = result.durations
  drains : result'.drains = result.drains
  defects : result'.defects = result.defects
  total : result'.path.map (·.total) = result.path.map (·.total)

theorem Delayed.translated {n : Nat} {result result' : ReplayResult}
    (h : Delayed n result result') :
    Translated n result result' ∧ Translated (-n) result' result := by
  constructor
  · refine ⟨?_, h.durations, h.drains, h.defects, h.total⟩
    rw [h.spans, Multiset.rel_map_right]
    exact Multiset.rel_refl_of_refl_on fun s _ => (s.moved_delay n).1
  · refine ⟨?_, h.durations.symm, h.drains.symm, h.defects.symm, h.total.symm⟩
    rw [h.spans, Multiset.rel_map_left]
    exact Multiset.rel_refl_of_refl_on fun s _ => (s.moved_delay n).2

/-- A greater offset makes all spans of devices so much later. -/
theorem delayed_of_start {s : Settings} (wanted : s.useClockSkew = true) {a b : Int} {n : Nat}
    (apart : b = a + n) {language : PatternLanguage} {r r' : Replay}
    (start : Replay.start s (some a) language = .ok r)
    (start' : Replay.start s (some b) language = .ok r') (turns : List (List Nat))
    {events : List RecordedEvent}
    (within : ∀ c ∈ events.flatMap RecordedEvent.completions, c.Within a ∧ c.Within b) :
    ∃ result result', ((r.scheduled turns).all events).finish = .ok result ∧
      ((r'.scheduled turns).all events).finish = .ok result' ∧ Delayed n result result' := by
  cases (start_skewed wanted start b).symm.trans start'
  have started : (r.scheduled turns).Started s := ⟨some a, language, turns, r, start, rfl⟩
  have started' : ((r.scheduled turns).skewed b).Started s :=
    ⟨some b, language, turns, r.skewed b, start', rfl⟩
  have offset : (r.scheduled turns).session.engine.setting.offset = a := by
    obtain ⟨⟨callFilter, activityFilter, engine⟩, _⟩ := start_eq start
    change r.session.engine.skew.current = a
    rw [engine, wanted]
    rfl
  refine started.delayed started' fun c member => ?_
  obtain ⟨base, later⟩ := within c member
  rw [offset]
  exact base.delays later apart

/-- Whatever the events and the turns of the workers, a run under an offset comes to the result of
the run without it, with the spans of devices moved by the offset. -/
theorem offset_translates {s : Settings} (wanted : s.useClockSkew = true) (offset : Int)
    {language : PatternLanguage} {r : Replay}
    (start : Replay.start s (some 0) language = .ok r) :
    ∃ r', Replay.start s (some offset) language = .ok r' ∧
      ∀ (turns : List (List Nat)) (events : List RecordedEvent),
        (∀ c ∈ events.flatMap RecordedEvent.completions, c.Within offset) →
        ∃ result result', ((r.scheduled turns).all events).finish = .ok result ∧
          ((r'.scheduled turns).all events).finish = .ok result' ∧
          Translated offset result result' := by
  have start' := start_skewed wanted start offset
  refine ⟨_, start', fun turns events within => ?_⟩
  -- of the two runs the one under the greater offset is later, and times are natural numbers
  obtain ⟨n, rfl | rfl⟩ := offset.eq_nat_or_neg
  · obtain ⟨result, result', finished, finished', delayed⟩ := delayed_of_start wanted
      (Int.zero_add _).symm start start' turns
      fun c member => ⟨c.within_zero, within c member⟩
    exact ⟨result, result', finished, finished', delayed.translated.1⟩
  · obtain ⟨result', result, finished', finished, delayed⟩ := delayed_of_start wanted
      (Int.add_left_neg _).symm start' start turns
      fun c member => ⟨within c member, c.within_zero⟩
    exact ⟨result, result', finished, finished', delayed.translated.2⟩

/-- The dispatch is moved to before the launch that it belongs to, and the copy to the first
nanosecond. The completion that ends before it begins is an anomaly under both offsets. -/
theorem offset_translates_to_before_launch : ∃ r r' : Replay,
    Replay.start {} (some 0) = .ok r ∧ Replay.start {} (some (-60)) = .ok r' ∧
    let events : List RecordedEvent :=
      [.call 1 100 (.enter "hipLaunchKernel" 7), .call 1 110 (.exit "hipLaunchKernel" 7),
        .batch 2 [.ofOp 7 .dispatch 150 170, .ofOp 7 .dispatch 170 160],
        .untracked 2 [.ofOp 9 .copy 60 90]]
    (∃ result result', ((r.scheduled []).all events).finish = .ok result ∧
      ((r'.scheduled []).all events).finish = .ok result' ∧ Translated (-60) result result') ∧
    ([r, r'].map fun x => (x.all events).session.stopped.sinks.spans.map fun recorder =>
      recorder.finished.toList.map fun s => (s.kind, s.beginsAt, s.endsAt)) =
        [some [(.cpu, 100, 110), (.device, 150, 170), (.device, 60, 90)],
          some [(.cpu, 100, 110), (.device, 90, 110), (.device, 0, 30)]] ∧
    ([r, r'].map fun x => (x.all events).drains.anomalies) = [1, 1] := by
  obtain ⟨r, start⟩ : ∃ r, Replay.start {} (some 0) = .ok r := ⟨_, rfl⟩
  obtain ⟨r', start', translates⟩ := offset_translates rfl (-60) start
  refine ⟨r, r', start, start', translates [] _ (by decide), ?_⟩
  cases start
  cases start'
  decide +kernel

end Replay

end SpanWeave
