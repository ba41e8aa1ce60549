import SpanWeave.Proofs.Replay.Innermost
import SpanWeave.Proofs.Replay.Stacks

set_option autoImplicit false

/-!
# Finished calls

Where every thread nests its calls well, the recorder's spans of the calls of a thread are its
pairs of enters and exits, in the order of the exits.
-/
namespace SpanWeave

namespace Replay

def finishedCalls (recorder : Recorder) (thread : ThreadId) :
    List (String × Option CorrelationId × Nanos × Nanos) :=
  ((recorder.finished.toList.filter (·.isCall)).filter (·.thread == thread)).map fun span =>
    (span.name, span.correlation, span.beginsAt, span.endsAt)

/-- The pairs of enters and exits of a thread that have a span: an exit is not before its enter. -/
def closedCalls (filter : NameFilter) (thread : ThreadId) (past : List Answer) :
    List (String × Option CorrelationId × Nanos × Nanos) :=
  ((Nesting.on filter thread past).closed.filter fun (enter, exit) => enter.time ≤ exit.time).map
    fun (enter, exit) =>
      (enter.call.name, some enter.call.correlation, enter.time, exit.time)

def callSpan (thread : ThreadId) (enter exit : Answer) :
    List (String × Option CorrelationId × Nanos × Nanos) :=
  if enter.thread = thread ∧ enter.time ≤ exit.time then
    [(enter.call.name, some enter.call.correlation, enter.time, exit.time)]
  else []

theorem finishedCalls_of_eq {recorder recorder' : Recorder}
    (same : recorder'.finished.toList.filter (·.isCall) =
      recorder.finished.toList.filter (·.isCall)) (thread : ThreadId) :
    finishedCalls recorder' thread = finishedCalls recorder thread := by
  unfold finishedCalls
  rw [same]

theorem finishedCalls_of_ended {recorder recorder' : Recorder} {enter exit : Answer}
    {start : SpanStart} (begins : enter.Begins start)
    (ended : recorder'.finished.toList.filter (·.isCall) =
      recorder.finished.toList.filter (·.isCall) ++
        if exit.time < enter.time then [] else [start.finish exit.time]) (thread : ThreadId) :
    finishedCalls recorder' thread =
      finishedCalls recorder thread ++ callSpan thread enter exit := by
  unfold finishedCalls callSpan
  rw [ended, List.filter_append, List.map_append]
  congr 1
  by_cases late : exit.time < enter.time
  · rw [if_pos late, if_neg fun both => Nat.not_lt.mpr both.2 late]
    rfl
  · have ordered := Nat.le_of_not_lt late
    have own : (start.finish exit.time).thread = enter.thread := begins.thread
    have shown : ((start.finish exit.time).name, (start.finish exit.time).correlation,
        (start.finish exit.time).beginsAt, (start.finish exit.time).endsAt) =
        (enter.call.name, some enter.call.correlation, enter.time, exit.time) := by
      rw [← begins.name, ← begins.correlation, ← begins.time]
      rfl
    rw [if_neg late, List.filter_cons, List.filter_nil, own]
    by_cases same : enter.thread = thread
    · rw [if_pos (beq_iff_eq.mpr same), if_pos ⟨same, ordered⟩, List.map_cons, shown, List.map_nil]
    · rw [if_neg fun eq => same (beq_iff_eq.mp eq), if_neg fun both => same both.1, List.map_nil]

theorem closedCalls_append_enter {filter : NameFilter} {past : List Answer} {a : Answer}
    (phase : a.call.phase = .enter) (thread : ThreadId) :
    closedCalls filter thread (past ++ [a]) = closedCalls filter thread past := by
  unfold closedCalls
  rw [Nesting.on_append]
  split
  · rw [Nesting.add_enter phase]
  · rfl

theorem closedCalls_append_exit {filter : NameFilter} {past : List Answer} {a top : Answer}
    {rest : List Answer} (traced : a.isTraced filter = true) (phase : a.call.phase = .exit)
    (opened : (Nesting.on filter a.thread past).opened = top :: rest) (own : top.thread = a.thread)
    (thread : ThreadId) : closedCalls filter thread (past ++ [a]) =
      closedCalls filter thread past ++ callSpan thread top a := by
  unfold closedCalls callSpan
  rw [Nesting.on_append]
  by_cases same : a.thread = thread
  · subst same
    rw [if_pos ⟨rfl, traced⟩, Nesting.add_exit phase opened, List.filter_append, List.map_append,
      List.filter_cons, List.filter_nil]
    congr 1
    by_cases ordered : top.time ≤ a.time
    · rw [if_pos (decide_eq_true ordered), if_pos ⟨own, ordered⟩]
      rfl
    · rw [if_neg fun yes => ordered (of_decide_eq_true yes), if_neg fun both => ordered both.2]
      rfl
  · rw [if_neg fun both => same both.1, if_neg fun both => same (own.symm.trans both.1),
      List.append_nil]

def Finished (filter : NameFilter) (past : List Happening) (recorder : Recorder) : Prop :=
  ∀ thread, finishedCalls recorder thread = closedCalls filter thread (answers past)

namespace Finished
variable {filter : NameFilter} {past : List Happening} {ts : ThreadId → ThreadState}
  {e e' : Engine} {recorder recorder' : Recorder}

theorem quiet (h : Finished filter past recorder) (recorded : Recorded past ts e recorder)
    {a : Answer} {t : ThreadState} (known : (ts a.thread).thread = a.thread)
    (drawn : Engine.Drawn e (ts a.thread) a.call a.time recorder a.outcome t recorder')
    (longer : (ts a.thread).calls.length ≤ t.calls.length)
    (closed : ∀ thread, closedCalls filter thread (answers past ++ [a]) =
      closedCalls filter thread (answers past)) :
    Finished filter (past ++ [.call a]) recorder' := by
  intro thread
  rw [answers_append, answers_call, closed]
  rcases recorded.calls_host known drawn with ⟨same, _⟩ | ⟨inner, call, _, _, _, ended, _⟩
  · rw [finishedCalls_of_eq same]
    exact h thread
  · have shorter := congrArg List.length ended
    rw [List.length_append, List.length_cons] at shorter
    omega

theorem skip (h : Finished filter past recorder) (recorded : Recorded past ts e recorder)
    (callFilter : e.callFilter = filter) {a : Answer} {t : ThreadState}
    (known : (ts a.thread).thread = a.thread) (traced : ¬ a.isTraced filter = true)
    (step : Engine.HostStep e (ts a.thread) a.call a.time a.outcome t e')
    (drawn : Engine.Drawn e (ts a.thread) a.call a.time recorder a.outcome t recorder') :
    Finished filter (past ++ [.call a]) recorder' := by
  refine h.quiet recorded known drawn ?_ fun thread => ?_
  · exact Nat.le_of_eq (congrArg List.length (step.calls_of_not_traced callFilter traced).symm)
  · rw [closedCalls, Nesting.on_append, if_neg fun both => traced both.2]
    rfl

theorem enter (h : Finished filter past recorder) (recorded : Recorded past ts e recorder)
    (callFilter : e.callFilter = filter) {a : Answer} {t : ThreadState}
    (known : (ts a.thread).thread = a.thread) (traced : a.isTraced filter = true)
    (phase : a.call.phase = .enter)
    (step : Engine.HostStep e (ts a.thread) a.call a.time a.outcome t e')
    (drawn : Engine.Drawn e (ts a.thread) a.call a.time recorder a.outcome t recorder') :
    Finished filter (past ++ [.call a]) recorder' := by
  obtain ⟨domain, passes⟩ := Answer.isTraced_iff.mp traced
  obtain ⟨_, rfl⟩ := step.enter_eq domain (callFilter ▸ passes) phase
  refine h.quiet recorded known drawn ?_ (closedCalls_append_enter phase)
  rw [ThreadState.calls_push, List.length_cons]
  exact Nat.le_succ _

theorem exit (h : Finished filter past recorder) (recorded : Recorded past ts e recorder)
    (bracketed : Bracketed filter past ts e) {a : Answer} {t : ThreadState}
    (known : (ts a.thread).thread = a.thread) (nests : Nests filter (answers past ++ [a]))
    (traced : a.isTraced filter = true) (phase : a.call.phase = .exit)
    (step : Engine.HostStep e (ts a.thread) a.call a.time a.outcome t e')
    (drawn : Engine.Drawn e (ts a.thread) a.call a.time recorder a.outcome t recorder') :
    Finished filter (past ++ [.call a]) recorder' := by
  intro thread
  have nested := bracketed.nested (nests.of_prefix (List.prefix_append _ _))
  obtain ⟨top, rest, call, opened, _, _, opens, calls, _, _⟩ :=
    nested.closes bracketed.numbered bracketed.registered nests traced phase step
  rw [answers_append, answers_call]
  rcases recorded.calls_host known drawn with
    ⟨_, longer⟩ | ⟨inner, ended, start, b, member, split, opens', begins, finished⟩
  · rw [calls, List.length_cons] at longer
    omega
  · have empty : inner = [] := by
      have length := congrArg List.length (calls.symm.trans split)
      rw [List.length_append, List.length_cons, List.length_cons] at length
      exact List.length_eq_zero_iff.mp (by omega)
    subst empty
    rw [calls] at split
    obtain ⟨rfl, -⟩ := List.cons.inj split
    have same : b = top := bracketed.numbered.unique member
      (Nesting.mem_of_mem_opened (opened ▸ List.mem_cons_self)) opens'.numbers opens.numbers
    subst same
    rw [closedCalls_append_exit traced phase opened opens.thread, ← h thread]
    rw [← opens.time] at finished
    exact finishedCalls_of_ended begins finished thread

theorem host (h : Finished filter past recorder) (recorded : Recorded past ts e recorder)
    (bracketed : Bracketed filter past ts e) {a : Answer} {t : ThreadState}
    (known : (ts a.thread).thread = a.thread) (nests : Nests filter (answers past ++ [a]))
    (step : Engine.HostStep e (ts a.thread) a.call a.time a.outcome t e')
    (drawn : Engine.Drawn e (ts a.thread) a.call a.time recorder a.outcome t recorder') :
    Finished filter (past ++ [.call a]) recorder' := by
  have callFilter := bracketed.numbered.callFilter
  by_cases traced : a.isTraced filter = true
  · cases phase : a.call.phase with
    | enter => exact h.enter recorded callFilter known traced phase step drawn
    | exit => exact h.exit recorded bracketed known nests traced phase step drawn
  · exact h.skip recorded callFilter known traced step drawn

theorem keep (h : Finished filter past recorder) {past' : List Happening}
    (history : answers past' = answers past) {more : Array Span}
    (others : ∀ span ∈ more, span.isCall = false) :
    Finished filter past' (recorder.keep more) := by
  have same : (recorder.keep more).finished.toList.filter (·.isCall) =
      recorder.finished.toList.filter (·.isCall) := by
    rw [Recorder.finished_keep, Array.toList_append, List.filter_append]
    refine (congrArg (_ ++ ·) (List.filter_eq_nil_iff.mpr fun span member => ?_)).trans
      (List.append_nil _)
    rw [others span (Array.mem_toList_iff.mp member)]
    exact Bool.false_ne_true
  intro thread
  rw [history, finishedCalls_of_eq same]
  exact h thread

end Finished

/-- All that ties the recorder to the nesting, as long as calls nest well. -/
structure Written (filter : NameFilter) (past : List Happening) (ts : ThreadId → ThreadState)
    (e : Engine) (recorder : Recorder) : Prop where
  bracketed : Bracketed filter past ts e
  recorded : Recorded past ts e recorder
  finished : Nests filter (answers past) → Finished filter past recorder

theorem kept_written (filter : NameFilter) :
    Kept fun past ts e => ∃ recorder, Written filter past ts e recorder where
  background := by
    rintro past ts e e' ⟨recorder, bracketed, recorded, finished⟩ quiet
    obtain ⟨loose, allLoose, recorded⟩ := recorded.background quiet
    exact ⟨_, (kept_bracketed filter).background bracketed quiet, recorded, fun nests =>
      (finished nests).keep rfl fun span member => (allLoose span member).not_isCall⟩
  host := by
    rintro past ts e thread now c outcome t e' ⟨recorder, bracketed, recorded, finished⟩ known step
    obtain ⟨recorder', drawn, recorded'⟩ := recorded.host known step
    refine ⟨recorder', (kept_bracketed filter).host bracketed known step, recorded',
      fun nests => ?_⟩
    rw [answers_append, answers_call] at nests
    exact (finished (nests.of_prefix (List.prefix_append _ _))).host
      (a := ⟨thread, now, c, outcome⟩) recorded bracketed known nests step drawn
  completion := by
    rintro past ts e thread offset c d t e' ⟨recorder, bracketed, recorded, finished⟩ known step
    obtain ⟨recorder', emitted, recorded'⟩ := recorded.completion step
    refine ⟨recorder', (kept_bracketed filter).completion bracketed known step, recorded',
      fun nests => ?_⟩
    have history := answers_append_completion past thread c d
    rw [history] at nests
    cases emitted with
    | nothing silent =>
      have none : ∀ span ∈ (#[] : Array Span), span.isCall = false :=
        fun span member => absurd member (Array.not_mem_empty span)
      have kept := (finished nests).keep history none
      rwa [Recorder.keep_empty] at kept
    | span supported ordered allLoose =>
      exact (finished nests).keep history (Array.forall_mem_append.mpr
        ⟨Array.forall_mem_singleton.mpr rfl, fun span old => (allLoose span old).not_isCall⟩)

structure KeepsNesting (r : Replay) (events : List RecordedEvent) : Prop where
  nested : Nested r.session.engine.callFilter (r.history events) (r.all events).threadState
  depth : ∀ thread, ((r.all events).threadState thread).depth =
    (Nesting.on r.session.engine.callFilter thread (answers (r.history events))).opened.length
  /-- An exit ends the innermost open call of its thread, and no call of another thread. -/
  closes : ∀ before thread time c, before ++ [.call thread time c] <+: events →
    c.domain = .correlated → r.session.engine.callFilter.accepts c.name = true → c.phase = .exit →
    let after := r.all (before ++ [.call thread time c])
    (∃ call, ((r.all before).threadState thread).calls = call :: (after.threadState thread).calls) ∧
      ∀ other, other ≠ thread →
        (after.threadState other).calls = ((r.all before).threadState other).calls

/-- Calls that are well nested are nested the same way in the threads, and in the recorder if
there is one. -/
theorem Started.keepsNesting {s : Settings} {r : Replay} (started : r.Started s)
    {events : List RecordedEvent} (wellNested : WellNested events) :
    r.KeepsNesting events ∧ (s.recordSpans = true → ∃ recorder,
      (r.all events).session.engine.sinks.spans = some recorder ∧
      Finished r.session.engine.callFilter (r.history events) recorder) := by
  have fresh := started.fresh
  have nests := (wellNested.nests r).filtered r.session.engine.callFilter
  refine ⟨?_, fun wanted => ?_⟩
  · obtain ⟨bracketed, _⟩ := (kept_bracketed r.session.engine.callFilter).all fresh.running
      fresh.bracketed events
    have nested := bracketed.nested nests
    refine ⟨nested, fun thread => (nested.opened thread).length_eq, ?_⟩
    exact fun before thread time c upTo domain passes exit =>
      fresh.closes (wellNested.of_prefix upTo) domain passes exit
  · obtain ⟨⟨recorder, _, recorded, finished⟩, _⟩ := (kept_written r.session.engine.callFilter).all
      fresh.running ⟨{}, fresh.bracketed, fresh.recorded wanted, fun _ _ => rfl⟩ events
    exact ⟨recorder, recorded.spans, finished nests⟩

/-- Two threads share an id, so each exit finds another record than its own or none. -/
theorem keepsNesting_of_shared_id : ∃ r : Replay, r.Started {} ∧
    let events : List RecordedEvent :=
      [.call 1 10 (.enter "hipMalloc" 7), .call 2 20 (.enter "hipFree" 7),
        .call 1 30 (.exit "hipMalloc" 7), .call 2 40 (.exit "hipFree" 7)]
    WellNested events ∧ r.KeepsNesting events ∧ ∃ recorder,
      (r.all events).session.engine.sinks.spans = some recorder ∧
      Finished r.session.engine.callFilter (r.history events) recorder := by
  obtain ⟨r, start⟩ : ∃ r, Replay.start {} none = .ok r := ⟨_, rfl⟩
  have started := Started.of_start start
  have wellNested : WellNested
      [.call 1 10 (.enter "hipMalloc" 7), .call 2 20 (.enter "hipFree" 7),
        .call 1 30 (.exit "hipMalloc" 7), .call 2 40 (.exit "hipFree" 7)] := by
    intro thread
    by_cases one : thread = 1
    · subst one
      decide
    · by_cases two : thread = 2
      · subst two
        decide
      · have none : callsOn thread [.call 1 10 (.enter "hipMalloc" 7),
            .call 2 20 (.enter "hipFree" 7), .call 1 30 (.exit "hipMalloc" 7),
            .call 2 40 (.exit "hipFree" 7)] = [] := by
          simp [callsOn, Ne.symm one, Ne.symm two]
        rw [none]
        rfl
  obtain ⟨keeps, finished⟩ := started.keepsNesting wellNested
  exact ⟨r, started, wellNested, keeps, finished rfl⟩

end Replay

end SpanWeave
