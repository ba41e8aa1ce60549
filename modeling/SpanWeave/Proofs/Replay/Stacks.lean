import Mathlib.Data.List.Forall2
import SpanWeave.Proofs.Engine.Drawing
import SpanWeave.Proofs.Replay.Numbering

set_option autoImplicit false

/-!
# Stacks

A thread has its open calls on one stack and the recorder has their begins on another. Whatever
the events, the two stay the same entry by entry, so the recorder never gets an end without a
begin, and every call that was entered is finished, discarded or open.
-/
namespace SpanWeave

structure Answer.Begins (a : Answer) (start : SpanStart) : Prop where
  name : start.name = a.call.name
  kind : start.kind = .cpu
  track : start.track = .thread a.thread
  time : start.time = a.time
  thread : start.thread = a.thread
  correlation : start.correlation = some a.call.correlation
  outcome : a.outcome = .entered start.identity

theorem Answer.Begins.isCall {a : Answer} {start : SpanStart} (h : a.Begins start) :
    start.isCall = true := by
  simp only [SpanStart.isCall, h.kind, h.correlation]
  rfl

namespace Replay

def Mirrors (past : List Happening) (thread : ThreadId) : List SpanStart → List OpenCall → Prop :=
  List.Forall₂ fun start call => ∃ a ∈ answers past, a.Opens thread call ∧ a.Begins start

namespace Mirrors
variable {past : List Happening} {thread : ThreadId} {starts : List SpanStart}

theorem later {calls : List OpenCall} (h : Mirrors past thread starts calls)
    (more : List Happening) : Mirrors (past ++ more) thread starts calls := by
  refine List.Forall₂.imp (fun start call ⟨a, member, both⟩ => ⟨a, ?_, both⟩) h
  rw [answers_append]
  exact List.mem_append_left _ member

/-- What is on the one stack at some height is on the other one. -/
theorem split {inner calls : List OpenCall} {call : OpenCall}
    (h : Mirrors past thread starts (inner ++ call :: calls)) :
    ∃ innerStarts start rest, starts = innerStarts ++ start :: rest ∧
      innerStarts.length = inner.length ∧ Mirrors past thread rest calls ∧
      ∃ a ∈ answers past, a.Opens thread call ∧ a.Begins start := by
  induction inner generalizing starts with
  | nil =>
    obtain ⟨start, rest, same, below, eq⟩ := List.forall₂_cons_right_iff.mp h
    exact ⟨[], start, rest, eq, rfl, below, same⟩
  | cons top inner ih =>
    obtain ⟨first, more, _, below, eq⟩ := List.forall₂_cons_right_iff.mp h
    obtain ⟨innerStarts, start, rest, rfl, length, outer, same⟩ := ih below
    exact ⟨first :: innerStarts, start, rest, eq, congrArg (· + 1) length, outer, same⟩

end Mirrors

structure Recorded (past : List Happening) (ts : ThreadId → ThreadState) (e : Engine)
    (recorder : Recorder) : Prop where
  spans : e.sinks.spans = some recorder
  mirrors : ∀ thread, Mirrors past thread (recorder.openOn (.thread thread)) (ts thread).calls
  matched : recorder.unmatchedEnds = 0
  balance : recorder.balance = ((answers past).filter (·.outcome.isEntered)).length
  enters : e.calls.enters = recorder.balance
  timed : ∀ span ∈ recorder.finished, span.IsTimed

inductive HostSpans (past : List Happening) (e : Engine) (t : ThreadState) (c : HostCall)
    (now : Nanos) : Outcome → ThreadState → List Span → Prop
  | none {outcome : Outcome} {t' : ThreadState} (calls : t.calls.length ≤ t'.calls.length)
      (exited : ∀ identity, outcome ≠ .exited identity) : HostSpans past e t c now outcome t' []
  | ended {outcome : Outcome} {t' : ThreadState} {inner : List OpenCall} {call : OpenCall}
      {start : SpanStart} {a : Answer} (opened : t.calls = inner ++ call :: t'.calls)
      (member : a ∈ answers past) (opens : a.Opens t.thread call) (begins : a.Begins start) :
      HostSpans past e t c now outcome t' (if now < call.beganAt then [] else [start.finish now])
  | leaf {t' : ThreadState} {beganAt endsAt : Nanos} (calls : t'.calls = t.calls) :
      HostSpans past e t c now (.untracked (t.nextIdentity e.ids).1) t'
        [(Engine.untrackedStart t c (t.nextIdentity e.ids).1 beganAt).finish endsAt]

/-- The spans of calls among them: none, or the one of the call that was ended. -/
theorem HostSpans.calls {past : List Happening} {e : Engine} {t t' : ThreadState} {c : HostCall}
    {now : Nanos} {outcome : Outcome} {own : List Span}
    (h : HostSpans past e t c now outcome t' own) :
    (own.filter (·.isCall) = [] ∧ t.calls.length ≤ t'.calls.length) ∨
    ∃ inner call start, ∃ a ∈ answers past, t.calls = inner ++ call :: t'.calls ∧
      a.Opens t.thread call ∧ a.Begins start ∧
      own.filter (·.isCall) = if now < call.beganAt then [] else [start.finish now] := by
  cases h with
  | none calls => exact .inl ⟨rfl, calls⟩
  | @ended _ _ inner call start a opened member opens begins =>
    refine .inr ⟨inner, call, start, a, member, opened, opens, begins, ?_⟩
    split
    · rfl
    · exact List.filter_eq_self.mpr fun span new => by
        rw [List.mem_singleton.mp new, SpanStart.isCall_finish, begins.isCall]
  | leaf calls => exact .inl ⟨rfl, Nat.le_of_eq (congrArg List.length calls.symm)⟩

theorem HostSpans.eq_nil_of_entered {past : List Happening} {e : Engine} {t t' : ThreadState}
    {c : HostCall} {now : Nanos} {identity : Identity} {own : List Span}
    (h : HostSpans past e t c now (.entered identity) t' own)
    (longer : t.calls.length ≤ t'.calls.length) : own = [] := by
  cases h with
  | none => rfl
  | ended opened =>
    have length := congrArg List.length opened
    rw [List.length_append, List.length_cons] at length
    omega

namespace Recorded
variable {past : List Happening} {ts : ThreadId → ThreadState} {e e' : Engine}
  {recorder recorder' : Recorder}

theorem keep (h : Recorded past ts e recorder) {more : Array Span}
    (spans : e'.sinks.spans = some (recorder.keep more)) (enters : e'.calls.enters = e.calls.enters)
    (others : ∀ span ∈ more, span.isCall = false) (timed : ∀ span ∈ more, span.IsTimed) :
    Recorded past ts e' (recorder.keep more) := by
  have balance := recorder.balance_keep others
  refine ⟨spans, h.mirrors, h.matched, balance.trans h.balance, ?_, fun span member => ?_⟩
  · rw [enters, h.enters, balance]
  · exact (Array.mem_append.mp member).elim (h.timed span) (timed span)

theorem move (h : Recorded past ts e recorder) {a : Answer} {t : ThreadState}
    (spans : e'.sinks.spans = some recorder')
    (others : ∀ track, Track.thread a.thread ≠ track →
      recorder'.openOn track = recorder.openOn track)
    (here : Mirrors (past ++ [.call a]) a.thread (recorder'.openOn (.thread a.thread)) t.calls)
    (matched : recorder'.unmatchedEnds = recorder.unmatchedEnds)
    (balance : recorder'.balance = recorder.balance + if a.outcome.isEntered then 1 else 0)
    (enters : e'.calls.enters = e.calls.enters + if a.outcome.isEntered then 1 else 0)
    (more : Array Span) (finished : recorder'.finished = recorder.finished ++ more)
    (timed : ∀ span ∈ more, span.IsTimed) :
    Recorded (past ++ [.call a]) (Function.update ts a.thread t) e' recorder' := by
  refine ⟨spans, fun thread => ?_, matched.trans h.matched, ?_, ?_, fun span member => ?_⟩
  · by_cases same : thread = a.thread
    · rw [same, Function.update_self]
      exact here
    · rw [Function.update_of_ne same, others _ fun eq => same (Track.thread.inj eq).symm]
      exact (h.mirrors thread).later _
  · rw [answers_append, answers_call, List.filter_append, List.length_append, List.filter_singleton,
      balance, h.balance]
    cases a.outcome.isEntered <;> rfl
  · rw [enters, balance, h.enters]
  · rw [finished] at member
    exact (Array.mem_append.mp member).elim (h.timed span) (timed span)

/-- Ending a call finishes the span that it began, unless that would be before its begin. -/
theorem finished_closed (h : Recorded past ts e recorder) {thread : ThreadId}
    {inner calls : List OpenCall} {call : OpenCall}
    (opened : (ts thread).calls = inner ++ call :: calls) (loose : Array Span) (now : Nanos) :
    ∃ start, ∃ a ∈ answers past, a.Opens thread call ∧ a.Begins start ∧
      ((recorder.keep loose).closeSpan (.thread thread) inner.length call.beganAt now).finished =
        recorder.finished ++
          (loose ++ if now < call.beganAt then #[] else #[start.finish now]) := by
  have stack := h.mirrors thread
  rw [opened] at stack
  obtain ⟨innerStarts, start, rest, starts, length, _, a, member, opens, begins⟩ := stack.split
  change (recorder.keep loose).openOn _ = _ at starts
  refine ⟨start, a, member, opens, begins, ?_⟩
  rw [← length, Recorder.finished_closeSpan starts, Recorder.finished_keep, Array.append_assoc]

/-- An event on the host finishes at most one span of the host, beside loose ones. -/
theorem finished_host (h : Recorded past ts e recorder) {thread : ThreadId} {now : Nanos}
    {c : HostCall} {outcome : Outcome} {t : ThreadState} (known : (ts thread).thread = thread)
    (drawn : Engine.Drawn e (ts thread) c now recorder outcome t recorder') :
    ∃ more : Array Span, recorder'.finished = recorder.finished ++ more ∧
      (∀ span ∈ more, span.kind = .cpu ∨ span.IsLoose) ∧
      HostSpans past e (ts thread) c now outcome t (more.toList.filter (·.kind == .cpu)) := by
  cases drawn with
  | @nothing _ _ loose allLoose calls _ exited =>
    refine ⟨loose, rfl, fun span old => .inr (allLoose span old), ?_⟩
    rw [Span.IsLoose.filter_host allLoose]
    exact .none (Nat.le_of_eq (congrArg List.length calls.symm)) exited
  | @begun loose allLoose =>
    refine ⟨loose, ?_, fun span old => .inr (allLoose span old), ?_⟩
    · rw [Recorder.finished_keep, Recorder.finished_beginSpan]
    · rw [Span.IsLoose.filter_host allLoose]
      exact .none (Nat.le_succ _) fun _ eq => by cases eq
  | @closed _ loose inner calls call allLoose opened entered exited =>
    obtain ⟨start, a, member, opens, begins, finished⟩ := h.finished_closed opened loose now
    rw [known]
    refine ⟨_, finished, fun span new => ?_, ?_⟩
    · rcases Array.mem_append.mp new with old | new
      · exact .inr (allLoose span old)
      · split at new
        · exact absurd new (Array.not_mem_empty span)
        · rw [List.mem_singleton.mp (Array.mem_toList_iff.mpr new)]
          exact .inl begins.kind
    · have own : (if now < call.beganAt then #[] else #[start.finish now]).toList.filter
          (·.kind == .cpu) = if now < call.beganAt then [] else [start.finish now] := by
        split
        · rfl
        · exact List.filter_eq_self.mpr fun span new => by
            rw [List.mem_singleton.mp new]
            exact beq_iff_eq.mpr begins.kind
      rw [Array.toList_append, List.filter_append, Span.IsLoose.filter_host allLoose, own,
        List.nil_append]
      rw [← known] at opens
      exact .ended opened member opens begins
  | @leaf loose beganAt endsAt untracked allLoose =>
    refine ⟨#[(Engine.untrackedStart (ts thread) c ((ts thread).nextIdentity e.ids).1
      beganAt).finish endsAt] ++ loose, ?_, fun span new => ?_, ?_⟩
    · rw [Recorder.finished_keep, recorder.finished_leaf (Engine.track_untrackedStart _ _ _ _),
        ← Array.append_assoc]
      rfl
    · rcases Array.mem_append.mp new with new | old
      · rw [List.mem_singleton.mp (Array.mem_toList_iff.mpr new)]
        exact .inl rfl
      · exact .inr (allLoose span old)
    · rw [Array.toList_append, List.filter_append, Span.IsLoose.filter_host allLoose,
        List.append_nil]
      exact .leaf rfl

/-- An event on the host finishes at most one span of a call, the one of the call it ends. -/
theorem calls_host (h : Recorded past ts e recorder) {thread : ThreadId} {now : Nanos}
    {c : HostCall} {outcome : Outcome} {t : ThreadState} (known : (ts thread).thread = thread)
    (drawn : Engine.Drawn e (ts thread) c now recorder outcome t recorder') :
    (recorder'.finished.toList.filter (·.isCall) = recorder.finished.toList.filter (·.isCall) ∧
      (ts thread).calls.length ≤ t.calls.length) ∨
    ∃ inner call start, ∃ a ∈ answers past, (ts thread).calls = inner ++ call :: t.calls ∧
      a.Opens thread call ∧ a.Begins start ∧
      recorder'.finished.toList.filter (·.isCall) = recorder.finished.toList.filter (·.isCall) ++
        if now < call.beganAt then [] else [start.finish now] := by
  obtain ⟨more, finished, _, spans⟩ := h.finished_host known drawn
  have calls : more.toList.filter (·.isCall) =
      (more.toList.filter (·.kind == .cpu)).filter (·.isCall) := by
    rw [List.filter_filter]
    refine List.filter_congr fun span _ => ?_
    unfold Span.isCall
    cases span.kind <;> cases span.correlation.isSome <;> rfl
  rw [finished, Array.toList_append, List.filter_append, calls]
  rcases spans.calls with
    ⟨none, longer⟩ | ⟨inner, call, start, a, member, split, opens, begins, own⟩
  · rw [none, List.append_nil]
    exact .inl ⟨rfl, longer⟩
  · rw [own]
    exact .inr ⟨inner, call, start, a, member, split, known ▸ opens, begins, rfl⟩

theorem begun (h : Recorded past ts e recorder) {a : Answer} {t : ThreadState} {start : SpanStart}
    {loose : Array Span} (spans : e'.sinks.spans = some ((recorder.beginSpan start).keep loose))
    (enters : e'.calls.enters = e.calls.enters + if a.outcome.isEntered then 1 else 0)
    (allLoose : ∀ span ∈ loose, span.IsLoose) (begins : a.Begins start)
    (calls : t.calls = ⟨start.identity, start.time⟩ :: (ts a.thread).calls) :
    Recorded (past ++ [.call a]) (Function.update ts a.thread t) e'
      ((recorder.beginSpan start).keep loose) := by
  have member : a ∈ answers (past ++ [.call a]) := by
    rw [answers_append]
    exact List.mem_append_right _ (List.mem_singleton_self a)
  refine h.move spans (fun other different => ?_) ?_ ?_ ?_ enters loose ?_
    fun span member => (allLoose span member).isTimed
  · refine recorder.openOn_beginSpan_of_ne start ?_
    rw [begins.track]
    exact different
  · rw [Recorder.openOn_keep, ← begins.track, Recorder.openOn_beginSpan, begins.track, calls]
    exact .cons ⟨a, member, ⟨rfl, begins.time.symm, begins.outcome⟩, begins⟩
      ((h.mirrors a.thread).later _)
  · exact recorder.unmatchedEnds_beginSpan start
  · rw [Recorder.balance_keep _ fun span member => (allLoose span member).not_isCall,
      recorder.balance_beginSpan start, begins.outcome]
    rfl
  · rw [Recorder.finished_keep, Recorder.finished_beginSpan]

/-- A call that is ended has its begin at the same height. -/
theorem closed (h : Recorded past ts e recorder) {a : Answer} {t : ThreadState}
    {loose : Array Span} {inner : List OpenCall} {call : OpenCall}
    (spans : e'.sinks.spans = some
      ((recorder.keep loose).closeSpan (.thread a.thread) inner.length call.beganAt a.time))
    (enters : e'.calls.enters = e.calls.enters + if a.outcome.isEntered then 1 else 0)
    (allLoose : ∀ span ∈ loose, span.IsLoose) (silent : a.outcome.isEntered = false)
    (opened : (ts a.thread).calls = inner ++ call :: t.calls) :
    Recorded (past ++ [.call a]) (Function.update ts a.thread t) e'
      ((recorder.keep loose).closeSpan (.thread a.thread) inner.length call.beganAt a.time) := by
  have stack := h.mirrors a.thread
  rw [opened] at stack
  obtain ⟨innerStarts, start, rest, starts, length, below, _, _, opens, begins⟩ := stack.split
  change (recorder.keep loose).openOn _ = _ at starts
  rw [← length] at spans ⊢
  refine h.move spans (fun other different => ?_) ?_ ?_ ?_ enters
    (loose ++ if a.time < call.beganAt then #[] else #[start.finish a.time]) ?_ ?_
  · exact (recorder.keep loose).openOn_closeSpan_of_ne different _ _ _
  · rw [Recorder.openOn_closeSpan, starts, ← List.drop_drop, List.drop_left]
    exact below.later _
  · exact Recorder.unmatchedEnds_closeSpan starts _ _
  · rw [silent, Recorder.balance_closeSpan starts begins.isCall]
    exact recorder.balance_keep fun span member => (allLoose span member).not_isCall
  · rw [Recorder.finished_closeSpan starts, Recorder.finished_keep, Array.append_assoc]
  · intro span new
    rcases Array.mem_append.mp new with old | new
    · exact (allLoose span old).isTimed
    · split at new
      · exact absurd new (Array.not_mem_empty span)
      · rename_i ordered
        rw [List.mem_singleton.mp (Array.mem_toList_iff.mpr new)]
        refine SpanStart.isTimed_finish ?_
        rw [begins.time, opens.time]
        exact Nat.le_of_not_lt ordered

theorem leaf (h : Recorded past ts e recorder) {a : Answer} {t : ThreadState} {start : SpanStart}
    {endsAt : Nanos} {loose : Array Span}
    (spans : e'.sinks.spans = some
      (((recorder.beginSpan start).endSpan (.thread a.thread) endsAt).keep loose))
    (enters : e'.calls.enters = e.calls.enters + if a.outcome.isEntered then 1 else 0)
    (allLoose : ∀ span ∈ loose, span.IsLoose) (silent : a.outcome.isEntered = false)
    (track : start.track = .thread a.thread) (other : start.isCall = false)
    (ordered : start.time ≤ endsAt) (calls : t.calls = (ts a.thread).calls) :
    Recorded (past ++ [.call a]) (Function.update ts a.thread t) e'
      (((recorder.beginSpan start).endSpan (.thread a.thread) endsAt).keep loose) := by
  have opened := recorder.openOn_beginSpan start
  rw [track] at opened
  have balance := Recorder.balance_endSpan opened endsAt
  have ended := Recorder.endSpan_eq opened endsAt
  refine h.move spans (fun other different => ?_) ?_ ?_ ?_ enters
    (#[start.finish endsAt] ++ loose) ?_ ?_
  · rw [Recorder.openOn_keep, Recorder.openOn_endSpan_of_ne _ different]
    refine recorder.openOn_beginSpan_of_ne start ?_
    rw [track]
    exact different
  · rw [Recorder.openOn_keep, Recorder.openOn_endSpan, opened, calls]
    exact (h.mirrors a.thread).later _
  · rw [Recorder.unmatchedEnds_keep, ended]
    exact (Recorder.unmatchedEnds_setOpen _ _ _).trans (recorder.unmatchedEnds_beginSpan start)
  · rw [other, recorder.balance_beginSpan] at balance
    rw [silent, Recorder.balance_keep _ fun span member => (allLoose span member).not_isCall]
    exact Nat.succ.inj balance
  · rw [Recorder.finished_keep, recorder.finished_leaf track, ← Array.append_assoc]
    rfl
  · intro span new
    rcases Array.mem_append.mp new with new | old
    · rw [List.mem_singleton.mp (Array.mem_toList_iff.mpr new)]
      exact SpanStart.isTimed_finish ordered
    · exact (allLoose span old).isTimed

theorem host (h : Recorded past ts e recorder) {thread : ThreadId} {now : Nanos} {c : HostCall}
    {outcome : Outcome} {t : ThreadState} (known : (ts thread).thread = thread)
    (step : Engine.HostStep e (ts thread) c now outcome t e') :
    ∃ recorder', Engine.Drawn e (ts thread) c now recorder outcome t recorder' ∧
      Recorded (past ++ [.call ⟨thread, now, c, outcome⟩]) (Function.update ts thread t) e'
        recorder' := by
  obtain ⟨recorder', spans, drawn⟩ := step.drawn h.spans
  have enters := step.enters_eq
  refine ⟨recorder', drawn, ?_⟩
  have silent : (∀ identity, outcome ≠ .entered identity) → outcome.isEntered = false := by
    intro entered
    cases outcome with
    | entered identity => exact absurd rfl (entered identity)
    | _ => rfl
  cases drawn with
  | nothing allLoose calls entered =>
    refine h.move spans (fun _ _ => rfl) ?_ rfl ?_ enters _ rfl fun span member =>
      (allLoose span member).isTimed
    · rw [calls]
      exact (h.mirrors thread).later _
    · rw [silent entered]
      exact recorder.balance_keep fun span member => (allLoose span member).not_isCall
  | begun allLoose =>
    exact h.begun spans enters allLoose
      ⟨rfl, rfl, congrArg Track.thread known, rfl, known, rfl, rfl⟩ rfl
  | closed allLoose opened entered =>
    rw [known] at spans ⊢
    exact h.closed (a := ⟨thread, now, c, outcome⟩) spans enters allLoose (silent entered) opened
  | leaf allLoose ordered =>
    rw [known] at spans ⊢
    exact h.leaf (a := ⟨thread, now, c, _⟩) spans enters allLoose rfl
      (congrArg Track.thread known) rfl ordered rfl

theorem completion (h : Recorded past ts e recorder) {thread : ThreadId} {offset : Int}
    {c : Completion} {d : Disposition} {t : ThreadState}
    (step : Engine.DrainStep e (ts thread) offset c d t e') :
    ∃ recorder', Engine.Emitted e (ts thread) offset c recorder d recorder' ∧
      Recorded (past ++ [.completion thread c d]) (Function.update ts thread t) e' recorder' := by
  obtain ⟨recorder', spans, emitted⟩ := step.drawn h.spans
  have enters := step.enters_eq
  have moved : Recorded (past ++ [.completion thread c d]) (Function.update ts thread t) e
      recorder := by
    refine ⟨h.spans, fun other => ?_, h.matched, ?_, h.enters, h.timed⟩
    · rw [step.calls_update]
      exact (h.mirrors other).later _
    · rw [answers_append_completion, h.balance]
  refine ⟨recorder', emitted, ?_⟩
  cases emitted with
  | nothing silent =>
    exact ⟨spans, moved.mirrors, moved.matched, moved.balance, enters.trans moved.enters,
      moved.timed⟩
  | span supported ordered allLoose =>
    refine moved.keep spans enters
      (Array.forall_mem_append.mpr ⟨Array.forall_mem_singleton.mpr rfl, fun span old => ?_⟩)
      (Array.forall_mem_append.mpr ⟨Array.forall_mem_singleton.mpr ?_, fun span old => ?_⟩)
    · exact (allLoose span old).not_isCall
    · exact SpanStart.isTimed_finish (Nat.le_of_lt ordered)
    · exact (allLoose span old).isTimed

theorem background (h : Recorded past ts e recorder) (quiet : e.Background e') :
    ∃ loose : Array Span, (∀ span ∈ loose, span.IsLoose) ∧
      Recorded past ts e' (recorder.keep loose) := by
  obtain ⟨loose, allLoose, spans⟩ := quiet.recorder h.spans
  refine ⟨loose, allLoose, h.keep spans (congrArg CallCounts.enters quiet.calls) ?_ ?_⟩
  · exact fun span member => (allLoose span member).not_isCall
  · exact fun span member => (allLoose span member).isTimed

end Recorded

theorem kept_recorded : Kept fun past ts e => ∃ recorder, Recorded past ts e recorder where
  background := by
    rintro past ts e e' ⟨recorder, h⟩ quiet
    obtain ⟨loose, _, h⟩ := h.background quiet
    exact ⟨_, h⟩
  host := by
    rintro past ts e thread now c outcome t e' ⟨recorder, h⟩ known step
    obtain ⟨recorder', _, h⟩ := h.host known step
    exact ⟨recorder', h⟩
  completion := by
    rintro past ts e thread offset c d t e' ⟨recorder, h⟩ known step
    obtain ⟨recorder', _, h⟩ := h.completion step
    exact ⟨recorder', h⟩

/-- What a recorder tells of the threads of a replay, after the events of a history. -/
structure InStep (past : List Happening) (r : Replay) (recorder : Recorder) : Prop where
  opened : ∀ thread,
    (recorder.openOn (.thread thread)).map (fun start => (start.identity, start.time)) =
      (r.threadState thread).calls.map fun call => (call.identity, call.beganAt)
  matched : recorder.unmatchedEnds = 0
  handled : r.session.engine.calls.enters = ((answers past).filter (·.outcome.isEntered)).length
  /-- Every call that was entered is finished, discarded or open. -/
  enters : r.session.engine.calls.enters =
    (recorder.finished.toList.filter (·.isCall)).length + recorder.discarded + recorder.openCount
  timed : ∀ span ∈ recorder.finished,
    span.beginsAt ≤ span.endsAt ∧ span.duration = span.endsAt - span.beginsAt

theorem Recorded.inStep {past : List Happening} {r : Replay} {recorder : Recorder}
    (h : Recorded past r.threadState r.session.engine recorder) : r.InStep past recorder := by
  refine ⟨fun thread => ?_, h.matched, h.enters.trans h.balance, h.enters, fun span member =>
    ⟨(h.timed span member).ordered, (h.timed span member).duration⟩⟩
  refine List.forall₂_eq_eq_eq ▸ ?_
  rw [List.forall₂_map_left_iff, List.forall₂_map_right_iff]
  refine (h.mirrors thread).imp fun start call ⟨a, _, opens, begins⟩ => ?_
  have identity := begins.outcome.symm.trans opens.outcome
  rw [Outcome.entered.inj identity, begins.time, opens.time]

theorem Fresh.recorded {s : Settings} {r : Replay} (fresh : r.Fresh s)
    (wanted : s.recordSpans = true) : Recorded [] r.threadState r.session.engine {} := by
  refine ⟨?_, fun thread => ?_, rfl, ?_, ?_, fun span member => absurd member ?_⟩
  · rw [fresh.spans, wanted]
    rfl
  · rw [fresh.threadState, Recorder.openOn_empty]
    exact .nil
  · rfl
  · rw [fresh.calls]
    rfl
  · exact Array.not_mem_empty span

/-- The recorder stays in step with the threads over every list of events. -/
theorem Started.recorder_inStep {s : Settings} {r : Replay} (started : r.Started s)
    (wanted : s.recordSpans = true) (events : List RecordedEvent) :
    ∃ recorder, (r.all events).session.engine.sinks.spans = some recorder ∧
      (r.all events).InStep (r.history events) recorder := by
  have fresh := started.fresh
  obtain ⟨⟨recorder, recorded⟩, _⟩ :=
    kept_recorded.all fresh.running ⟨{}, fresh.recorded wanted⟩ events
  exact ⟨recorder, recorded.spans, recorded.inStep⟩

/-- Two threads share an id and one of them never leaves its call. -/
theorem recorder_inStep_of_shared_id : ∃ r : Replay, r.Started {} ∧
    ({} : Settings).recordSpans = true ∧
    let events : List RecordedEvent :=
      [.call 1 10 (.enter "hipMalloc" 7), .call 2 20 (.enter "hipFree" 7),
        .call 1 5 (.exit "hipMalloc" 7)]
    ∃ recorder, (r.all events).session.engine.sinks.spans = some recorder ∧
      (r.all events).InStep (r.history events) recorder := by
  obtain ⟨r, start⟩ : ∃ r, Replay.start {} none = .ok r := ⟨_, rfl⟩
  have started := Started.of_start start
  exact ⟨r, started, rfl, started.recorder_inStep rfl _⟩

end Replay

end SpanWeave
