import SpanWeave.Proofs.Engine.Steps
import SpanWeave.Proofs.Span.Balance

set_option autoImplicit false

/-!
# Drawing

What the steps of the engine do to the recorder, if there is one: a call that is entered is begun,
a call that is ended is finished or discarded after those inside it were discarded, and all else
only keeps more finished spans.
-/
namespace SpanWeave

namespace Recorder

/-- Discards the `inner` open spans of a track, and ends the next one unless that would be before
it began. -/
def closeSpan (r : Recorder) (track : Track) (inner : Nat) (beganAt now : Nanos) : Recorder :=
  if now < beganAt then (r.discardSpans track inner).discardSpan track
  else (r.discardSpans track inner).endSpan track now

@[simp] theorem openOn_closeSpan (r : Recorder) (track : Track) (inner : Nat)
    (beganAt now : Nanos) :
    (r.closeSpan track inner beganAt now).openOn track = (r.openOn track).drop (inner + 1) := by
  unfold closeSpan
  split <;> simp

theorem openOn_closeSpan_of_ne (r : Recorder) {track other : Track} (h : track ≠ other)
    (inner : Nat) (beganAt now : Nanos) :
    (r.closeSpan track inner beganAt now).openOn other = r.openOn other := by
  unfold closeSpan
  split
  · rw [openOn_discardSpan_of_ne _ h, openOn_discardSpans_of_ne _ h]
  · rw [openOn_endSpan_of_ne _ h, openOn_discardSpans_of_ne _ h]

variable {r : Recorder} {track : Track} {inner starts : List SpanStart} {start : SpanStart}

theorem openOn_discarded (opened : r.openOn track = inner ++ start :: starts) :
    (r.discardSpans track inner.length).openOn track = start :: starts := by
  rw [openOn_discardSpans, opened, List.drop_left]

theorem finished_closeSpan (opened : r.openOn track = inner ++ start :: starts)
    (beganAt now : Nanos) : (r.closeSpan track inner.length beganAt now).finished =
      r.finished ++ if now < beganAt then #[] else #[start.finish now] := by
  unfold closeSpan
  split
  · rw [finished_discardSpan, finished_discardSpans, Array.append_empty]
  · rw [endSpan_eq (openOn_discarded opened)]
    exact congrArg (Array.push · (start.finish now)) (finished_discardSpans r track _)

theorem unmatchedEnds_closeSpan (opened : r.openOn track = inner ++ start :: starts)
    (beganAt now : Nanos) :
    (r.closeSpan track inner.length beganAt now).unmatchedEnds = r.unmatchedEnds := by
  unfold closeSpan
  split
  · rw [unmatchedEnds_discardSpan, unmatchedEnds_discardSpans]
  · rw [endSpan_eq (openOn_discarded opened)]
    exact (unmatchedEnds_setOpen _ _ _).trans (unmatchedEnds_discardSpans r track _)

theorem balance_closeSpan (opened : r.openOn track = inner ++ start :: starts)
    (call : start.isCall = true) (beganAt now : Nanos) :
    (r.closeSpan track inner.length beganAt now).balance = r.balance := by
  unfold closeSpan
  split
  · rw [balance_discardSpan, balance_discardSpans]
  · have ended := balance_endSpan (openOn_discarded opened) now
    rwa [call, if_pos rfl, Nat.add_zero, balance_discardSpans] at ended

end Recorder

@[simp] theorem Sinks.spans_discardSpans (s : Sinks) (track : Track) (n : Nat) :
    (s.discardSpans track n).spans = s.spans.map (·.discardSpans track n) := by
  induction n generalizing s with
  | zero =>
    cases h : s.spans with
    | none => exact h
    | some r => exact h
  | succ n ih =>
    rw [Sinks.discardSpans, ih]
    change (s.spans.map _).map _ = _
    rw [Option.map_map]
    rfl

@[simp] theorem Sinks.marks_discardSpans (s : Sinks) (track : Track) (n : Nat) :
    (s.discardSpans track n).marks = s.marks := by
  induction n generalizing s with
  | zero => rfl
  | succ n ih => rw [Sinks.discardSpans, ih]; rfl

namespace Engine

theorem track_untrackedStart (t : ThreadState) (c : HostCall) (identity : Identity)
    (beganAt : Nanos) : (untrackedStart t c identity beganAt).track = .thread t.thread := rfl

theorem Background.recorder {e e' : Engine} (h : e.Background e') {r : Recorder}
    (spans : e.sinks.spans = some r) :
    ∃ loose : Array Span, (∀ span ∈ loose, span.IsLoose) ∧
      e'.sinks.spans = some (r.keep loose) := by
  obtain ⟨loose, allLoose, eq⟩ := h.sinks.spans
  exact ⟨loose, allLoose, by rw [eq, spans]; rfl⟩

inductive Drawn (e : Engine) (t : ThreadState) (c : HostCall) (now : Nanos) (r : Recorder) :
    Outcome → ThreadState → Recorder → Prop
  | nothing {outcome : Outcome} {t' : ThreadState} {loose : Array Span}
      (allLoose : ∀ span ∈ loose, span.IsLoose) (calls : t'.calls = t.calls)
      (entered : ∀ identity, outcome ≠ .entered identity)
      (exited : ∀ identity, outcome ≠ .exited identity) :
      Drawn e t c now r outcome t' (r.keep loose)
  | begun {loose : Array Span} (allLoose : ∀ span ∈ loose, span.IsLoose) :
      Drawn e t c now r (.entered (t.nextIdentity e.ids).1) (t.push e.ids now).2.1
        ((r.beginSpan (callStart t c (t.nextIdentity e.ids).1 now)).keep loose)
  | closed {outcome : Outcome} {loose : Array Span} {inner calls : List OpenCall} {call : OpenCall}
      (allLoose : ∀ span ∈ loose, span.IsLoose) (opened : t.calls = inner ++ call :: calls)
      (entered : ∀ identity, outcome ≠ .entered identity)
      (exited : ∀ identity, outcome = .exited identity →
        call.identity.span = identity.span ∧ call.beganAt ≤ now) :
      Drawn e t c now r outcome { t with calls }
        ((r.keep loose).closeSpan (.thread t.thread) inner.length call.beganAt now)
  | leaf {loose : Array Span} {beganAt endsAt : Nanos} {untracked : List Nanos}
      (allLoose : ∀ span ∈ loose, span.IsLoose) (ordered : beganAt ≤ endsAt) :
      Drawn e t c now r (.untracked (t.nextIdentity e.ids).1) { t with untracked }
        (((r.beginSpan (untrackedStart t c (t.nextIdentity e.ids).1 beganAt)).endSpan
          (.thread t.thread) endsAt).keep loose)

variable {e e' : Engine} {t t' : ThreadState} {r : Recorder}

theorem HostStep.drawn {c : HostCall} {now : Nanos} {outcome : Outcome}
    (h : HostStep e t c now outcome t' e') (spans : e.sinks.spans = some r) :
    ∃ r', e'.sinks.spans = some r' ∧ Drawn e t c now r outcome t' r' := by
  have none : ∀ span ∈ (#[] : Array Span), span.IsLoose := fun span member =>
    absurd member (Array.not_mem_empty span)
  cases h with
  | filtered | untrackedEnter | untrackedStray | untrackedAnomaly =>
    refine ⟨r.keep #[], ?_, .nothing none rfl ?_ ?_⟩
    · rw [Recorder.keep_empty]
      exact spans
    · exact fun _ eq => by cases eq
    · exact fun _ eq => by cases eq
  | stray traced domain phase earlier =>
    obtain ⟨loose, allLoose, kept⟩ := earlier.recorder spans
    exact ⟨r.keep loose, kept, .nothing allLoose rfl (fun _ eq => by cases eq)
      (fun _ eq => by cases eq)⟩
  | entered traced domain phase later =>
    obtain ⟨loose, allLoose, kept⟩ := later.recorder
      (r := r.beginSpan (callStart t c (t.nextIdentity e.ids).1 now))
      (by change e.sinks.spans.map _ = _; rw [spans]; rfl)
    exact ⟨_, kept, .begun allLoose⟩
  | leaf traced domain phase opened ended ordered later =>
    obtain ⟨loose, allLoose, kept⟩ := later.recorder
      (by change (e.sinks.spans.map _).map _ = _; rw [spans]; rfl)
    exact ⟨_, kept, .leaf allLoose ordered⟩
  | @exited e' identity inner calls call traced domain phase earlier registered opened same others
      ordered =>
    obtain ⟨loose, allLoose, kept⟩ := earlier.recorder spans
    refine ⟨_, ?_, .closed allLoose opened (fun _ eq => by cases eq)
      fun _ eq => by cases eq; exact ⟨same, ordered⟩⟩
    change ((e'.sinks.discardSpans _ _).spans.map _) = _
    rw [Sinks.spans_discardSpans, kept, Recorder.closeSpan, if_neg (Nat.not_lt.mpr ordered)]
    rfl
  | @anomaly e' identity inner calls call traced domain phase earlier registered opened same others
      late =>
    obtain ⟨loose, allLoose, kept⟩ := earlier.recorder spans
    refine ⟨_, ?_, .closed allLoose opened (fun _ eq => by cases eq) (fun _ eq => by cases eq)⟩
    change ((e'.sinks.discardSpans _ _).spans.map _) = _
    rw [Sinks.spans_discardSpans, kept, Recorder.closeSpan, if_pos late]
    rfl
  | @missing e' calls call traced domain phase earlier opened unknown =>
    obtain ⟨loose, allLoose, kept⟩ := earlier.recorder spans
    have innermost : t.calls = [] ++ call :: calls := opened
    refine ⟨_, ?_, .closed allLoose innermost (fun _ eq => by cases eq)
      (fun _ eq => by cases eq)⟩
    change Sinks.spans (if _ then e'.sinks.discardSpan _ else e'.sinks.endSpan _ _) = _
    unfold Recorder.closeSpan
    split
    · change e'.sinks.spans.map _ = _
      rw [kept]
      rfl
    · change e'.sinks.spans.map _ = _
      rw [kept]
      rfl

def deviceSpan (e : Engine) (t : ThreadState) (offset : Int) (c : Completion) (op : DeviceOp) :
    Span :=
  (deviceStart (t.nextLap c.correlation).2 (e.registry.lookupRecord? c.correlation).1 c op
    (shiftTime c.beginsAt.toNat offset) (t.nextLap c.correlation).1).finish
      (shiftTime c.endsAt.toNat offset)

inductive Emitted (e : Engine) (t : ThreadState) (offset : Int) (c : Completion) (r : Recorder) :
    Disposition → Recorder → Prop
  | nothing {d : Disposition} (silent : ∀ orphan, d ≠ .emitted orphan) : Emitted e t offset c r d r
  | span {op : DeviceOp} {loose : Array Span} (supported : c.op? = some op)
      (ordered : shiftTime c.beginsAt.toNat offset < shiftTime c.endsAt.toNat offset)
      (allLoose : ∀ span ∈ loose, span.IsLoose) :
      Emitted e t offset c r (.emitted (e.registry.lookupRecord? c.correlation).1.isNone)
        (r.keep (#[e.deviceSpan t offset c op] ++ loose))

theorem DrainStep.drawn {offset : Int} {c : Completion} {d : Disposition}
    (h : DrainStep e t offset c d t' e') (spans : e.sinks.spans = some r) :
    ∃ r', e'.sinks.spans = some r' ∧ Emitted e t offset c r d r' := by
  cases h with
  | unsupported | filtered | anomaly =>
    exact ⟨r, spans, .nothing fun _ eq => by cases eq⟩
  | @orphaned op supported traced ordered unknown =>
    have none : ∀ span ∈ (#[] : Array Span), span.IsLoose := fun span member =>
      absurd member (Array.not_mem_empty span)
    have emitted := Emitted.span (e := e) (t := t) (r := r) supported ordered none
    rw [unknown] at emitted
    refine ⟨_, ?_, emitted⟩
    rw [Array.append_empty]
    change e.sinks.spans.map _ = _
    rw [spans, deviceSpan, unknown]
    rfl
  | @launched op launch e' supported traced ordered known later =>
    obtain ⟨loose, allLoose, kept⟩ := later.recorder
      (by change e.sinks.spans.map _ = _; rw [spans]; rfl)
    have emitted := Emitted.span (e := e) (t := t) (r := r) supported ordered allLoose
    rw [known] at emitted
    refine ⟨_, ?_, emitted⟩
    rw [kept, ← Recorder.keep_keep, deviceSpan, known]
    rfl

end Engine

end SpanWeave
