import SpanWeave.Proofs.Engine.Drawing

set_option autoImplicit false

/-!
# Marking

What the steps of the engine add to the log of marks, if there is one: a begin mark for a call that
is entered, an end mark for an exit that ends its call, and a whole mark for a completion that has a
call behind it.
-/
namespace SpanWeave

namespace Engine
variable {e e' : Engine} {t t' : ThreadState} {log : MarkLog}

theorem Background.marks (h : e.Background e') (marks : e.sinks.marks = some log) :
    e'.sinks.marks = some log := h.sinks.marks.trans marks

inductive Noted (e : Engine) (t : ThreadState) (c : HostCall) (now : Nanos) (log : MarkLog) :
    Outcome → ThreadState → MarkLog → Prop
  | nothing {outcome : Outcome} {t' : ThreadState}
      (entered : ∀ identity, outcome ≠ .entered identity)
      (exited : ∀ identity, outcome ≠ .exited identity) (calls : t'.calls <:+ t.calls) :
      Noted e t c now log outcome t' log
  | entered : Noted e t c now log (.entered (t.nextIdentity e.ids).1) (t.push e.ids now).2.1
      (log.push c.name
        (.hostBegin c.name t.thread (t.nextIdentity e.ids).1 (some c.correlation) now c.queue))
  | exited {identity : Identity} {inner calls : List OpenCall} {call : OpenCall}
      (opened : t.calls = inner ++ call :: calls) (same : call.identity.span = identity.span)
      (ordered : call.beganAt ≤ now) :
      Noted e t c now log (.exited identity) { t with calls }
        (log.push c.name (.hostEnd c.name t.thread identity now))

theorem HostStep.noted {c : HostCall} {now : Nanos} {outcome : Outcome}
    (h : HostStep e t c now outcome t' e') (marks : e.sinks.marks = some log) :
    ∃ log', e'.sinks.marks = some log' ∧ Noted e t c now log outcome t' log' := by
  have nothing : (∀ identity, outcome ≠ .entered identity) →
      (∀ identity, outcome ≠ .exited identity) → e'.sinks.marks = some log →
      ∃ log', e'.sinks.marks = some log' ∧ Noted e t c now log outcome t' log' :=
    fun entered exited same => ⟨log, same, .nothing entered exited (h.calls_suffix entered)⟩
  cases h with
  | entered traced domain phase later =>
    exact ⟨_, later.marks (by change e.sinks.marks.map _ = _; rw [marks]; rfl), .entered⟩
  | @exited e' identity inner calls call traced domain phase earlier registered opened same others
      ordered =>
    refine ⟨_, ?_, .exited opened same ordered⟩
    change ((e'.sinks.discardSpans _ _).marks.map _) = _
    rw [Sinks.marks_discardSpans, earlier.marks marks]
    rfl
  | @anomaly e' identity inner calls call traced domain phase earlier =>
    refine nothing (fun _ eq => by cases eq) (fun _ eq => by cases eq) ?_
    change (e'.sinks.discardSpans _ _).marks = _
    rw [Sinks.marks_discardSpans, earlier.marks marks]
  | stray _ _ _ earlier =>
    exact nothing (fun _ eq => by cases eq) (fun _ eq => by cases eq) (earlier.marks marks)
  | @missing e' _ _ _ _ _ earlier =>
    refine nothing (fun _ eq => by cases eq) (fun _ eq => by cases eq) ?_
    change Sinks.marks (if _ then e'.sinks.discardSpan _ else e'.sinks.endSpan _ _) = _
    split
    · exact earlier.marks marks
    · exact earlier.marks marks
  | leaf _ _ _ _ _ _ later =>
    exact nothing (fun _ eq => by cases eq) (fun _ eq => by cases eq) (later.marks marks)
  | filtered | untrackedEnter | untrackedStray | untrackedAnomaly =>
    exact nothing (fun _ eq => by cases eq) (fun _ eq => by cases eq) marks

/-- No log of marks comes up where there is none. -/
theorem HostStep.unmarked {c : HostCall} {now : Nanos} {outcome : Outcome}
    (h : HostStep e t c now outcome t' e') (absent : e.sinks.marks = none) :
    e'.sinks.marks = none := by
  cases h with
  | entered _ _ _ later =>
    refine later.sinks.marks.trans ?_
    change e.sinks.marks.map _ = _
    rw [absent]
    rfl
  | @exited e' _ _ _ _ _ _ _ earlier =>
    change ((e'.sinks.discardSpans _ _).marks.map _) = _
    rw [Sinks.marks_discardSpans, earlier.sinks.marks.trans absent]
    rfl
  | @anomaly e' _ _ _ _ _ _ _ earlier =>
    change (e'.sinks.discardSpans _ _).marks = _
    rw [Sinks.marks_discardSpans, earlier.sinks.marks.trans absent]
  | stray _ _ _ earlier => exact earlier.sinks.marks.trans absent
  | @missing e' _ _ _ _ _ earlier =>
    change Sinks.marks (if _ then e'.sinks.discardSpan _ else e'.sinks.endSpan _ _) = _
    split
    · exact earlier.sinks.marks.trans absent
    · exact earlier.sinks.marks.trans absent
  | leaf _ _ _ _ _ _ later => exact later.sinks.marks.trans absent
  | filtered | untrackedEnter | untrackedStray | untrackedAnomaly => exact absent

theorem DrainStep.unmarked {offset : Int} {c : Completion} {d : Disposition}
    (h : DrainStep e t offset c d t' e') (absent : e.sinks.marks = none) :
    e'.sinks.marks = none := by
  cases h with
  | launched _ _ _ _ later =>
    refine later.sinks.marks.trans ?_
    change e.sinks.marks.map _ = _
    rw [absent]
    rfl
  | unsupported | filtered | anomaly | orphaned => exact absent

def deviceMark (e : Engine) (t : ThreadState) (offset : Int) (c : Completion) (op : DeviceOp)
    (launch : CallRecord) : Mark :=
  .onDevice (e.deviceSpan t offset c op).name launch.thread launch.identity c.correlation
    (shiftTime c.beginsAt.toNat offset) (shiftTime c.endsAt.toNat offset) c.queue
    (t.nextLap c.correlation).1

inductive Tagged (e : Engine) (t : ThreadState) (offset : Int) (c : Completion) (log : MarkLog) :
    Disposition → MarkLog → Prop
  | nothing {d : Disposition} (other : d ≠ .emitted false) : Tagged e t offset c log d log
  | launch {op : DeviceOp} {launch : CallRecord} (supported : c.op? = some op)
      (known : (e.registry.lookupRecord? c.correlation).1 = some launch) :
      Tagged e t offset c log (.emitted false)
        (log.push (e.deviceSpan t offset c op).name (e.deviceMark t offset c op launch))

theorem DrainStep.tagged {offset : Int} {c : Completion} {d : Disposition}
    (h : DrainStep e t offset c d t' e') (marks : e.sinks.marks = some log) :
    ∃ log', e'.sinks.marks = some log' ∧ Tagged e t offset c log d log' := by
  cases h with
  | unsupported | filtered | anomaly | orphaned =>
    exact ⟨log, marks, .nothing fun eq => by cases eq⟩
  | @launched op launch e' supported traced ordered known later =>
    refine ⟨_, later.marks ?_, .launch supported known⟩
    change e.sinks.marks.map _ = _
    rw [marks, deviceMark, deviceSpan, known]
    rfl

end Engine

end SpanWeave
