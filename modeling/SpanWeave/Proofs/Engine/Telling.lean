import SpanWeave.Engine
import SpanWeave.Proofs.WorkQueue.Conservation

set_option autoImplicit false

/-!
# Telling

What the engine tells the sink for durations. An operation records some samples and leaves others
to the queue of deferred work. What it has recorded and what it still owes are together what it
owed before and what the operation itself is due, and this does not depend on what the sink has
heard before, nor on the scope in which it keeps it.
-/
namespace SpanWeave

/-- A name, and how long something with that name took. -/
abbrev Sample := String × Nanos

namespace Durations

def recordAll (d : Durations) (scope : Scope) (samples : List Sample) : Durations :=
  samples.foldl (fun d x => d.record scope x.1 x.2) d

theorem recordAll_append (d : Durations) (scope : Scope) (samples more : List Sample) :
    d.recordAll scope (samples ++ more) = (d.recordAll scope samples).recordAll scope more :=
  List.foldl_append

end Durations

def Deferred.toSample : Deferred → Sample
  | .sample name duration => (name, duration)
  | .leaf start endsAt => (start.name, endsAt - start.time)

namespace Sinks

def into (s : Sinks) (d : Durations) (scope : Scope) : Sinks :=
  { s with durations := some d, scope }

theorem perform_into (s : Sinks) (d : Durations) (scope : Scope) (x : Deferred) :
    (s.into d scope).perform x = (s.perform x).into (d.recordAll scope [x.toSample]) scope := by
  cases x <;> rfl

theorem performAll_into (s : Sinks) (d : Durations) (scope : Scope) (work : List Deferred) :
    work.foldl perform (s.into d scope) =
      (work.foldl perform s).into (d.recordAll scope (work.map Deferred.toSample)) scope := by
  induction work generalizing s d with
  | nil => rfl
  | cons x work ih =>
    rw [List.foldl_cons, perform_into, ih, ← Durations.recordAll_append]
    rfl

theorem discardSpans_into (s : Sinks) (d : Durations) (scope : Scope) (track : Track) (n : Nat) :
    (s.into d scope).discardSpans track n = (s.discardSpans track n).into d scope := by
  induction n generalizing s with
  | zero => rfl
  | succ n ih => exact ih (s.discardSpan track)

end Sinks

namespace Engine

def into (e : Engine) (d : Durations) (scope : Scope) : Engine :=
  { e with sinks := e.sinks.into d scope }

def owed (e : Engine) : List Sample := e.work.outstanding.map Deferred.toSample

/-- An engine between two operations, that has a sink for durations and a known offset. -/
structure Listening (e : Engine) : Prop where
  aggregates : e.sinks.durations.isSome = true
  settled : e.work.started = #[]
  running : e.work.stopped = false
  measured : e.skew.measured.isSome = true

theorem Listening.into_eq {e : Engine} (h : e.Listening) :
    ∃ d, e.into d e.sinks.scope = e := by
  obtain ⟨d, found⟩ := Option.isSome_iff_exists.mp h.aggregates
  refine ⟨d, ?_⟩
  unfold into Sinks.into
  rw [← found]

theorem settle_into (e : Engine) (work : WorkQueue Deferred) (d : Durations) (scope : Scope) :
    (e.into d scope).settle work = (e.settle work).into
      (d.recordAll scope (work.started.toList.map Deferred.toSample)) scope := by
  have sinks := e.sinks.performAll_into d scope work.started.toList
  rw [Array.foldl_toList, Array.foldl_toList] at sinks
  exact congrArg (fun s => { e.settle work with sinks := s }) sinks

/-- The operation is due these samples: it tells them to whoever listens, or leaves them to the
queue. -/
structure Tells {β : Type} (e : Engine) (op : Engine → β × Engine) (due : List Sample) : Prop where
  told : ∃ told, (∀ d scope, op (e.into d scope) =
      ((op e).1, (op e).2.into (d.recordAll scope told) scope)) ∧
    (told ++ (op e).2.owed).Perm (e.owed ++ due)
  listening : (op e).2.Listening
  activityFilter : (op e).2.activityFilter = e.activityFilter
  skew : (op e).2.skew = e.skew

namespace Tells
variable {β γ : Type} {e : Engine} {op : Engine → β × Engine} {due due' : List Sample}

/-- The operation lets the queue alone. -/
theorem now (h : e.Listening) (same : ∀ d scope, op (e.into d scope) =
      ((op e).1, (op e).2.into (d.recordAll scope due) scope))
    (work : (op e).2.work = e.work) (activityFilter : (op e).2.activityFilter = e.activityFilter)
    (skew : (op e).2.skew = e.skew) : e.Tells op due := by
  obtain ⟨d, whole⟩ := h.into_eq
  have result := same d e.sinks.scope
  rw [whole] at result
  refine ⟨⟨due, same, ?_⟩, ⟨?_, ?_, ?_, ?_⟩, activityFilter, skew⟩
  · rw [owed, owed, work]
    exact List.perm_append_comm
  · rw [result]
    rfl
  · rw [work]
    exact h.settled
  · rw [work]
    exact h.running
  · rw [skew]
    exact h.measured

/-- The operation tells nothing and leaves nothing behind. -/
theorem quiet (h : e.Listening)
    (same : ∀ d scope, op (e.into d scope) = ((op e).1, (op e).2.into d scope))
    (work : (op e).2.work = e.work) (activityFilter : (op e).2.activityFilter = e.activityFilter)
    (skew : (op e).2.skew = e.skew) : e.Tells op [] := now h same work activityFilter skew

theorem refl (h : e.Listening) (out : β) : e.Tells (fun e => (out, e)) [] :=
  quiet h (fun _ _ => rfl) rfl rfl rfl

theorem due_eq (h : e.Tells op due) (same : due = due') : e.Tells op due' := same ▸ h

theorem of_eq {op' : Engine → β × Engine} (k : e.Tells op' due) (here : op e = op' e)
    (same : ∀ d scope, op (e.into d scope) = op' (e.into d scope)) : e.Tells op due := by
  obtain ⟨told, known, perm⟩ := k.told
  refine ⟨⟨told, fun d scope => ?_, ?_⟩, ?_, ?_, ?_⟩ <;> rw [here]
  · rw [same, known]
  · exact perm
  · exact k.listening
  · exact k.activityFilter
  · exact k.skew

/-- What is only done if somebody listens. -/
theorem heard (f : Engine → Engine) (h : e.Listening) {out : β}
    (k : e.Tells (fun e => (out, f e)) due) :
    e.Tells (fun e => (out, if e.sinks.durations.isSome then f e else e)) due :=
  k.of_eq (congrArg _ (if_pos h.aggregates)) fun _ _ => rfl

theorem andThen (next : β → Engine → γ × Engine) (h : e.Tells op due)
    (k : (op e).2.Tells (next (op e).1) due') :
    e.Tells (fun e => next (op e).1 (op e).2) (due ++ due') := by
  obtain ⟨told, same, perm⟩ := h.told
  obtain ⟨told', same', perm'⟩ := k.told
  refine ⟨⟨told ++ told', fun d scope => ?_, ?_⟩, k.listening,
    k.activityFilter.trans h.activityFilter, k.skew.trans h.skew⟩
  · rw [Durations.recordAll_append, ← same', same]
  · rw [List.append_assoc, ← List.append_assoc e.owed]
    refine (perm'.append_left told).trans ?_
    rw [← List.append_assoc]
    exact perm.append_right due'

theorem settle (f : WorkQueue Deferred → WorkQueue Deferred) (given : List Deferred)
    (h : e.Listening) (conserves : e.work.Conserves (f e.work) given) (out : β) :
    e.Tells (fun e => (out, e.settle (f e.work))) (given.map Deferred.toSample) := by
  obtain ⟨d, whole⟩ := h.into_eq
  have result := e.settle_into (f e.work) d e.sinks.scope
  rw [whole] at result
  refine ⟨⟨(f e.work).started.toList.map Deferred.toSample, fun d scope => ?_, ?_⟩,
    ⟨?_, rfl, conserves.stopped.trans h.running, h.measured⟩, rfl, rfl⟩
  · exact congrArg _ (e.settle_into (f e.work) d scope)
  · have kept := conserves.ledger.map Deferred.toSample
    have before : e.work.ledger = e.work.outstanding := by rw [WorkQueue.ledger, h.settled]; rfl
    rw [before, List.map_append, WorkQueue.ledger, List.map_append] at kept
    exact kept
  · rw [result]
    rfl

theorem flush (h : e.Listening) (owner : ThreadId) (out : β) :
    e.Tells (fun e => (out, e.flush owner)) [] :=
  settle (·.flush owner) [] h (.flush e.work owner) out

theorem submit (h : e.Listening) (owner : ThreadId) (x : Deferred) (out : β) :
    e.Tells (fun e => (out, e.submit owner x)) [x.toSample] :=
  settle (·.submit owner { effect := x }) [x] h (.submit e.work owner { effect := x }) out

theorem spawn (h : e.Listening) (x : Deferred) (out : β) :
    e.Tells (fun e => (out, e.spawn x)) [x.toSample] :=
  settle (·.spawn { effect := x }) [x] h (.spawn e.work { effect := x }) out

end Tells

end Engine

end SpanWeave
