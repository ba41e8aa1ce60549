import SpanWeave.Engine.Drain
import SpanWeave.Proofs.WorkQueue.Effects

set_option autoImplicit false

/-!
# The background

What goes on beside the calls of the host and the launches of a device: deferred work is done,
warnings are given, offsets are measured and books are kept. None of it touches the registered
calls, the span ids, the filters, the marks or the open begins; all it can leave behind are whole
spans of devices that belong to no call.
-/
namespace SpanWeave

/-- A whole span of a device that belongs to no call. -/
structure Span.IsLoose (s : Span) : Prop where
  kind : s.kind = .device
  parent : s.parent = none
  correlation : s.correlation = none
  ordered : s.beginsAt ≤ s.endsAt
  duration : s.duration = s.endsAt - s.beginsAt

def Deferred.IsLoose : Deferred → Prop
  | .sample _ _ => True
  | .leaf start endsAt => (start.finish endsAt).IsLoose

namespace Recorder

def keep (r : Recorder) (spans : Array Span) : Recorder :=
  { r with finished := r.finished ++ spans }

@[simp] theorem finished_keep (r : Recorder) (spans : Array Span) :
    (r.keep spans).finished = r.finished ++ spans := rfl

@[simp] theorem discarded_keep (r : Recorder) (spans : Array Span) :
    (r.keep spans).discarded = r.discarded := rfl

@[simp] theorem unmatchedEnds_keep (r : Recorder) (spans : Array Span) :
    (r.keep spans).unmatchedEnds = r.unmatchedEnds := rfl

@[simp] theorem openOn_keep (r : Recorder) (spans : Array Span) (track : Track) :
    (r.keep spans).openOn track = r.openOn track := rfl

@[simp] theorem openCount_keep (r : Recorder) (spans : Array Span) :
    (r.keep spans).openCount = r.openCount := rfl

theorem keep_keep (r : Recorder) (spans more : Array Span) :
    (r.keep spans).keep more = r.keep (spans ++ more) := by
  simp only [keep, Array.append_assoc]

theorem keep_empty (r : Recorder) : r.keep #[] = r := by
  simp only [keep, Array.append_empty]

end Recorder

/-- The marks are the same, and the recorder has kept some loose spans. -/
structure Sinks.Gained (s s' : Sinks) : Prop where
  marks : s'.marks = s.marks
  spans : ∃ loose : Array Span, (∀ span ∈ loose, span.IsLoose) ∧
    s'.spans = s.spans.map (·.keep loose)

namespace Sinks.Gained

theorem refl (s : Sinks) : s.Gained s := by
  refine ⟨rfl, #[], fun span member => absurd member (Array.not_mem_empty span), ?_⟩
  cases h : s.spans with
  | none => rfl
  | some r => rw [Option.map_some, Recorder.keep_empty]

theorem trans {s₁ s₂ s₃ : Sinks} (h : s₁.Gained s₂) (k : s₂.Gained s₃) : s₁.Gained s₃ := by
  obtain ⟨loose, allLoose, eq⟩ := h.spans
  obtain ⟨more, moreLoose, eq'⟩ := k.spans
  refine ⟨k.marks.trans h.marks, loose ++ more, fun span member => ?_, ?_⟩
  · rcases Array.mem_append.mp member with old | new
    · exact allLoose span old
    · exact moreLoose span new
  · rw [eq', eq, Option.map_map]
    congr 1
    funext r
    exact r.keep_keep loose more

theorem recordDuration (s : Sinks) (name : String) (duration : Nanos) :
    s.Gained (s.recordDuration name duration) := ⟨rfl, (refl s).spans⟩

theorem perform {d : Deferred} (loose : d.IsLoose) (s : Sinks) : s.Gained (s.perform d) := by
  cases d with
  | sample name duration => exact recordDuration s name duration
  | leaf start endsAt =>
    refine ⟨rfl, #[start.finish endsAt], fun span member => ?_, rfl⟩
    rw [List.mem_singleton.mp (Array.mem_toList_iff.mpr member)]
    exact loose

end Sinks.Gained

namespace Engine

structure Background (e e' : Engine) : Prop where
  owners : e'.registry.owners = e.registry.owners
  identities : e'.registry.identities = e.registry.identities
  ids : e'.ids = e.ids
  callFilter : e'.callFilter = e.callFilter
  activityFilter : e'.activityFilter = e.activityFilter
  calls : e'.calls = e.calls
  sinks : e.sinks.Gained e'.sinks

def Ready (e : Engine) : Prop := e.work.All Deferred.IsLoose

namespace Background

theorem refl (e : Engine) : e.Background e :=
  ⟨rfl, rfl, rfl, rfl, rfl, rfl, .refl e.sinks⟩

theorem trans {e₁ e₂ e₃ : Engine} (h : e₁.Background e₂) (k : e₂.Background e₃) :
    e₁.Background e₃ where
  owners := k.owners.trans h.owners
  identities := k.identities.trans h.identities
  ids := k.ids.trans h.ids
  callFilter := k.callFilter.trans h.callFilter
  activityFilter := k.activityFilter.trans h.activityFilter
  calls := k.calls.trans h.calls
  sinks := h.sinks.trans k.sinks

/-- Spans that the work has started are kept, and the rest stays ready. -/
theorem settle (e : Engine) {work : WorkQueue Deferred} (h : work.All Deferred.IsLoose) :
    e.Background (e.settle work) ∧ (e.settle work).Ready := by
  refine ⟨⟨rfl, rfl, rfl, rfl, rfl, rfl, ?_⟩, h.waiting, fun d member => ?_⟩
  · change e.sinks.Gained (work.started.foldl Sinks.perform e.sinks)
    rw [← Array.foldl_toList]
    refine List.foldlRecOn _ _ (.refl e.sinks) fun s gained d member => ?_
    exact gained.trans (.perform (h.started d (Array.mem_toList_iff.mp member)) s)
  · exact absurd member (Array.not_mem_empty d)

theorem submit {e : Engine} (ready : e.Ready) (owner : ThreadId) {d : Deferred}
    (loose : d.IsLoose) : e.Background (e.submit owner d) ∧ (e.submit owner d).Ready :=
  settle e (WorkQueue.All.submit ready owner ⟨loose, trivial⟩)

theorem spawn {e : Engine} (ready : e.Ready) {d : Deferred} (loose : d.IsLoose) :
    e.Background (e.spawn d) ∧ (e.spawn d).Ready :=
  settle e (WorkQueue.All.spawn ready ⟨loose, trivial⟩)

theorem flush {e : Engine} (ready : e.Ready) (owner : ThreadId) :
    e.Background (e.flush owner) ∧ (e.flush owner).Ready :=
  settle e (WorkQueue.All.flush ready owner)

theorem stopWork {e : Engine} (ready : e.Ready) :
    e.Background e.stopWork ∧ e.stopWork.Ready :=
  settle e (WorkQueue.All.stop ready)

theorem askOffset {e : Engine} (ready : e.Ready) (clocks : Clocks) :
    e.Background (e.askOffset clocks).2 ∧ (e.askOffset clocks).2.Ready :=
  ⟨⟨rfl, rfl, rfl, rfl, rfl, rfl, .refl e.sinks⟩, ready⟩

theorem books (e : Engine) (drains : DrainCounts) : e.Background { e with drains } :=
  ⟨rfl, rfl, rfl, rfl, rfl, rfl, .refl e.sinks⟩

theorem lookupRecord (e : Engine) (id : CorrelationId) :
    e.Background { e with registry := (e.registry.lookupRecord? id).2 } := by
  refine ⟨?_, ?_, rfl, rfl, rfl, rfl, .refl e.sinks⟩
  · unfold Registry.lookupRecord?
    split <;> rfl
  · unfold Registry.lookupRecord?
    split <;> rfl

/-- A completion without a call behind it only leaves a loose span. -/
theorem drainOneUntracked {e : Engine} (ready : e.Ready) (thread : ThreadId) (offset : Int)
    (c : Completion) : e.Background (e.drainOneUntracked thread offset c).2 ∧
      (e.drainOneUntracked thread offset c).2.Ready := by
  unfold Engine.drainOneUntracked
  split
  · exact ⟨.refl e, ready⟩
  · dsimp only
    split
    · exact ⟨.refl e, ready⟩
    · split
      · exact ⟨.refl e, ready⟩
      · rename_i later
        exact spawn ready ⟨rfl, rfl, rfl, Nat.le_of_not_ge later, rfl⟩

theorem drainUntracked {e : Engine} (ready : e.Ready) (clocks : Clocks) (thread : ThreadId)
    (batch : List Completion) : e.Background (e.drainUntracked clocks thread batch).2 ∧
      (e.drainUntracked clocks thread batch).2.Ready := by
  have drained := List.foldlRecOn (motive := fun (x : DrainReport × Engine) =>
    e.Background x.2 ∧ x.2.Ready) batch
    (fun x c => (x.1.add (x.2.drainOneUntracked thread (e.askOffset clocks).1 c).1,
      (x.2.drainOneUntracked thread (e.askOffset clocks).1 c).2))
    (b := ({}, (e.askOffset clocks).2)) (askOffset ready clocks) fun x h c _ => by
      obtain ⟨background, ready⟩ := drainOneUntracked h.2 thread (e.askOffset clocks).1 c
      exact ⟨h.1.trans background, ready⟩
  exact ⟨drained.1.trans (books _ _), drained.2⟩

end Background

end Engine

end SpanWeave
