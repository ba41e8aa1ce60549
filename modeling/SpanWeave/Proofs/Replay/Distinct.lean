import Mathlib.Data.List.Nodup
import SpanWeave.Proofs.Replay.Stacks

set_option autoImplicit false

/-!
# Distinct spans

No two finished spans of the host have one span id, and none has the id of a call that is open, so
a span of the host can be looked up by its id.
-/
namespace SpanWeave

def Recorder.hostSpans (r : Recorder) : List Span := r.finished.toList.filter (·.kind == .cpu)

theorem Recorder.hostSpans_append {r r' : Recorder} {more : Array Span}
    (finished : r'.finished = r.finished ++ more) :
    r'.hostSpans = r.hostSpans ++ more.toList.filter (·.kind == .cpu) := by
  unfold hostSpans
  rw [finished, Array.toList_append, List.filter_append]

theorem Recorder.hostSpans_of_device {r r' : Recorder} {more : Array Span}
    (finished : r'.finished = r.finished ++ more) (device : ∀ span ∈ more, span.kind = .device) :
    r'.hostSpans = r.hostSpans := by
  rw [hostSpans_append finished]
  refine (congrArg (_ ++ ·) (List.filter_eq_nil_iff.mpr fun span member => ?_)).trans
    (List.append_nil _)
  rw [device span (Array.mem_toList_iff.mp member)]
  decide

/-- In a list without two of one key, an element is the only one with its key. -/
theorem filter_eq_singleton {α β : Type} [BEq β] [LawfulBEq β] {key : α → β} {l : List α}
    (distinct : (l.map key).Nodup) {a : α} (member : a ∈ l) :
    l.filter (fun b => key b == key a) = [a] := by
  induction l with
  | nil => exact absurd member List.not_mem_nil
  | cons b l ih =>
    rw [List.map_cons, List.nodup_cons] at distinct
    rcases List.mem_cons.mp member with rfl | later
    · rw [List.filter_cons, if_pos (beq_self_eq_true _)]
      refine congrArg (a :: ·) (List.filter_eq_nil_iff.mpr fun b other same => distinct.1 ?_)
      rw [← eq_of_beq same]
      exact List.mem_map_of_mem other
    · have differs : ¬ (key b == key a) = true := fun same =>
        distinct.1 (eq_of_beq same ▸ List.mem_map_of_mem later)
      rw [List.filter_cons, if_neg differs]
      exact ih distinct.2 later

namespace Replay

structure Distinct (ts : ThreadId → ThreadState) (e : Engine) (recorder : Recorder) : Prop where
  nodup : (recorder.hostSpans.map (·.span)).Nodup
  allocated : ∀ span ∈ recorder.hostSpans, span.span ≤ e.ids.allocated
  closed : ∀ span ∈ recorder.hostSpans, ∀ thread, ∀ call ∈ (ts thread).calls,
    call.identity.span ≠ span.span

namespace Distinct
variable {filter : NameFilter} {past : List Happening} {ts ts' : ThreadId → ThreadState}
  {e e' : Engine} {recorder recorder' : Recorder}

theorem quiet (h : Distinct ts e recorder) (same : recorder'.hostSpans = recorder.hostSpans)
    (ids : e.ids.allocated ≤ e'.ids.allocated)
    (calls : ∀ thread, ∀ call ∈ (ts' thread).calls,
      call ∈ (ts thread).calls ∨ e.ids.allocated < call.identity.span) :
    Distinct ts' e' recorder' := by
  refine ⟨?_, ?_, ?_⟩ <;> rw [same]
  · exact h.nodup
  · exact fun span member => Nat.le_trans (h.allocated span member) ids
  · intro span member thread call held
    rcases calls thread call held with old | new
    · exact h.closed span member thread call old
    · exact fun eq => absurd (h.allocated span member) (Nat.not_le.mpr (eq ▸ new))

theorem push (h : Distinct ts e recorder) {span : Span}
    (own : recorder'.hostSpans = recorder.hostSpans ++ [span])
    (ids : e.ids.allocated ≤ e'.ids.allocated) (allocated : span.span ≤ e'.ids.allocated)
    (unused : ∀ old ∈ recorder.hostSpans, old.span ≠ span.span)
    (calls : ∀ thread, ∀ call ∈ (ts' thread).calls,
      call ∈ (ts thread).calls ∧ call.identity.span ≠ span.span) :
    Distinct ts' e' recorder' := by
  refine ⟨?_, ?_, ?_⟩ <;> rw [own]
  · rw [List.map_append, List.nodup_append]
    refine ⟨h.nodup, List.nodup_singleton _, fun id old other new => ?_⟩
    obtain ⟨before, member, rfl⟩ := List.mem_map.mp old
    rw [List.mem_singleton.mp new]
    exact unused before member
  · refine List.forall_mem_append.mpr
      ⟨fun old member => ?_, List.forall_mem_singleton.mpr allocated⟩
    exact Nat.le_trans (h.allocated old member) ids
  · refine List.forall_mem_append.mpr ⟨fun old member thread call held => ?_,
      List.forall_mem_singleton.mpr fun thread call held => (calls thread call held).2⟩
    exact h.closed old member thread call (calls thread call held).1

theorem host (h : Distinct ts e recorder) (recorded : Recorded past ts e recorder)
    (numbered : Numbered filter past ts e) {thread : ThreadId} {now : Nanos} {c : HostCall}
    {outcome : Outcome} {t : ThreadState} (known : (ts thread).thread = thread)
    (step : Engine.HostStep e (ts thread) c now outcome t e')
    (drawn : Engine.Drawn e (ts thread) c now recorder outcome t recorder') :
    Distinct (Function.update ts thread t) e' recorder' := by
  obtain ⟨more, finished, _, spans⟩ := recorded.finished_host known drawn
  have appended := Recorder.hostSpans_append finished
  generalize more.toList.filter (·.kind == .cpu) = own at appended spans
  have calls : ∀ other, ∀ call ∈ (Function.update ts thread t other).calls,
      call ∈ (ts other).calls ∨ e.ids.allocated < call.identity.span := by
    intro other call held
    rcases mem_calls_update held with ⟨rfl, now⟩ | before
    · exact step.old_or_new now
    · exact .inl before
  cases spans with
  | none =>
    rw [List.append_nil] at appended
    exact h.quiet appended step.ids_le calls
  | @ended _ _ inner call start a opened member opens begins =>
    split at appended
    · rw [List.append_nil] at appended
      exact h.quiet appended step.ids_le calls
    · have identity := Outcome.entered.inj (begins.outcome.symm.trans opens.outcome)
      have mine : call ∈ (ts thread).calls := by
        rw [opened]
        exact List.mem_append_right _ List.mem_cons_self
      have id : (start.finish now).span = call.identity.span := by rw [← identity]; rfl
      refine h.push appended step.ids_le ?_ ?_ fun other call' held => ?_
      · rw [id]
        exact Nat.le_trans (numbered.span_pos mine).2 step.ids_le
      · rw [id]
        exact fun old finished => (h.closed old finished thread call mine).symm
      · rw [id]
        exact numbered.left opened held
  | @leaf t' beganAt endsAt eq =>
    have id : ((Engine.untrackedStart (ts thread) c ((ts thread).nextIdentity e.ids).1
        beganAt).finish endsAt).span = e.ids.allocated + 1 :=
      ThreadState.span_nextIdentity _ _
    refine h.push appended step.ids_le ?_ ?_ fun other call held => ?_
    · exact Nat.le_of_eq (id.trans step.ids_untracked.symm)
    · rw [id]
      exact fun old finished => Nat.ne_of_lt (Nat.lt_succ_of_le (h.allocated old finished))
    · rw [id]
      have old : call ∈ (ts other).calls := by
        rcases mem_calls_update held with ⟨rfl, now⟩ | before
        · rw [eq] at now
          exact now
        · exact before
      exact ⟨old, Nat.ne_of_lt (Nat.lt_succ_of_le (numbered.span_pos old).2)⟩

theorem only (h : Distinct ts e recorder) {span : Span} (member : span ∈ recorder.hostSpans) :
    recorder.hostSpans.filter (·.span == span.span) = [span] :=
  filter_eq_singleton h.nodup member

end Distinct

end Replay

end SpanWeave
