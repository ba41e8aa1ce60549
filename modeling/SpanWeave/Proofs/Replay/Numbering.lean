import Mathlib.Data.List.Basic
import SpanWeave.Proofs.Replay.Runs

set_option autoImplicit false

/-!
# Numbering

Every call that is entered gets a span id of its own, greater than all before it, and the calls
that are open on a thread are some of those that were entered on it.
-/
namespace SpanWeave

namespace Answer

def isTraced (filter : NameFilter) (a : Answer) : Bool :=
  a.call.domain == .correlated && filter.accepts a.call.name

theorem isTraced_iff {filter : NameFilter} {a : Answer} :
    a.isTraced filter = true ↔ a.call.domain = .correlated ∧ filter.accepts a.call.name = true := by
  simp only [isTraced, Bool.and_eq_true, beq_iff_eq]

structure Opens (a : Answer) (thread : ThreadId) (call : OpenCall) : Prop where
  thread : a.thread = thread
  time : a.time = call.beganAt
  outcome : a.outcome = .entered call.identity

def Numbers (a : Answer) (span : SpanId) : Prop :=
  ∃ identity, a.outcome = .entered identity ∧ identity.span = span

theorem Opens.numbers {a : Answer} {thread : ThreadId} {call : OpenCall}
    (h : a.Opens thread call) : a.Numbers call.identity.span := ⟨_, h.outcome, rfl⟩

structure Fits (filter : NameFilter) (a : Answer) : Prop where
  entered : (∃ identity, a.outcome = .entered identity) ↔
    a.isTraced filter = true ∧ a.call.phase = .enter
  exited : ∀ identity, a.outcome = .exited identity →
    a.isTraced filter = true ∧ a.call.phase = .exit

end Answer

theorem Engine.HostStep.fits {e e' : Engine} {t t' : ThreadState} {c : HostCall} {now : Nanos}
    {outcome : Outcome} (h : Engine.HostStep e t c now outcome t' e') (thread : ThreadId) :
    Answer.Fits e.callFilter ⟨thread, now, c, outcome⟩ := by
  cases h with
  | filtered rejected =>
    refine ⟨⟨fun ⟨_, eq⟩ => (by cases eq), fun ⟨traced, _⟩ => ?_⟩, fun _ eq => by cases eq⟩
    rw [(Answer.isTraced_iff.mp traced).2] at rejected
    cases rejected
  | entered traced domain phase =>
    exact ⟨⟨fun _ => ⟨Answer.isTraced_iff.mpr ⟨domain, traced⟩, phase⟩, fun _ => ⟨_, rfl⟩⟩,
      fun _ eq => by cases eq⟩
  | exited traced domain phase =>
    refine ⟨⟨fun ⟨_, eq⟩ => (by cases eq), fun ⟨_, enter⟩ => ?_⟩,
      fun _ _ => ⟨Answer.isTraced_iff.mpr ⟨domain, traced⟩, phase⟩⟩
    exact absurd (phase.symm.trans enter) (by decide)
  | anomaly _ _ phase | stray _ _ phase | missing _ _ phase =>
    refine ⟨⟨fun ⟨_, eq⟩ => (by cases eq), fun ⟨_, enter⟩ => ?_⟩, fun _ eq => by cases eq⟩
    exact absurd (phase.symm.trans enter) (by decide)
  | untrackedEnter _ domain | untrackedStray _ domain | untrackedAnomaly _ domain | leaf _ domain =>
    refine ⟨⟨fun ⟨_, eq⟩ => (by cases eq), fun ⟨traced, _⟩ => ?_⟩, fun _ eq => by cases eq⟩
    exact absurd (domain.symm.trans (Answer.isTraced_iff.mp traced).1) (by decide)

theorem Engine.HostStep.calls_of_not_traced {e e' : Engine} {t t' : ThreadState} {a : Answer}
    {filter : NameFilter} (h : HostStep e t a.call a.time a.outcome t' e')
    (callFilter : e.callFilter = filter) (traced : ¬ a.isTraced filter = true) :
    t'.calls = t.calls :=
  h.calls_eq fun both => traced (Answer.isTraced_iff.mpr ⟨both.1, callFilter ▸ both.2⟩)

namespace Replay

structure Numbered (filter : NameFilter) (past : List Happening) (ts : ThreadId → ThreadState)
    (e : Engine) : Prop where
  callFilter : e.callFilter = filter
  fits : ∀ a ∈ answers past, a.Fits filter
  increasing : (answers past).Pairwise fun a b =>
    ∀ m n, a.Numbers m → b.Numbers n → m < n
  allocated : ∀ a ∈ answers past, ∀ n, a.Numbers n → 0 < n ∧ n ≤ e.ids.allocated
  opened : ∀ thread, ∀ call ∈ (ts thread).calls, ∃ a ∈ answers past, a.Opens thread call
  descending : ∀ thread, (ts thread).calls.Pairwise fun inner outer =>
    outer.identity.span < inner.identity.span

namespace Numbered
variable {filter : NameFilter} {past : List Happening} {ts : ThreadId → ThreadState} {e e' : Engine}

theorem unique (h : Numbered filter past ts e) {a b : Answer} (ha : a ∈ answers past)
    (hb : b ∈ answers past) {span : SpanId} (na : a.Numbers span) (nb : b.Numbers span) :
    a = b := by
  let Same (a b : Answer) : Prop := a.Numbers span → b.Numbers span → a = b
  have pairs : (answers past).Pairwise Same := h.increasing.imp fun less na nb =>
    absurd (less span span na nb) (Nat.lt_irrefl span)
  have flipped : (answers past).Pairwise (flip Same) :=
    pairs.imp fun same nb na => (same na nb).symm
  exact List.Pairwise.forall_of_forall_of_flip (fun _ _ _ _ => rfl) pairs flipped ha hb na nb

theorem span_pos (h : Numbered filter past ts e) {thread : ThreadId} {call : OpenCall}
    (member : call ∈ (ts thread).calls) :
    0 < call.identity.span ∧ call.identity.span ≤ e.ids.allocated := by
  obtain ⟨a, ha, opens⟩ := h.opened thread call member
  exact h.allocated a ha _ opens.numbers

theorem span_ne (h : Numbered filter past ts e) {thread other : ThreadId} {call call' : OpenCall}
    (different : thread ≠ other) (member : call ∈ (ts thread).calls)
    (member' : call' ∈ (ts other).calls) : call.identity.span ≠ call'.identity.span := by
  intro same
  obtain ⟨a, ha, opens⟩ := h.opened thread call member
  obtain ⟨b, hb, opens'⟩ := h.opened other call' member'
  have eq := h.unique ha hb opens.numbers (same ▸ opens'.numbers)
  subst eq
  exact different (opens.thread.symm.trans opens'.thread)

/-- When a call and those inside it are ended, no call with its id is left. -/
theorem left (h : Numbered filter past ts e) {thread : ThreadId} {t : ThreadState}
    {inner : List OpenCall} {call : OpenCall}
    (opened : (ts thread).calls = inner ++ call :: t.calls) {other : ThreadId} {call' : OpenCall}
    (held : call' ∈ (Function.update ts thread t other).calls) :
    call' ∈ (ts other).calls ∧ call'.identity.span ≠ call.identity.span := by
  by_cases same : other = thread
  · subst same
    rw [Function.update_self] at held
    have descending := h.descending other
    rw [opened] at descending ⊢
    have below := (List.pairwise_append.mp descending).2.1
    exact ⟨List.mem_append_right _ (List.mem_cons_of_mem _ held),
      Nat.ne_of_lt (List.rel_of_pairwise_cons below held)⟩
  · rw [Function.update_of_ne same] at held
    refine ⟨held, h.span_ne same held ?_⟩
    rw [opened]
    exact List.mem_append_right _ List.mem_cons_self

theorem step (h : Numbered filter past ts e) {a : Answer} {t : ThreadState}
    (fits : a.Fits filter) (silent : ∀ n, ¬ a.Numbers n) (callFilter : e'.callFilter = filter)
    (ids : e.ids.allocated ≤ e'.ids.allocated)
    (calls : t.calls.Sublist (ts a.thread).calls) :
    Numbered filter (past ++ [.call a]) (Function.update ts a.thread t) e' := by
  have fewer := calls_update_sublist calls
  have now : answers (past ++ [.call a]) = answers past ++ [a] := answers_append _ _
  refine ⟨callFilter, ?_, ?_, ?_, ?_, ?_⟩ <;> try rw [now]
  · exact List.forall_mem_append.mpr ⟨h.fits, List.forall_mem_singleton.mpr fits⟩
  · refine List.pairwise_append.mpr ⟨h.increasing, List.pairwise_singleton _ _, ?_⟩
    intro b _ a' ha' m n _ numbers
    rw [List.mem_singleton.mp ha'] at numbers
    exact absurd numbers (silent n)
  · refine List.forall_mem_append.mpr ⟨?_, List.forall_mem_singleton.mpr ?_⟩
    · exact fun b hb n numbers => ⟨(h.allocated b hb n numbers).1,
        Nat.le_trans (h.allocated b hb n numbers).2 ids⟩
    · exact fun n numbers => absurd numbers (silent n)
  · intro thread call member
    obtain ⟨b, hb, opens⟩ := h.opened thread call ((fewer thread).subset member)
    exact ⟨b, List.mem_append_left _ hb, opens⟩
  · exact fun thread => (h.descending thread).sublist (fewer thread)

theorem enter (h : Numbered filter past ts e) {a : Answer} {now : Nanos}
    (fits : a.Fits filter) (time : a.time = now)
    (outcome : a.outcome = .entered ((ts a.thread).nextIdentity e.ids).1)
    (callFilter : e'.callFilter = filter)
    (ids : e'.ids = ((ts a.thread).nextIdentity e.ids).2) :
    Numbered filter (past ++ [.call a])
      (Function.update ts a.thread ((ts a.thread).push e.ids now).2.1) e' := by
  have next : ∀ n, a.Numbers n → n = e.ids.allocated + 1 := by
    rintro n ⟨identity, eq, rfl⟩
    rw [outcome] at eq
    cases eq
    exact ThreadState.span_nextIdentity _ _
  have allocated : e'.ids.allocated = e.ids.allocated + 1 := by
    rw [ids, ThreadState.allocated_nextIdentity]
  have history : answers (past ++ [.call a]) = answers past ++ [a] := answers_append _ _
  refine ⟨callFilter, ?_, ?_, ?_, ?_, ?_⟩ <;> try rw [history]
  · exact List.forall_mem_append.mpr ⟨h.fits, List.forall_mem_singleton.mpr fits⟩
  · refine List.pairwise_append.mpr ⟨h.increasing, List.pairwise_singleton _ _, ?_⟩
    intro b hb a' ha' m n old new
    rw [List.mem_singleton.mp ha'] at new
    rw [next n new]
    exact Nat.lt_succ_of_le (h.allocated b hb m old).2
  · refine List.forall_mem_append.mpr ⟨?_, List.forall_mem_singleton.mpr ?_⟩
    · intro b hb n numbers
      obtain ⟨pos, le⟩ := h.allocated b hb n numbers
      exact ⟨pos, allocated ▸ Nat.le_succ_of_le le⟩
    · intro n numbers
      rw [next n numbers, allocated]
      exact ⟨Nat.succ_pos _, Nat.le_refl _⟩
  · intro thread call member
    have old : call ∈ (ts thread).calls → ∃ b ∈ answers past ++ [a], b.Opens thread call := by
      intro before
      obtain ⟨b, hb, opens⟩ := h.opened thread call before
      exact ⟨b, List.mem_append_left _ hb, opens⟩
    rcases mem_calls_update member with ⟨rfl, now⟩ | before
    · rw [ThreadState.calls_push] at now
      rcases List.mem_cons.mp now with rfl | before
      · exact ⟨a, List.mem_append_right _ (List.mem_singleton_self a), rfl, time, outcome⟩
      · exact old before
    · exact old before
  · intro thread
    by_cases same : thread = a.thread
    · subst same
      rw [Function.update_self, ThreadState.calls_push]
      refine List.pairwise_cons.mpr ⟨fun call member => ?_, h.descending _⟩
      rw [ThreadState.span_nextIdentity]
      exact Nat.lt_succ_of_le (h.span_pos member).2
    · rw [Function.update_of_ne same]
      exact h.descending thread

end Numbered

theorem kept_numbered (filter : NameFilter) : Kept (Numbered filter) where
  background {past ts e e'} h quiet := by
    refine ⟨quiet.callFilter.trans h.callFilter, h.fits, h.increasing, ?_, h.opened, h.descending⟩
    rw [quiet.ids]
    exact h.allocated
  host {past ts e thread now c outcome t e'} h known step := by
    have callFilter := step.callFilter_eq.trans h.callFilter
    have fits := step.fits thread
    rw [h.callFilter] at fits
    by_cases entered : ∃ identity, outcome = .entered identity
    · obtain ⟨identity, rfl⟩ := entered
      cases step with
      | entered traced domain phase later =>
        exact h.enter (a := ⟨thread, now, c, _⟩) fits rfl rfl callFilter later.ids
    · refine h.step (a := ⟨thread, now, c, outcome⟩) fits ?_ callFilter step.ids_le ?_
      · exact fun n ⟨identity, eq, _⟩ => entered ⟨identity, eq⟩
      · exact (step.calls_suffix fun identity eq => entered ⟨identity, eq⟩).sublist
  completion {past ts e thread offset c d t e'} h known step := by
    have history := answers_append_completion past thread c d
    refine ⟨step.callFilter_eq.trans h.callFilter, ?_, ?_, ?_, ?_, ?_⟩ <;> try rw [history]
    · exact h.fits
    · exact h.increasing
    · rw [step.ids_eq]
      exact h.allocated
    · intro other call member
      rw [step.calls_update] at member
      exact h.opened other call member
    · intro other
      rw [step.calls_update]
      exact h.descending other

theorem Unused.numbered {r : Replay} (unused : r.Unused) :
    Numbered r.session.engine.callFilter [] r.threadState r.session.engine := by
  refine ⟨rfl, List.forall_mem_nil _, List.Pairwise.nil, List.forall_mem_nil _, ?_, ?_⟩
  · intro thread call member
    rw [unused.idle] at member
    exact absurd member List.not_mem_nil
  · intro thread
    rw [unused.idle]
    exact List.Pairwise.nil

theorem Fresh.numbered {s : Settings} {r : Replay} (fresh : r.Fresh s) :
    Numbered r.session.engine.callFilter [] r.threadState r.session.engine :=
  fresh.unused.numbered

end Replay

end SpanWeave
