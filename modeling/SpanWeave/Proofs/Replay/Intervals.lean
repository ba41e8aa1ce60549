import SpanWeave.Proofs.Replay.Closing
import SpanWeave.Proofs.Replay.Distinct
import SpanWeave.Proofs.Replay.Innermost

set_option autoImplicit false

/-!
# Intervals

As long as time does not go back on a thread, the finished calls of the thread are intervals that
nest, whichever calls the exits end: an exit may be lost, it may come out of order, or it may find
the record of another thread. No call then ends before it began, and a call lies within its parent
if both are finished.
-/
namespace SpanWeave

namespace Span

def Contains (outer inner : Span) : Prop :=
  outer.beginsAt ≤ inner.beginsAt ∧ inner.endsAt ≤ outer.endsAt

/-- Two spans are one after the other, or the one is within the other. -/
def Nests (a b : Span) : Prop :=
  a.endsAt ≤ b.beginsAt ∨ b.endsAt ≤ a.beginsAt ∨ a.Contains b ∨ b.Contains a

theorem Contains.refl (a : Span) : a.Contains a := ⟨Nat.le_refl _, Nat.le_refl _⟩

theorem Nests.symm {a b : Span} (h : a.Nests b) : b.Nests a := by
  rcases h with before | after | outer | inner
  · exact .inr (.inl before)
  · exact .inl after
  · exact .inr (.inr (.inr outer))
  · exact .inr (.inr (.inl inner))

theorem kind_of_isCall {s : Span} (h : s.isCall = true) : s.kind = .cpu := by
  simp only [isCall, Bool.and_eq_true, beq_iff_eq] at h
  exact h.1

end Span

def Recorder.callSpans (r : Recorder) : List Span := r.hostSpans.filter (·.isCall)

theorem Recorder.mem_hostSpans {r : Recorder} {span : Span} :
    span ∈ r.hostSpans ↔ span ∈ r.finished ∧ span.kind = .cpu := by
  rw [hostSpans, List.mem_filter, Array.mem_toList_iff, beq_iff_eq]

def callTimes (thread : ThreadId) (events : List RecordedEvent) : List Nanos :=
  events.filterMap fun
    | .call t time _ => if t = thread then some time.toNat else none
    | .batch _ _ | .untracked _ _ => none

def Timely (events : List RecordedEvent) : Prop :=
  ∀ thread, (callTimes thread events).Pairwise (· ≤ ·)

def InTime (past : List Answer) : Prop :=
  past.Pairwise fun a b => a.thread = b.thread → a.time ≤ b.time

theorem InTime.of_append {past : List Answer} {a : Answer} (h : InTime (past ++ [a])) :
    InTime past ∧ ∀ b ∈ past, b.thread = a.thread → b.time ≤ a.time := by
  obtain ⟨before, _, last⟩ := List.pairwise_append.mp h
  exact ⟨before, fun b member => last b member a (List.mem_singleton_self a)⟩

theorem Replay.callTimes_eq (r : Replay) (thread : ThreadId) (events : List RecordedEvent) :
    callTimes thread events =
      ((answers (r.history events)).filter (·.thread == thread)).map (·.time) := by
  induction events generalizing r with
  | nil => rfl
  | cons event events ih =>
    rw [history, answers_append, List.filter_append, List.map_append, ← ih, callTimes,
      List.filterMap_cons]
    cases event with
    | call t time c =>
      rw [happenings, answers_call, List.filter_singleton]
      by_cases here : t = thread
      · subst here
        simp only [↓reduceIte, beq_self_eq_true, cond_true]
        rfl
      · simp only [here, ↓reduceIte, beq_eq_false_iff_ne.mpr here, cond_false]
        rfl
    | batch t cs =>
      rw [answers_batch]
      rfl
    | untracked t cs => rfl

theorem Timely.inTime {events : List RecordedEvent} (h : Timely events) (r : Replay) :
    InTime (answers (r.history events)) := by
  rw [InTime, List.pairwise_iff_forall_sublist]
  intro a b both same
  have ordered := h a.thread
  rw [r.callTimes_eq, List.pairwise_map, List.pairwise_filter,
    List.pairwise_iff_forall_sublist] at ordered
  exact ordered both (beq_self_eq_true _) (beq_iff_eq.mpr same.symm)

namespace Replay

/-! ## No call ends before it began -/

/-- An exit in time ends no call that began later. -/
theorem Numbered.in_order {filter : NameFilter} {past : List Happening}
    {ts : ThreadId → ThreadState} {e e' : Engine} (numbered : Numbered filter past ts e)
    {a : Answer} {t : ThreadState} (inTime : InTime (answers past ++ [a]))
    (domain : a.call.domain = .correlated)
    (step : Engine.HostStep e (ts a.thread) a.call a.time a.outcome t e') :
    a.outcome ≠ .clockAnomaly := by
  intro anomaly
  rw [anomaly] at step
  cases step with
  | @anomaly _ _ _ _ call _ _ _ _ _ opened _ _ late =>
    have held : call ∈ (ts a.thread).calls := by
      rw [opened]
      exact List.mem_append_right _ List.mem_cons_self
    obtain ⟨b, member, opens⟩ := numbered.opened _ _ held
    have earlier := inTime.of_append.2 b member opens.thread
    rw [opens.time] at earlier
    exact absurd late (Nat.not_lt.mpr earlier)
  | untrackedAnomaly _ untracked => exact absurd (domain.symm.trans untracked) (by decide)

def Ordered (past : List Answer) : Prop :=
  InTime past → ∀ a ∈ past, a.call.domain = .correlated → a.outcome ≠ .clockAnomaly

theorem kept_ordered (filter : NameFilter) :
    Kept fun past ts e => Numbered filter past ts e ∧ Ordered (answers past) where
  background h quiet := ⟨(kept_numbered filter).background h.1 quiet, h.2⟩
  host {past ts e thread now c outcome t e'} h known step := by
    refine ⟨(kept_numbered filter).host h.1 known step, ?_⟩
    rw [answers_append, answers_call]
    intro inTime
    refine List.forall_mem_append.mpr ⟨h.2 inTime.of_append.1, List.forall_mem_singleton.mpr ?_⟩
    intro domain
    exact h.1.in_order inTime domain step
  completion {past ts e thread offset c d t e'} h known step := by
    refine ⟨(kept_numbered filter).completion h.1 known step, ?_⟩
    rw [answers_append_completion]
    exact h.2

/-! ## Finished calls nest -/

/-- Where the finished calls lie in time, among each other and among the open ones. -/
structure Intervals (past : List Answer) (ts : ThreadId → ThreadState) (e : Engine)
    (recorder : Recorder) : Prop where
  stacked : ∀ thread, (ts thread).calls.Pairwise fun inner outer => outer.beganAt ≤ inner.beganAt
  ended : ∀ s ∈ recorder.callSpans, ∃ a ∈ past, a.thread = s.thread ∧ a.time = s.endsAt
  beside : ∀ s ∈ recorder.callSpans, ∀ call ∈ (ts s.thread).calls,
    s.endsAt ≤ call.beganAt ∨ call.beganAt ≤ s.beginsAt
  nests : ∀ s ∈ recorder.callSpans, ∀ s' ∈ recorder.callSpans, s.thread = s'.thread → s.Nests s'
  handedOut : ∀ s ∈ recorder.callSpans, ∀ id, s.parent = some id → id ≤ e.ids.allocated
  /-- The parent of a finished call, if it is still open, is an outer call of the same thread. -/
  under : ∀ s ∈ recorder.callSpans, ∀ thread, ∀ call ∈ (ts thread).calls,
    s.parent = some call.identity.span → thread = s.thread ∧ call.beganAt ≤ s.beginsAt
  parents : ∀ s ∈ recorder.callSpans, ∀ parent ∈ recorder.hostSpans,
    s.parent = some parent.span → parent.Contains s

namespace Intervals
variable {filter : NameFilter} {history : List Happening} {past : List Answer}
  {ts ts' : ThreadId → ThreadState} {e e' : Engine} {recorder recorder' : Recorder}

theorem callSpans_append {own : List Span}
    (hosts : recorder'.hostSpans = recorder.hostSpans ++ own) :
    recorder'.callSpans = recorder.callSpans ++ own.filter (·.isCall) := by
  rw [Recorder.callSpans, hosts, List.filter_append]
  rfl

/-- Nothing is entered, and no call is finished. -/
theorem calm (h : Intervals past ts e recorder) {past' : List Answer} (grown : past ⊆ past')
    (ids : e.ids.allocated ≤ e'.ids.allocated)
    (calls : ∀ thread, (ts' thread).calls.Sublist (ts thread).calls) {own : List Span}
    (hosts : recorder'.hostSpans = recorder.hostSpans ++ own)
    (others : ∀ s ∈ own, s.isCall = false ∧ e.ids.allocated < s.span) :
    Intervals past' ts' e' recorder' := by
  have none : own.filter (·.isCall) = [] := by
    refine List.filter_eq_nil_iff.mpr fun s member => ?_
    rw [(others s member).1]
    exact Bool.false_ne_true
  have same := callSpans_append hosts
  rw [none, List.append_nil] at same
  refine ⟨fun thread => (h.stacked thread).sublist (calls thread), ?_, ?_, ?_, ?_, ?_, ?_⟩ <;>
    rw [same]
  · intro s member
    obtain ⟨a, earlier, both⟩ := h.ended s member
    exact ⟨a, grown earlier, both⟩
  · intro s member call held
    exact h.beside s member call ((calls _).subset held)
  · exact h.nests
  · intro s member id parent
    exact Nat.le_trans (h.handedOut s member id parent) ids
  · intro s member thread call held
    exact h.under s member thread call ((calls thread).subset held)
  · rw [hosts]
    intro s member
    refine List.forall_mem_append.mpr ⟨h.parents s member, fun leaf new parent => ?_⟩
    -- an id that was handed out just now is the parent of no call that is finished already
    exact absurd (h.handedOut s member _ parent) (Nat.not_le.mpr (others leaf new).2)

theorem before (h : Intervals past ts e recorder) {a : Answer}
    (last : ∀ b ∈ past, b.thread = a.thread → b.time ≤ a.time) {s : Span}
    (member : s ∈ recorder.callSpans) (same : s.thread = a.thread) : s.endsAt ≤ a.time := by
  obtain ⟨b, earlier, thread, time⟩ := h.ended s member
  rw [← time]
  exact last b earlier (thread.trans same)

theorem enter (h : Intervals (answers history) ts e recorder)
    (numbered : Numbered filter history ts e) {a : Answer}
    (last : ∀ b ∈ answers history, b.thread = a.thread → b.time ≤ a.time) {t : ThreadState}
    {identity : Identity} (calls : t.calls = ⟨identity, a.time⟩ :: (ts a.thread).calls)
    (fresh : e.ids.allocated < identity.span) (ids : e.ids.allocated ≤ e'.ids.allocated)
    (hosts : recorder'.hostSpans = recorder.hostSpans) :
    Intervals (answers history ++ [a]) (Function.update ts a.thread t) e' recorder' := by
  have began : ∀ call ∈ (ts a.thread).calls, call.beganAt ≤ a.time := by
    intro call held
    obtain ⟨b, member, opens⟩ := numbered.opened _ call held
    rw [← opens.time]
    exact last b member opens.thread
  have held_or_new : ∀ {thread call}, call ∈ (Function.update ts a.thread t thread).calls →
      call ∈ (ts thread).calls ∨ thread = a.thread ∧ call = ⟨identity, a.time⟩ := by
    intro thread call held
    rcases mem_calls_update held with ⟨rfl, now⟩ | before
    · rw [calls] at now
      exact (List.mem_cons.mp now).symm.imp_right fun new => ⟨rfl, new⟩
    · exact .inl before
  have same : recorder'.callSpans = recorder.callSpans := by
    rw [Recorder.callSpans, hosts]
    rfl
  refine ⟨fun thread => ?_, ?_, ?_, ?_, ?_, ?_, ?_⟩ <;> try rw [same]
  · by_cases here : thread = a.thread
    · subst here
      rw [Function.update_self, calls]
      exact List.pairwise_cons.mpr ⟨began, h.stacked _⟩
    · rw [Function.update_of_ne here]
      exact h.stacked thread
  · intro s member
    obtain ⟨b, earlier, both⟩ := h.ended s member
    exact ⟨b, List.mem_append_left _ earlier, both⟩
  · intro s member call held
    rcases held_or_new held with old | ⟨here, rfl⟩
    · exact h.beside s member call old
    · exact .inl (h.before last member here)
  · exact h.nests
  · intro s member id parent
    exact Nat.le_trans (h.handedOut s member id parent) ids
  · intro s member thread call held parent
    rcases held_or_new held with old | ⟨_, rfl⟩
    · exact h.under s member thread call old parent
    · exact absurd (h.handedOut s member _ parent) (Nat.not_le.mpr fresh)
  · rw [hosts]
    exact h.parents

/-! A call is finished, from its begin until now, and those inside it are given up. -/

structure Ending (ts : ThreadId → ThreadState) (a : Answer) (left : List OpenCall) (call : OpenCall)
    (s : Span) : Prop where
  held : call ∈ (ts a.thread).calls
  stays : left.Sublist (ts a.thread).calls
  outer : ∀ k ∈ left, k.beganAt ≤ call.beganAt
  thread : s.thread = a.thread
  beginsAt : s.beginsAt = call.beganAt
  endsAt : s.endsAt = a.time
  span : s.span = call.identity.span
  parent : s.parent = left.head?.map (·.identity.span)

theorem ending (h : Intervals past ts e recorder) {a : Answer}
    (chained : Chained (ts a.thread).calls) {inner left : List OpenCall} {call : OpenCall}
    (opened : (ts a.thread).calls = inner ++ call :: left) {b : Answer} {start : SpanStart}
    (opens : b.Opens a.thread call) (begins : b.Begins start) :
    Ending ts a left call (start.finish a.time) := by
  have identity := Outcome.entered.inj (begins.outcome.symm.trans opens.outcome)
  have below : call :: left <:+ (ts a.thread).calls := opened ▸ List.suffix_append _ _
  have outer := (h.stacked a.thread).sublist below.sublist
  refine ⟨below.subset List.mem_cons_self, ((List.suffix_cons _ _).trans below).sublist,
    fun k stays => List.rel_of_pairwise_cons outer stays, begins.thread.trans opens.thread,
    begins.time.trans opens.time, rfl, congrArg Identity.span identity, ?_⟩
  change start.identity.parent = _
  rw [identity]
  exact (chained.of_suffix below).2.1

namespace Ending
variable {a : Answer} {left : List OpenCall} {call : OpenCall} {s old : Span}

theorem nests (ending : Ending ts a left call s) (h : Intervals past ts e recorder)
    (last : ∀ b ∈ past, b.thread = a.thread → b.time ≤ a.time)
    (member : old ∈ recorder.callSpans) (same : old.thread = s.thread) : old.Nests s := by
  have here := same.trans ending.thread
  rcases h.beside old member call (here ▸ ending.held) with before | inside
  · left
    rw [ending.beginsAt]
    exact before
  · right; right; right
    rw [Span.Contains, ending.beginsAt, ending.endsAt]
    exact ⟨inside, h.before last member here⟩

/-- The parent of the call is the next one on its thread. -/
theorem held_parent (ending : Ending ts a left call s) {id : SpanId} (parent : s.parent = some id) :
    ∃ k ∈ left, k ∈ (ts a.thread).calls ∧ k.identity.span = id := by
  rw [ending.parent] at parent
  obtain ⟨k, first, same⟩ := Option.map_eq_some_iff.mp parent
  have stays := List.mem_of_mem_head? first
  exact ⟨k, stays, ending.stays.subset stays, same⟩

theorem under (ending : Ending ts a left call s) (numbered : Numbered filter history ts e)
    {thread : ThreadId} {k : OpenCall} (held : k ∈ (ts thread).calls)
    (still : thread = a.thread → k ∈ left) (parent : s.parent = some k.identity.span) :
    thread = s.thread ∧ k.beganAt ≤ s.beginsAt := by
  obtain ⟨next, _, held', same⟩ := ending.held_parent parent
  by_cases here : thread = a.thread
  · rw [ending.thread, ending.beginsAt]
    exact ⟨here, ending.outer k (still here)⟩
  · exact absurd same.symm (numbered.span_ne here held held')

theorem contains (ending : Ending ts a left call s) (h : Intervals past ts e recorder)
    (last : ∀ b ∈ past, b.thread = a.thread → b.time ≤ a.time)
    (member : old ∈ recorder.callSpans) (parent : old.parent = some s.span) : s.Contains old := by
  rw [ending.span] at parent
  obtain ⟨same, inside⟩ := h.under old member a.thread call ending.held parent
  rw [Span.Contains, ending.beginsAt, ending.endsAt]
  exact ⟨inside, h.before last member same.symm⟩

end Ending

theorem exit (h : Intervals (answers history) ts e recorder)
    (numbered : Numbered filter history ts e) (distinct : Distinct ts e recorder) {a : Answer}
    (last : ∀ b ∈ answers history, b.thread = a.thread → b.time ≤ a.time) {t : ThreadState}
    {call : OpenCall} {span : Span} (ending : Ending ts a t.calls call span)
    (ids : e.ids.allocated ≤ e'.ids.allocated) (isCall : span.isCall = true)
    (hosts : recorder'.hostSpans = recorder.hostSpans ++ [span]) :
    Intervals (answers history ++ [a]) (Function.update ts a.thread t) e' recorder' := by
  have calls : recorder'.callSpans = recorder.callSpans ++ [span] := by
    rw [callSpans_append hosts, List.filter_singleton, isCall, cond_true]
  have fewer := calls_update_sublist ending.stays
  refine ⟨fun thread => (h.stacked thread).sublist (fewer thread), ?_, ?_, ?_, ?_, ?_, ?_⟩ <;>
    rw [calls, List.forall_mem_append, List.forall_mem_singleton]
  · refine ⟨fun s old => ?_, a, List.mem_append_right _ List.mem_cons_self,
      ending.thread.symm, ending.endsAt.symm⟩
    obtain ⟨b, earlier, both⟩ := h.ended s old
    exact ⟨b, List.mem_append_left _ earlier, both⟩
  · refine ⟨fun s old k held => h.beside s old k ((fewer _).subset held), fun k held => .inr ?_⟩
    rw [ending.thread, Function.update_self] at held
    rw [ending.beginsAt]
    exact ending.outer k held
  · refine ⟨fun s old => ?_, ?_⟩ <;> rw [List.forall_mem_append, List.forall_mem_singleton]
    · exact ⟨h.nests s old, ending.nests h last old⟩
    · exact ⟨fun s old same => (ending.nests h last old same.symm).symm,
        fun _ => .inr (.inr (.inl (.refl _)))⟩
  · refine ⟨fun s old id parent => Nat.le_trans (h.handedOut s old id parent) ids, ?_⟩
    intro id parent
    obtain ⟨k, _, held, rfl⟩ := ending.held_parent parent
    exact Nat.le_trans (numbered.span_pos held).2 ids
  · refine ⟨fun s old thread k held => h.under s old thread k ((fewer _).subset held), ?_⟩
    intro thread k held parent
    refine ending.under numbered ((fewer _).subset held) (fun here => ?_) parent
    rwa [here, Function.update_self] at held
  · refine ⟨fun s old => ?_, ?_⟩ <;> rw [hosts, List.forall_mem_append, List.forall_mem_singleton]
    · exact ⟨h.parents s old, ending.contains h last old⟩
    · refine ⟨fun host before parent => ?_, fun _ => .refl _⟩
      -- the parent is still open, so no finished span has its id
      obtain ⟨k, _, held, same⟩ := ending.held_parent parent
      exact absurd same (distinct.closed host before a.thread k held)

theorem host (h : Intervals (answers history) ts e recorder)
    (numbered : Numbered filter history ts e) (recorded : Recorded history ts e recorder)
    (distinct : Distinct ts e recorder) (chained : AllChained history ts e) {a : Answer}
    {t : ThreadState} (known : (ts a.thread).thread = a.thread)
    (inTime : InTime (answers history ++ [a]))
    (step : Engine.HostStep e (ts a.thread) a.call a.time a.outcome t e')
    (drawn : Engine.Drawn e (ts a.thread) a.call a.time recorder a.outcome t recorder') :
    Intervals (answers history ++ [a]) (Function.update ts a.thread t) e' recorder' := by
  obtain ⟨more, finished, _, spans⟩ := recorded.finished_host known drawn
  have hosts := Recorder.hostSpans_append finished
  have last := inTime.of_append.2
  have grown : answers history ⊆ answers history ++ [a] := List.subset_append_left _ _
  generalize more.toList.filter (·.kind == .cpu) = own at hosts spans
  generalize a.outcome = outcome at step spans
  by_cases entered : ∃ identity, outcome = .entered identity
  · obtain ⟨identity, rfl⟩ := entered
    cases step with
    | entered traced domain phase later =>
      rw [spans.eq_nil_of_entered (Nat.le_succ _), List.append_nil] at hosts
      refine h.enter numbered last (ThreadState.calls_push _ _ _) ?_ ?_ hosts
      · rw [ThreadState.span_nextIdentity]
        exact Nat.lt_succ_self _
      · rw [later.ids]
        exact Nat.le.intro (ThreadState.allocated_nextIdentity _ _).symm
  · have fewer := calls_update_sublist
      (step.calls_suffix fun identity eq => entered ⟨identity, eq⟩).sublist
    cases spans with
    | none => exact h.calm grown step.ids_le fewer hosts (List.forall_mem_nil _)
    | @ended _ _ inner call start b opened member opens begins =>
      have ordered : call.beganAt ≤ a.time := by
        rw [← opens.time]
        exact last b member (opens.thread.trans known)
      rw [if_neg (Nat.not_lt.mpr ordered)] at hosts
      have ending := h.ending (chained a.thread) opened (known ▸ opens) begins
      exact h.exit numbered distinct last ending step.ids_le
        (SpanStart.isCall_finish start a.time ▸ begins.isCall) hosts
    | leaf =>
      refine h.calm grown step.ids_le fewer hosts (List.forall_mem_singleton.mpr ⟨rfl, ?_⟩)
      refine Nat.lt_of_lt_of_eq (Nat.lt_succ_self _) ?_
      exact (ThreadState.span_nextIdentity _ _).symm

end Intervals

structure Placed (filter : NameFilter) (past : List Happening) (ts : ThreadId → ThreadState)
    (e : Engine) (recorder : Recorder) : Prop where
  numbered : Numbered filter past ts e
  recorded : Recorded past ts e recorder
  distinct : Distinct ts e recorder
  chained : AllChained past ts e
  intervals : InTime (answers past) → Intervals (answers past) ts e recorder

namespace Placed
variable {filter : NameFilter} {past : List Happening} {ts : ThreadId → ThreadState}
  {e e' : Engine} {recorder : Recorder}

/-- Spans of devices do not change where calls are. -/
theorem device (h : Placed filter past ts e recorder) {past' : List Happening}
    {ts' : ThreadId → ThreadState} {recorder' : Recorder} {more : Array Span}
    (numbered : Numbered filter past' ts' e') (recorded : Recorded past' ts' e' recorder')
    (history : answers past' = answers past)
    (calls : ∀ thread, (ts' thread).calls = (ts thread).calls)
    (ids : e'.ids = e.ids) (finished : recorder'.finished = recorder.finished ++ more)
    (device : ∀ span ∈ more, span.kind = .device) : Placed filter past' ts' e' recorder' := by
  have hosts := Recorder.hostSpans_of_device finished device
  have ids := Nat.le_of_eq (congrArg SpanIds.allocated ids.symm)
  refine ⟨numbered, recorded, ?_, fun thread => ?_, fun inTime => ?_⟩
  · exact h.distinct.quiet hosts ids fun thread call held => .inl (calls thread ▸ held)
  · rw [calls]
    exact h.chained thread
  · rw [history] at inTime ⊢
    have hosts : recorder'.hostSpans = recorder.hostSpans ++ [] := by rw [hosts, List.append_nil]
    refine (h.intervals inTime).calm (List.Subset.refl _) ids (fun thread => ?_) hosts
      (List.forall_mem_nil _)
    rw [calls]

theorem background (h : Placed filter past ts e recorder) (quiet : e.Background e') :
    ∃ recorder', Placed filter past ts e' recorder' := by
  obtain ⟨loose, allLoose, recorded⟩ := h.recorded.background quiet
  exact ⟨_, h.device ((kept_numbered filter).background h.numbered quiet) recorded rfl
    (fun _ => rfl) quiet.ids (recorder.finished_keep loose)
    fun span old => (allLoose span old).kind⟩

end Placed

theorem kept_placed (filter : NameFilter) :
    Kept fun past ts e => ∃ recorder, Placed filter past ts e recorder where
  background := by
    rintro past ts e e' ⟨recorder, h⟩ quiet
    exact h.background quiet
  host := by
    rintro past ts e thread now c outcome t e' ⟨recorder, h⟩ known step
    obtain ⟨recorder', drawn, recorded⟩ := h.recorded.host known step
    refine ⟨recorder', (kept_numbered filter).host h.numbered known step, recorded,
      h.distinct.host h.recorded h.numbered known step drawn,
      kept_chained.host h.chained known step, fun inTime => ?_⟩
    rw [answers_append, answers_call] at inTime ⊢
    exact (h.intervals inTime.of_append.1).host (a := ⟨thread, now, c, outcome⟩) h.numbered
      h.recorded h.distinct h.chained known inTime step drawn
  completion := by
    rintro past ts e thread offset c d t e' ⟨recorder, h⟩ known step
    obtain ⟨recorder', emitted, recorded⟩ := h.recorded.completion step
    have numbered := (kept_numbered filter).completion h.numbered known step
    have history := answers_append_completion past thread c d
    cases emitted with
    | nothing silent =>
      have none : ∀ span ∈ (#[] : Array Span), span.kind = .device := fun span member =>
        absurd member (Array.not_mem_empty span)
      exact ⟨recorder, h.device numbered recorded history step.calls_update step.ids_eq
        (Array.append_empty).symm none⟩
    | span supported ordered allLoose =>
      exact ⟨_, h.device numbered recorded history step.calls_update step.ids_eq
        (recorder.finished_keep _) (Array.forall_mem_append.mpr
          ⟨Array.forall_mem_singleton.mpr rfl, fun span old => (allLoose span old).kind⟩)⟩

theorem Fresh.placed {s : Settings} {r : Replay} (fresh : r.Fresh s)
    (wanted : s.recordSpans = true) :
    Placed r.session.engine.callFilter [] r.threadState r.session.engine {} := by
  refine ⟨fresh.numbered, fresh.recorded wanted, ⟨List.nodup_nil, ?_, ?_⟩, fresh.bracketed.chained,
    fun _ => ⟨fun thread => ?_, ?_, ?_, ?_, ?_, ?_, ?_⟩⟩
  case refine_3 =>
    rw [fresh.threadState]
    exact .nil
  all_goals exact fun span member => absurd member List.not_mem_nil

/-! ## What the result shows -/

/-- A span of the result is one that the recorder had when all work was done. -/
theorem Told.mem_spans {r : Replay} {result : ReplayResult} (told : r.Told result) {span : Span}
    (member : span ∈ result.spans) :
    ∃ recorder, r.session.stopped.sinks.spans = some recorder ∧ span ∈ recorder.finished := by
  obtain ⟨warnings, engine⟩ := told.engine
  rw [told.spans, engine, List.mem_mergeSort] at member
  change span ∈ (r.session.stopped.sinks.spans.map (·.finished.toList)).getD [] at member
  cases spans : r.session.stopped.sinks.spans with
  | none =>
    rw [spans] at member
    exact absurd member List.not_mem_nil
  | some recorder =>
    rw [spans] at member
    exact ⟨recorder, rfl, Array.mem_toList_iff.mp member⟩

/-- Without a recorder there is none in the end. -/
theorem Started.unrecorded {s : Settings} {r : Replay} (started : r.Started s)
    (unwanted : s.recordSpans = false) (events : List RecordedEvent) :
    (r.all events).session.stopped.sinks.spans = none := by
  have start : r.session.engine.bench.sinks.spans = none := by
    refine started.fresh.spans.trans ?_
    rw [unwanted]
    rfl
  obtain ⟨⟨_, bench, _⟩, _⟩ := started.live.desked_all events
  have ran := Bench.kept_actAll Sinks.spans_take_of_none start
    (r.desk.deeds r.session.engine.setting (events.flatMap RecordedEvent.steps))
  rw [← bench] at ran
  exact Bench.kept_settle (fun s n _ => s.spans_take_of_none n) ran
    (r.all events).session.engine.work.stop

/-- The finished calls are where they are when the last event has come. -/
theorem Placed.stopped {filter : NameFilter} {past : List Happening} {r : Replay}
    {recorder recorder' : Recorder} (h : Placed filter past r.threadState r.session.engine recorder)
    (ready : r.session.engine.Ready) (spans : r.session.stopped.sinks.spans = some recorder') :
    recorder'.hostSpans = recorder.hostSpans := by
  obtain ⟨loose, allLoose, stopped⟩ :=
    (Session.background_stopped ready).recorder h.recorded.spans
  cases spans.symm.trans stopped
  exact Recorder.hostSpans_of_device (recorder.finished_keep loose)
    fun span old => (allLoose span old).kind

/-- As long as time does not go back on a thread, no exit of a tracked call comes before its enter,
the finished calls of a thread nest, and each lies within its parent. -/
theorem Started.spans_nest {s : Settings} {r : Replay} (started : r.Started s)
    {events : List RecordedEvent} (timely : Timely events) :
    (∀ a ∈ answers (r.history events), a.call.domain = .correlated → a.outcome ≠ .clockAnomaly) ∧
    ∃ result, (r.all events).finish = .ok result ∧
      (∀ a ∈ result.spans, ∀ b ∈ result.spans, a.isCall = true → b.isCall = true →
        a.thread = b.thread → a.Nests b) ∧
      ∀ child ∈ result.spans, ∀ parent ∈ result.spans, child.isCall = true → parent.kind = .cpu →
        child.parent = some parent.span → parent.Contains child := by
  have fresh := started.fresh
  have inTime := timely.inTime r
  obtain ⟨⟨_, ordered⟩, running⟩ := (kept_ordered r.session.engine.callFilter).all fresh.running
    ⟨fresh.numbered, fun _ => List.forall_mem_nil _⟩ events
  refine ⟨ordered inTime, ?_⟩
  obtain ⟨result, finished, told⟩ := started.told events
  refine ⟨result, finished, ?_⟩
  cases wanted : s.recordSpans with
  | false =>
    have none : ∀ span, span ∉ result.spans := by
      intro span member
      obtain ⟨recorder, spans, _⟩ := told.mem_spans member
      rw [started.unrecorded wanted events] at spans
      cases spans
    exact ⟨fun a member => absurd member (none a), fun child member => absurd member (none child)⟩
  | true =>
    obtain ⟨⟨recorder, placed⟩, _⟩ := (kept_placed r.session.engine.callFilter).all fresh.running
      ⟨{}, fresh.placed wanted⟩ events
    have intervals := placed.intervals inTime
    have host : ∀ span ∈ result.spans, span.kind = .cpu → span ∈ recorder.hostSpans := by
      intro span member kind
      obtain ⟨recorder', spans, kept⟩ := told.mem_spans member
      rw [← placed.stopped running.ready spans]
      exact Recorder.mem_hostSpans.mpr ⟨kept, kind⟩
    have call : ∀ span ∈ result.spans, span.isCall = true → span ∈ recorder.callSpans :=
      fun span member isCall =>
        List.mem_filter.mpr ⟨host span member (Span.kind_of_isCall isCall), isCall⟩
    constructor
    · intro a ha b hb isCall isCall'
      exact intervals.nests a (call a ha isCall) b (call b hb isCall')
    · intro child hc parent hp isCall kind
      exact intervals.parents child (call child hc isCall) parent (host parent hp kind)

/-- An exit with an unknown id ends the innermost call, and that of the outer call gives up one that
was entered in it and whose id another thread took. -/
theorem spans_nest_of_lost_exit : ∃ r : Replay, r.Started {} ∧
    let events : List RecordedEvent :=
      [.call 1 10 (.enter "hipMemcpy" 7), .call 1 20 (.enter "hipFree" 9),
        .call 1 30 (.exit "hipFree" 99), .call 1 40 (.enter "hipMalloc" 8),
        .call 2 5 (.enter "hipFree" 8), .call 1 50 (.exit "hipMemcpy" 7),
        .call 2 15 (.exit "hipFree" 7)]
    Timely events ∧
      ((∀ a ∈ answers (r.history events), a.call.domain = .correlated →
          a.outcome ≠ .clockAnomaly) ∧
        ∃ result, (r.all events).finish = .ok result ∧
          (∀ a ∈ result.spans, ∀ b ∈ result.spans, a.isCall = true → b.isCall = true →
            a.thread = b.thread → a.Nests b) ∧
          ∀ child ∈ result.spans, ∀ parent ∈ result.spans, child.isCall = true →
            parent.kind = .cpu → child.parent = some parent.span → parent.Contains child) ∧
      ((r.all events).session.shutdown.2.engine.sinks.spans.map fun x =>
        x.finished.toList.map fun s => (s.name, s.thread, s.beginsAt, s.endsAt)) =
        some [("hipFree", 1, 20, 30), ("hipMemcpy", 1, 10, 50), ("hipFree", 2, 5, 15)] := by
  obtain ⟨r, start⟩ : ∃ r, Replay.start {} none = .ok r := ⟨_, rfl⟩
  have started := Started.of_start start
  have timely : Timely
      [.call 1 10 (.enter "hipMemcpy" 7), .call 1 20 (.enter "hipFree" 9),
        .call 1 30 (.exit "hipFree" 99), .call 1 40 (.enter "hipMalloc" 8),
        .call 2 5 (.enter "hipFree" 8), .call 1 50 (.exit "hipMemcpy" 7),
        .call 2 15 (.exit "hipFree" 7)] := by
    intro thread
    by_cases one : thread = 1
    · subst one
      decide
    · by_cases two : thread = 2
      · subst two
        decide
      · simp [callTimes, Ne.symm one, Ne.symm two]
  refine ⟨r, started, timely, started.spans_nest timely, ?_⟩
  cases start
  decide +kernel

end Replay

end SpanWeave
