import SpanWeave.Proofs.Replay.Innermost

set_option autoImplicit false

/-!
# Records of open calls

A record that is in the registry was left by an enter and not closed by an exit with its id. Its
call is open as long as no exit with another id ends it, or gives it up with a call around it; after
that the record stays behind.
-/
namespace SpanWeave

def CallRecord.IsOpen (record : CallRecord) (ts : ThreadId → ThreadState) : Prop :=
  ∃ call ∈ (ts record.thread).calls, call.identity = record.identity

theorem CallRecord.IsOpen.update {record : CallRecord} {ts : ThreadId → ThreadState}
    (h : record.IsOpen ts) {thread : ThreadId} {t : ThreadState}
    (kept : thread = record.thread → (ts thread).calls ⊆ t.calls) :
    record.IsOpen (Function.update ts thread t) := by
  obtain ⟨call, member, same⟩ := h
  refine ⟨call, ?_, same⟩
  by_cases here : record.thread = thread
  · rw [here, Function.update_self]
    exact kept here.symm (here ▸ member)
  · rwa [Function.update_of_ne here]

def Registry.Has (r : Registry) (id : CorrelationId) (record : CallRecord) : Prop :=
  (r.lookupRecord? id).1 = some record

instance (r : Registry) (id : CorrelationId) (record : CallRecord) : Decidable (r.Has id record) :=
  inferInstanceAs (Decidable (_ = _))

theorem Registry.Holds.has_iff {r : Registry} {f : CorrelationId → Option CallRecord}
    (h : r.Holds f) {id : CorrelationId} {record : CallRecord} :
    r.Has id record ↔ f id = some record := by
  rw [Registry.Has, h.lookupRecord]

theorem Registry.Holds.size_eq_zero {r : Registry} {f : CorrelationId → Option CallRecord}
    (h : r.Holds f) (none : ∀ id record, ¬ r.Has id record) : r.size = 0 := by
  have empty : r.identities = ∅ := by
    refine Std.ExtTreeMap.ext_getElem? fun id => ?_
    rw [(h id).2, Std.ExtTreeMap.getElem?_empty]
    cases found : f id with
    | none => rfl
    | some record => exact absurd (h.has_iff.mpr found) (none id record)
  rw [Registry.size, empty, Std.ExtTreeMap.size_empty]

namespace Replay

/-- An exit with another id ends the call of a record, or gives it up with a call around it. -/
def TakesOff (r : Replay) (events : List RecordedEvent) (id : CorrelationId)
    (record : CallRecord) : Prop :=
  ∃ before time c after, events = before ++ .call record.thread time c :: after ∧
    c.phase = .exit ∧ c.correlation ≠ id ∧ record.IsOpen (r.all before).threadState ∧
    ¬ record.IsOpen (r.all (before ++ [.call record.thread time c])).threadState

theorem TakesOff.append {r : Replay} {events : List RecordedEvent} {id : CorrelationId}
    {record : CallRecord} (h : r.TakesOff events id record) (more : List RecordedEvent) :
    r.TakesOff (events ++ more) id record := by
  obtain ⟨before, time, c, after, rfl, taken⟩ := h
  exact ⟨before, time, c, after ++ more, List.append_assoc _ _ _, taken⟩

theorem threadState_call {r : Replay} (running : r.Running) {thread other : ThreadId}
    (different : other ≠ thread) (time : UInt64) (c : HostCall) :
    (r.apply (.call thread time c)).threadState other = r.threadState other := by
  obtain ⟨applied, _⟩ := apply_call running.active thread time c
  obtain ⟨step, _⟩ := Engine.onCall_step running.ready (r.threadState thread) c time.toNat
  rw [applied, threadState_moved r (step.thread_eq.trans (running.thread thread)),
    Function.update_of_ne different]

/-- A batch of completions leaves all open calls alone. -/
theorem calls_batch {r : Replay} (running : r.Running) (thread : ThreadId) (cs : List Completion)
    (other : ThreadId) :
    ((r.apply (.batch thread cs)).threadState other).calls = (r.threadState other).calls := by
  have kept : Kept fun past ts _ => answers past = [] →
      ∀ other, (ts other).calls = (r.threadState other).calls := by
    refine ⟨fun h _ => h, fun _ _ _ none => ?_,
      fun {past _ _ thread _ c d _ _} h _ step none o => ?_⟩
    · rw [answers_append] at none
      exact absurd (List.append_eq_nil_iff.mp none).2 (List.cons_ne_nil _ _)
    · rw [answers_append_completion] at none
      rw [step.calls_update]
      exact h none o
  have start : answers [] = [] →
      ∀ other, (r.threadState other).calls = (r.threadState other).calls := fun _ _ => rfl
  exact (kept.apply running start (.batch thread cs)).1 (answers_batch r thread cs) other

structure Gone (thread : ThreadId) (identity : Identity) (ts : ThreadId → ThreadState)
    (e : Engine) : Prop where
  allocated : identity.span ≤ e.ids.allocated
  closed : ∀ call ∈ (ts thread).calls, call.identity ≠ identity

theorem kept_gone (thread : ThreadId) (identity : Identity) :
    Kept fun _ ts e => Gone thread identity ts e where
  background h quiet := ⟨quiet.ids ▸ h.allocated, h.closed⟩
  host {_ ts e other _ _ _ t _} h known step := by
    refine ⟨Nat.le_trans h.allocated step.ids_le, fun call member same => ?_⟩
    rcases mem_calls_update member with ⟨rfl, now⟩ | before
    · rcases step.old_or_new now with old | new
      · exact h.closed call old same
      · rw [same] at new
        exact absurd h.allocated (Nat.not_le_of_lt new)
    · exact h.closed call before same
  completion h known step := by
    refine ⟨step.ids_eq ▸ h.allocated, fun call member => ?_⟩
    rw [step.calls_update] at member
    exact h.closed call member

/-- A record that is there after an answer on the host is that of an open call, unless it was there
before. Only an exit with another id can have ended its call then. -/
theorem record_answered {filter : NameFilter} {past : List Answer} {ts : ThreadId → ThreadState}
    {e e' : Engine} {a : Answer} {t : ThreadState} (callFilter : e.callFilter = filter)
    (step : Engine.HostStep e (ts a.thread) a.call a.time a.outcome t e') {id : CorrelationId}
    {record : CallRecord} (left : registered filter (past ++ [a]) id = some record) :
    record.IsOpen (Function.update ts a.thread t) ∨
      registered filter past id = some record ∧ (record.IsOpen ts →
        a.thread = record.thread ∧ a.call.phase = .exit ∧ a.call.correlation ≠ id) := by
  by_cases traced : a.isTraced filter = true
  · obtain ⟨domain, passes⟩ := Answer.isTraced_iff.mp traced
    rw [registered_append_of_traced traced] at left
    by_cases own : id = a.call.correlation
    · -- only an enter leaves a record under its id, and its call is open now
      rw [own, Function.update_self, Answer.record?] at left
      generalize a.outcome = outcome at step left
      cases step with
      | entered =>
        obtain rfl := Option.some.inj left
        exact .inl ⟨_, by rw [Function.update_self]; exact List.mem_cons_self, rfl⟩
      | filtered | exited | anomaly | stray | missing | untrackedEnter | untrackedStray
      | untrackedAnomaly | leaf => cases left
    · rw [Function.update_of_ne own] at left
      by_cases after : record.IsOpen (Function.update ts a.thread t)
      · exact .inl after
      · refine .inr ⟨left, fun before => ?_⟩
        by_cases here : a.thread = record.thread
        · refine ⟨here, ?_, Ne.symm own⟩
          cases phase : a.call.phase with
          | enter =>
            obtain ⟨_, rfl⟩ := step.enter_eq domain (callFilter ▸ passes) phase
            exact absurd (before.update fun _ => List.subset_cons_self _ _) after
          | exit => rfl
        · exact absurd (before.update fun same => absurd same here) after
  · rw [registered_append_of_not_traced (Bool.not_eq_true _ ▸ traced)] at left
    by_cases before : record.IsOpen ts
    · refine .inl (before.update fun _ => ?_)
      rw [step.calls_of_not_traced callFilter traced]
      exact List.Subset.refl _
    · exact .inr ⟨left, fun isOpen => absurd isOpen before⟩

/-- What can have become of a record and its call at one event. -/
theorem record_left {r : Replay} (running : r.Running) {filter : NameFilter}
    (callFilter : r.session.engine.callFilter = filter) {past : List Happening}
    (event : RecordedEvent) {id : CorrelationId} {record : CallRecord}
    (left : registered filter (answers (past ++ r.happenings event)) id = some record) :
    record.IsOpen (r.apply event).threadState ∨
      registered filter (answers past) id = some record ∧ (record.IsOpen r.threadState →
        ∃ time c, event = .call record.thread time c ∧ c.phase = .exit ∧ c.correlation ≠ id) := by
  rw [answers_append] at left
  cases event with
  | untracked thread cs =>
    rw [apply_untracked running.active (running.thread thread),
      threadState_moved r (running.thread thread), Function.update_eq_self]
    by_cases before : record.IsOpen r.threadState
    · exact .inl before
    · exact .inr ⟨List.append_nil (answers past) ▸ left, fun isOpen => absurd isOpen before⟩
  | batch thread cs =>
    rw [answers_batch, List.append_nil] at left
    by_cases before : record.IsOpen r.threadState
    · obtain ⟨call, member, same⟩ := before
      exact .inl ⟨call, (calls_batch running thread cs record.thread).symm ▸ member, same⟩
    · exact .inr ⟨left, fun isOpen => absurd isOpen before⟩
  | call thread time c =>
    obtain ⟨applied, happened⟩ := apply_call running.active thread time c
    obtain ⟨step, _⟩ := Engine.onCall_step running.ready (r.threadState thread) c time.toNat
    have known := step.thread_eq.trans (running.thread thread)
    rw [happened, answers_call] at left
    rw [applied, threadState_moved r known]
    rcases record_answered callFilter step left with now | ⟨earlier, exit⟩
    · exact .inl now
    · refine .inr ⟨earlier, fun isOpen => ?_⟩
      obtain ⟨rfl, phase, other⟩ := exit isOpen
      exact ⟨time, c, rfl, phase, other⟩

/-- How the records of the registry stand to the open calls after a run. -/
structure KeepsRecords (r : Replay) (events : List RecordedEvent) : Prop where
  isOpen_iff : ∀ id record, (r.all events).session.engine.registry.Has id record →
    (record.IsOpen (r.all events).threadState ↔ ¬ r.TakesOff events id record)
  /-- When no call is open, nothing but such records is left. -/
  empty : (∀ thread, ((r.all events).threadState thread).calls = []) →
    (∀ id record, ¬ r.TakesOff events id record) → (r.all events).session.engine.registry.size = 0
  /-- Well-nested calls leave none. -/
  nested : WellNested events → ∀ id record,
    (r.all events).session.engine.registry.Has id record → ¬ r.TakesOff events id record

namespace Unused
variable {r : Replay}

theorem bracketed_all (unused : r.Unused) (events : List RecordedEvent) :
    Bracketed r.session.engine.callFilter (r.history events) (r.all events).threadState
        (r.all events).session.engine ∧ (r.all events).Running :=
  (kept_bracketed _).all unused.running unused.bracketed events

theorem open_or_takesOff (unused : r.Unused) (events : List RecordedEvent) {id : CorrelationId}
    {record : CallRecord} (left : SpanWeave.registered r.session.engine.callFilter
      (answers (r.history events)) id = some record) :
    record.IsOpen (r.all events).threadState ∨ r.TakesOff events id record := by
  induction events using List.reverseRecOn with
  | nil => cases left
  | append_singleton events event ih =>
    obtain ⟨bracketed, running⟩ := unused.bracketed_all events
    have last : r.all (events ++ [event]) = (r.all events).apply event :=
      r.all_append events [event]
    rw [history_append, history, history, List.append_nil] at left
    rw [last]
    rcases record_left running bracketed.registered.callFilter event left with now | ⟨earlier, exit⟩
    · exact .inl now
    by_cases now : record.IsOpen ((r.all events).apply event).threadState
    · exact .inl now
    · right
      rcases ih earlier with before | taken
      · obtain ⟨time, c, rfl, phase, other⟩ := exit before
        exact ⟨events, time, c, [], rfl, phase, other, before, last ▸ now⟩
      · exact taken.append [event]

theorem gone_of_takesOff (unused : r.Unused) {events : List RecordedEvent} {id : CorrelationId}
    {record : CallRecord} (taken : r.TakesOff events id record) :
    ¬ record.IsOpen (r.all events).threadState := by
  obtain ⟨before, time, c, after, rfl, _, _, isOpen, closed⟩ := taken
  obtain ⟨bracketed, running⟩ := unused.bracketed_all before
  obtain ⟨_, running'⟩ := unused.bracketed_all (before ++ [.call record.thread time c])
  have last : r.all (before ++ [.call record.thread time c]) =
      (r.all before).apply (.call record.thread time c) := r.all_append _ _
  have gone : Gone record.thread record.identity
      (r.all (before ++ [.call record.thread time c])).threadState
      (r.all (before ++ [.call record.thread time c])).session.engine := by
    refine ⟨?_, fun call member same => closed ⟨call, member, same⟩⟩
    obtain ⟨call, member, same⟩ := isOpen
    obtain ⟨applied, _⟩ := apply_call running.active record.thread time c
    obtain ⟨step, _⟩ := Engine.onCall_step running.ready ((r.all before).threadState record.thread)
      c time.toNat
    rw [last, applied]
    exact Nat.le_trans (same ▸ (bracketed.numbered.span_pos member).2) step.ids_le
  have whole : before ++ .call record.thread time c :: after =
      before ++ [.call record.thread time c] ++ after := by
    rw [List.append_assoc]
    rfl
  rw [whole, all_append]
  rintro ⟨call, member, same⟩
  exact ((kept_gone _ _).all running' gone after).1.closed call member same

end Unused

theorem exists_open {thread : ThreadId} {calls : List OpenCall} {opened : List Answer} {a : Answer}
    (h : List.Forall₂ (fun call b => Answer.Opens b thread call) calls opened)
    (member : a ∈ opened) : ∃ call ∈ calls, a.Opens thread call := by
  induction h with
  | nil => cases member
  | cons opens _ ih =>
    rcases List.mem_cons.mp member with rfl | outer
    · exact ⟨_, List.mem_cons_self, opens⟩
    · obtain ⟨call, held, opens⟩ := ih outer
      exact ⟨call, List.mem_cons_of_mem _ held, opens⟩

/-- The records that the registry has are those of open calls, except for the calls that an exit
with another id has ended or given up. -/
theorem Unused.keepsRecords {r : Replay} (unused : r.Unused) (events : List RecordedEvent) :
    r.KeepsRecords events := by
  obtain ⟨bracketed, _⟩ := unused.bracketed_all events
  have holds := bracketed.registered.holds
  have known : ∀ id record, (r.all events).session.engine.registry.Has id record →
      (record.IsOpen (r.all events).threadState ↔ ¬ r.TakesOff events id record) :=
    fun id record has => ⟨fun isOpen taken => unused.gone_of_takesOff taken isOpen, fun clean =>
      (unused.open_or_takesOff events (holds.has_iff.mp has)).resolve_right clean⟩
  refine ⟨known, fun idle clean => holds.size_eq_zero fun id record has => ?_,
    fun wellNested id record has => ?_⟩
  · obtain ⟨call, member, _⟩ := (known id record has).mpr (clean id record)
    rw [idle] at member
    exact List.not_mem_nil member
  · refine (known id record has).mp ?_
    have nests := (wellNested.nests r).filtered r.session.engine.callFilter
    obtain ⟨a, last, left⟩ := Option.bind_eq_some_iff.mp (holds.has_iff.mp has)
    have outcome := Answer.outcome_of_record? left
    obtain ⟨member, _, _⟩ := lastCall?_eq_some last
    have enter := ((bracketed.numbered.fits a member).entered.mp ⟨_, outcome⟩).2
    have innermost := List.mem_of_find?_eq_some (nests.innermost last enter)
    obtain ⟨call, opened, opens⟩ := exists_open ((bracketed.nested nests).opened a.thread) innermost
    rw [Answer.record?, outcome] at left
    have thread : a.thread = record.thread := congrArg CallRecord.thread (Option.some.inj left)
    exact ⟨call, thread ▸ opened, Outcome.entered.inj (opens.outcome.symm.trans outcome)⟩

def lostExit : List RecordedEvent :=
  [.call 7 10 (.enter "hipMalloc" 1), .call 7 20 (.enter "hipMemcpy" 2),
    .call 7 30 (.exit "hipMalloc" 1)]

theorem takesOff_of_lost_exit : ∃ r : Replay, r.Unused ∧
    r.TakesOff lostExit 2 ⟨"hipMemcpy", 7, ⟨2, some 1, 1⟩⟩ := by
  obtain ⟨r, start⟩ : ∃ r, Replay.start {} none = .ok r := ⟨_, rfl⟩
  have unused := (Started.of_start start).fresh.unused
  have keeps := unused.keepsRecords lostExit
  have has : (r.all lostExit).session.engine.registry.Has 2 ⟨"hipMemcpy", 7, ⟨2, some 1, 1⟩⟩ := by
    cases start
    decide
  have closed : ((r.all lostExit).threadState 7).calls = [] := by
    cases start
    rfl
  refine ⟨r, unused, not_not.mp fun clean => ?_⟩
  obtain ⟨call, member, _⟩ := (keeps.isOpen_iff 2 _ has).mpr clean
  exact List.not_mem_nil (closed ▸ member)

/-- It leaves its record behind, though no call is open any more. -/
theorem lost_exit_leaves_record : ∃ r : Replay, r.Unused ∧
    (∀ thread, ((r.all lostExit).threadState thread).calls = []) ∧
    (r.all lostExit).session.engine.registry.Has 2 ⟨"hipMemcpy", 7, ⟨2, some 1, 1⟩⟩ ∧
    (r.all lostExit).session.engine.registry.size = 1 := by
  obtain ⟨r, start⟩ : ∃ r, Replay.start {} none = .ok r := ⟨_, rfl⟩
  have unused := (Started.of_start start).fresh.unused
  refine ⟨r, unused, fun thread => ?_, by cases start; decide, by cases start; decide⟩
  by_cases same : thread = 7
  · subst same
    cases start
    rfl
  · have first := (unused.bracketed_all [.call 7 10 (.enter "hipMalloc" 1)]).2
    have second := (unused.bracketed_all [.call 7 10 (.enter "hipMalloc" 1),
      .call 7 20 (.enter "hipMemcpy" 2)]).2
    refine Eq.trans (congrArg ThreadState.calls ?_) (unused.idle thread)
    exact (threadState_call second same _ _).trans
      ((threadState_call first same _ _).trans (threadState_call unused.running same _ _))

end Replay

end SpanWeave
