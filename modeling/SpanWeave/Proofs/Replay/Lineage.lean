import SpanWeave.Proofs.Replay.Launches
import SpanWeave.Proofs.Replay.Paired

set_option autoImplicit false

/-!
# Lineage

Where identities come from. Every call that is entered is a root or one level below a call that was
entered before it. An exit ends a call that was entered, and none that has been ended before, and
work on a device is under a call that was entered.
-/
namespace SpanWeave

def enteredIdentities (past : List Answer) : List Identity :=
  past.filterMap fun a => match a.outcome with
    | .entered identity => some identity
    | _ => none

def exitedIdentities (past : List Answer) : List Identity :=
  past.filterMap fun a => match a.outcome with
    | .exited identity => some identity
    | _ => none

/-- The calls that the completions of a history have behind them, once for each completion that
became a span. -/
def launchIdentities (filter : NameFilter) (history : List Happening) : List Identity :=
  (emissions history).filterMap fun m =>
    (registered filter m.before m.completion.correlation).map (·.identity)

theorem mem_enteredIdentities {past : List Answer} {identity : Identity} :
    identity ∈ enteredIdentities past ↔ ∃ a ∈ past, a.outcome = .entered identity := by
  rw [enteredIdentities, List.mem_filterMap]
  refine exists_congr fun a => and_congr_right fun _ => ?_
  cases a.outcome with
  | entered other => exact ⟨fun eq => congrArg _ (Option.some.inj eq), fun eq => by cases eq; rfl⟩
  | _ => exact ⟨nofun, nofun⟩

theorem exitedSpans_eq (past : List Answer) :
    exitedSpans past = (exitedIdentities past).map (·.span) := by
  rw [exitedSpans, exitedIdentities, List.map_filterMap]
  refine List.filterMap_congr fun a _ => ?_
  cases a.outcome <;> rfl

theorem enteredIdentities_append (past : List Answer) (a : Answer) :
    enteredIdentities (past ++ [a]) = enteredIdentities past ++ enteredIdentities [a] :=
  List.filterMap_append

theorem exitedIdentities_append (past : List Answer) (a : Answer) :
    exitedIdentities (past ++ [a]) = exitedIdentities past ++ exitedIdentities [a] :=
  List.filterMap_append

theorem Answer.identities_entered {a : Answer} {identity : Identity}
    (outcome : a.outcome = .entered identity) :
    enteredIdentities [a] = [identity] ∧ exitedIdentities [a] = [] := by
  simp only [enteredIdentities, exitedIdentities, List.filterMap_cons, outcome, List.filterMap_nil,
    and_self]

theorem Answer.identities_exited {a : Answer} {identity : Identity}
    (outcome : a.outcome = .exited identity) :
    enteredIdentities [a] = [] ∧ exitedIdentities [a] = [identity] := by
  simp only [enteredIdentities, exitedIdentities, List.filterMap_cons, outcome, List.filterMap_nil,
    and_self]

theorem Answer.identities_silent {a : Answer} (entered : ∀ identity, a.outcome ≠ .entered identity)
    (exited : ∀ identity, a.outcome ≠ .exited identity) :
    enteredIdentities [a] = [] ∧ exitedIdentities [a] = [] := by
  unfold enteredIdentities exitedIdentities
  rw [List.filterMap_cons, List.filterMap_cons]
  cases outcome : a.outcome with
  | entered identity => exact absurd outcome (entered identity)
  | exited identity => exact absurd outcome (exited identity)
  | _ => exact ⟨rfl, rfl⟩

theorem launchIdentities_call (filter : NameFilter) (past : List Happening) (a : Answer) :
    launchIdentities filter (past ++ [.call a]) = launchIdentities filter past := by
  rw [launchIdentities, emissions_call]
  rfl

theorem launchIdentities_emitted (filter : NameFilter) (past : List Happening) (thread : ThreadId)
    (c : Completion) (orphan : Bool) :
    launchIdentities filter (past ++ [.completion thread c (.emitted orphan)]) =
      launchIdentities filter past ++
        ((registered filter (answers past) c.correlation).map (·.identity)).toList := by
  rw [launchIdentities, emissions_emitted, List.filterMap_append]
  refine congrArg (_ ++ ·) ?_
  rw [List.filterMap_cons]
  cases registered filter (answers past) c.correlation <;> rfl

theorem launchIdentities_silent (filter : NameFilter) (past : List Happening) (thread : ThreadId)
    (c : Completion) {d : Disposition} (silent : ∀ orphan, d ≠ .emitted orphan) :
    launchIdentities filter (past ++ [.completion thread c d]) = launchIdentities filter past := by
  rw [launchIdentities, emissions_silent past thread c silent]
  rfl

theorem mem_enteredIdentities_of_registered {filter : NameFilter} {past : List Answer}
    {id : CorrelationId} {record : CallRecord} (left : registered filter past id = some record) :
    record.identity ∈ enteredIdentities past := by
  obtain ⟨a, last, left⟩ := Option.bind_eq_some_iff.mp left
  exact mem_enteredIdentities.mpr
    ⟨a, (lastCall?_eq_some last).1, Answer.outcome_of_record? left⟩

namespace Replay

structure Lineage (filter : NameFilter) (past : List Happening) (ts : ThreadId → ThreadState)
    (e : Engine) : Prop where
  numbered : Numbered filter past ts e
  registered : Registered filter past e
  rooted : ∀ i ∈ enteredIdentities (answers past), i.parent = none ∨
    ∃ j ∈ enteredIdentities (answers past), i.parent = some j.span ∧ i.depth = deeper j.depth ∧
      j.span < i.span
  exited : exitedIdentities (answers past) ⊆ enteredIdentities (answers past)
  launched : launchIdentities filter past ⊆ enteredIdentities (answers past)
  distinct : (exitedSpans (answers past)).Nodup
  closed : ∀ thread, ∀ call ∈ (ts thread).calls,
    call.identity.span ∉ exitedSpans (answers past)

namespace Lineage
variable {filter : NameFilter} {past : List Happening} {ts : ThreadId → ThreadState}
  {e e' : Engine}

/-- Identities of calls that were entered are told apart by their spans. -/
theorem unique (h : Lineage filter past ts e) {i j : Identity}
    (hi : i ∈ enteredIdentities (answers past)) (hj : j ∈ enteredIdentities (answers past))
    (same : i.span = j.span) : i = j := by
  obtain ⟨a, ha, outcome⟩ := mem_enteredIdentities.mp hi
  obtain ⟨b, hb, outcome'⟩ := mem_enteredIdentities.mp hj
  have eq := h.numbered.unique ha hb ⟨i, outcome, same⟩ ⟨j, outcome', rfl⟩
  subst eq
  exact Outcome.entered.inj (outcome.symm.trans outcome')

theorem span_le (h : Lineage filter past ts e) {i : Identity}
    (hi : i ∈ enteredIdentities (answers past)) : i.span ≤ e.ids.allocated := by
  obtain ⟨a, ha, outcome⟩ := mem_enteredIdentities.mp hi
  exact (h.numbered.allocated a ha _ ⟨i, outcome, rfl⟩).2

theorem exited_le (h : Lineage filter past ts e) {span : SpanId}
    (member : span ∈ exitedSpans (answers past)) : span ≤ e.ids.allocated := by
  rw [exitedSpans_eq] at member
  obtain ⟨i, exited, rfl⟩ := List.mem_map.mp member
  exact h.span_le (h.exited exited)

/-- A call whose thread has another one open is one level below that one. -/
theorem nextIdentity (h : Lineage filter past ts e) (thread : ThreadId) :
    ((ts thread).nextIdentity e.ids).1.parent = none ∨
      ∃ j ∈ enteredIdentities (answers past),
        ((ts thread).nextIdentity e.ids).1.parent = some j.span ∧
        ((ts thread).nextIdentity e.ids).1.depth = deeper j.depth ∧
        j.span < ((ts thread).nextIdentity e.ids).1.span := by
  cases calls : (ts thread).calls with
  | nil =>
    left
    rw [ThreadState.parent_nextIdentity, ThreadState.current?, calls]
    rfl
  | cons call outer =>
    right
    obtain ⟨a, ha, opens⟩ := h.numbered.opened thread call (calls ▸ List.mem_cons_self)
    have entered := mem_enteredIdentities.mpr ⟨a, ha, opens.outcome⟩
    have current : (ts thread).current? = some call.identity := by
      rw [ThreadState.current?, calls]
      rfl
    refine ⟨call.identity, entered, ?_, ?_, ?_⟩
    · rw [ThreadState.parent_nextIdentity, current]
      rfl
    · simp only [ThreadState.nextIdentity, current]
      rfl
    · rw [ThreadState.span_nextIdentity]
      exact Nat.lt_succ_of_le (h.span_le entered)

theorem quiet (h : Lineage filter past ts e) {past' : List Happening}
    {ts' : ThreadId → ThreadState} (numbered : Numbered filter past' ts' e')
    (registered : Registered filter past' e')
    (entered : enteredIdentities (answers past') = enteredIdentities (answers past))
    (exited : exitedIdentities (answers past') = exitedIdentities (answers past))
    (launched : launchIdentities filter past' ⊆ enteredIdentities (answers past))
    (calls : ∀ thread, ∀ call ∈ (ts' thread).calls, call ∈ (ts thread).calls) :
    Lineage filter past' ts' e' := by
  refine ⟨numbered, registered, ?_, ?_, ?_, ?_, fun thread call held => ?_⟩
  · rw [entered]
    exact h.rooted
  · rw [exited, entered]
    exact h.exited
  · rw [entered]
    exact launched
  · rw [exitedSpans_eq, exited, ← exitedSpans_eq]
    exact h.distinct
  · rw [exitedSpans_eq, exited, ← exitedSpans_eq]
    exact h.closed thread call (calls thread call held)

theorem enter (h : Lineage filter past ts e) {a : Answer} {t : ThreadState} {identity : Identity}
    (numbered : Numbered filter (past ++ [.call a]) (Function.update ts a.thread t) e')
    (registered : Registered filter (past ++ [.call a]) e')
    (outcome : a.outcome = .entered identity)
    (next : identity = ((ts a.thread).nextIdentity e.ids).1)
    (calls : t.calls = ⟨identity, a.time⟩ :: (ts a.thread).calls) :
    Lineage filter (past ++ [.call a]) (Function.update ts a.thread t) e' := by
  have history : answers (past ++ [.call a]) = answers past ++ [a] := answers_append _ _
  obtain ⟨new, none⟩ := Answer.identities_entered outcome
  have entered : enteredIdentities (answers (past ++ [.call a])) =
      enteredIdentities (answers past) ++ [identity] := by
    rw [history, enteredIdentities_append, new]
  have exited : exitedIdentities (answers (past ++ [.call a])) =
      exitedIdentities (answers past) := by
    rw [history, exitedIdentities_append, none, List.append_nil]
  have old := List.subset_append_left (enteredIdentities (answers past)) [identity]
  refine ⟨numbered, registered, ?_, ?_, ?_, ?_, fun thread call held => ?_⟩
  · rw [entered]
    refine List.forall_mem_append.mpr ⟨fun i member => ?_, List.forall_mem_singleton.mpr ?_⟩
    · exact (h.rooted i member).imp_right fun ⟨j, above, rest⟩ => ⟨j, old above, rest⟩
    · rw [next]
      exact (h.nextIdentity a.thread).imp_right fun ⟨j, above, rest⟩ => ⟨j, next ▸ old above, rest⟩
  · rw [exited, entered]
    exact List.Subset.trans h.exited old
  · rw [launchIdentities_call, entered]
    exact List.Subset.trans h.launched old
  · rw [exitedSpans_eq, exited, ← exitedSpans_eq]
    exact h.distinct
  · rw [exitedSpans_eq, exited, ← exitedSpans_eq]
    rcases mem_calls_update held with ⟨rfl, now⟩ | before
    · rw [calls] at now
      rcases List.mem_cons.mp now with rfl | before
      · intro ended
        have less := h.exited_le ended
        rw [next, ThreadState.span_nextIdentity] at less
        exact absurd less (Nat.not_succ_le_self _)
      · exact h.closed _ call before
    · exact h.closed thread call before

theorem exit (h : Lineage filter past ts e) {a : Answer} {t : ThreadState} {identity : Identity}
    (numbered : Numbered filter (past ++ [.call a]) (Function.update ts a.thread t) e')
    (registered : Registered filter (past ++ [.call a]) e')
    (outcome : a.outcome = .exited identity)
    (found : e.registry.identities[a.call.correlation]? = some identity)
    {inner : List OpenCall} {call : OpenCall}
    (opened : (ts a.thread).calls = inner ++ call :: t.calls)
    (same : call.identity.span = identity.span) :
    Lineage filter (past ++ [.call a]) (Function.update ts a.thread t) e' := by
  have history : answers (past ++ [.call a]) = answers past ++ [a] := answers_append _ _
  obtain ⟨none, new⟩ := Answer.identities_exited outcome
  have entered : enteredIdentities (answers (past ++ [.call a])) =
      enteredIdentities (answers past) := by
    rw [history, enteredIdentities_append, none, List.append_nil]
  have exited : exitedIdentities (answers (past ++ [.call a])) =
      exitedIdentities (answers past) ++ [identity] := by
    rw [history, exitedIdentities_append, new]
  have spans : exitedSpans (answers (past ++ [.call a])) =
      exitedSpans (answers past) ++ [identity.span] := by
    rw [exitedSpans_eq, exited, List.map_append, ← exitedSpans_eq]
    rfl
  have held : call ∈ (ts a.thread).calls := by
    rw [opened]
    exact List.mem_append_right _ List.mem_cons_self
  have unended : identity.span ∉ exitedSpans (answers past) := same ▸ h.closed _ call held
  refine ⟨numbered, registered, ?_, ?_, ?_, ?_, fun thread other left => ?_⟩
  · rw [entered]
    exact h.rooted
  · rw [exited, entered]
    refine List.append_subset.mpr ⟨h.exited, fun i new => ?_⟩
    rw [List.mem_singleton.mp new]
    rw [(h.registered.holds _).2] at found
    obtain ⟨record, left, rfl⟩ := Option.map_eq_some_iff.mp found
    exact mem_enteredIdentities_of_registered left
  · rw [launchIdentities_call, entered]
    exact h.launched
  · rw [spans, List.nodup_append]
    refine ⟨h.distinct, List.nodup_singleton _, fun span old other now => ?_⟩
    rw [List.mem_singleton.mp now]
    rintro rfl
    exact unended old
  · obtain ⟨before, differs⟩ := h.numbered.left opened left
    rw [spans, List.mem_append, List.mem_singleton, ← same]
    exact fun ended => ended.elim (h.closed thread other before) differs

theorem host (h : Lineage filter past ts e) {a : Answer} {t : ThreadState}
    (known : (ts a.thread).thread = a.thread)
    (step : Engine.HostStep e (ts a.thread) a.call a.time a.outcome t e') :
    Lineage filter (past ++ [.call a]) (Function.update ts a.thread t) e' := by
  have numbered := (kept_numbered filter).host h.numbered known step
  have registered := h.registered.host known step
  have silent : (∀ identity, a.outcome ≠ .entered identity) →
      (∀ identity, a.outcome ≠ .exited identity) →
      Lineage filter (past ++ [.call a]) (Function.update ts a.thread t) e' := by
    intro entered exited
    have history : answers (past ++ [.call a]) = answers past ++ [a] := answers_append _ _
    obtain ⟨noEnter, noExit⟩ := Answer.identities_silent entered exited
    refine h.quiet numbered registered ?_ ?_ ?_ fun thread call held => ?_
    · rw [history, enteredIdentities_append, noEnter, List.append_nil]
    · rw [history, exitedIdentities_append, noExit, List.append_nil]
    · rw [launchIdentities_call]
      exact h.launched
    · rcases mem_calls_update held with ⟨rfl, now⟩ | before
      · exact (step.calls_suffix entered).subset now
      · exact before
  generalize outcome : a.outcome = result at step silent
  cases step with
  | entered => exact h.enter numbered registered outcome rfl (ThreadState.calls_push _ _ _)
  | exited _ _ _ _ found opened same => exact h.exit numbered registered outcome found opened same
  | filtered | anomaly | stray | missing | untrackedEnter | untrackedStray | untrackedAnomaly
  | leaf => exact silent (fun _ eq => by cases eq) fun _ eq => by cases eq

theorem completion (h : Lineage filter past ts e) {thread : ThreadId} {offset : Int}
    {c : Completion} {d : Disposition} {t : ThreadState} (known : (ts thread).thread = thread)
    (step : Engine.DrainStep e (ts thread) offset c d t e') :
    Lineage filter (past ++ [.completion thread c d]) (Function.update ts thread t) e' := by
  have history := answers_append_completion past thread c d
  refine h.quiet ((kept_numbered filter).completion h.numbered known step)
    (h.registered.completion step) (congrArg _ history) (congrArg _ history) ?_
    fun other call held => step.calls_update other ▸ held
  cases d with
  | emitted orphan =>
    rw [launchIdentities_emitted]
    refine List.append_subset.mpr ⟨h.launched, fun i new => ?_⟩
    obtain ⟨record, left, rfl⟩ := Option.map_eq_some_iff.mp (Option.mem_toList.mp new)
    exact mem_enteredIdentities_of_registered left
  | unsupported | filtered | anomaly =>
    rw [launchIdentities_silent filter past thread c fun _ eq => by cases eq]
    exact h.launched

end Lineage

theorem kept_lineage (filter : NameFilter) : Kept (Lineage filter) where
  background h quiet :=
    h.quiet ((kept_numbered filter).background h.numbered quiet) (h.registered.background quiet)
      rfl rfl h.launched fun _ _ held => held
  host h known step := h.host (a := ⟨_, _, _, _⟩) known step
  completion h known step := h.completion known step

theorem Fresh.lineage {s : Settings} {r : Replay} (fresh : r.Fresh s) :
    Lineage r.session.engine.callFilter [] r.threadState r.session.engine := by
  refine ⟨fresh.numbered, fresh.registered, List.forall_mem_nil _, List.nil_subset _,
    List.nil_subset _, List.nodup_nil, fun thread call held => ?_⟩
  rw [fresh.threadState] at held
  exact absurd held List.not_mem_nil

end Replay

end SpanWeave
