import Mathlib.Data.List.Forall2
import SpanWeave.Proofs.Replay.Nesting
import SpanWeave.Proofs.Thread.Stack

set_option autoImplicit false

/-!
# Innermost calls

Where every thread nests its calls well, an exit ends the innermost open call of its own thread,
whatever record it finds under its id: its own, one of another thread, or none. Depths and parents
are then those of the nesting.
-/
namespace SpanWeave

def Answer.span? (a : Answer) : Option SpanId :=
  match a.outcome with
  | .entered identity => some identity.span
  | _ => none

theorem Answer.Opens.span? {a : Answer} {thread : ThreadId} {call : OpenCall}
    (h : a.Opens thread call) : a.span? = some call.identity.span := by
  unfold Answer.span?
  rw [h.outcome]

theorem Answer.Opens.unique {a : Answer} {thread : ThreadId} {call other : OpenCall}
    (h : a.Opens thread call) (k : a.Opens thread other) : call = other := by
  cases call with
  | mk identity beganAt =>
    cases other with
    | mk identity' beganAt' =>
      have same := Outcome.entered.inj (h.outcome.symm.trans k.outcome)
      have time := h.time.symm.trans k.time
      simp only at same time
      rw [same, time]

namespace Replay

def AllChained (_ : List Happening) (ts : ThreadId → ThreadState) (_ : Engine) : Prop :=
  ∀ thread, Chained (ts thread).calls

theorem kept_chained : Kept AllChained where
  background h _ := h
  host {past ts e thread now c outcome t e'} h known step := by
    intro other
    by_cases same : other = thread
    · rw [same, Function.update_self]
      by_cases entered : ∃ identity, outcome = .entered identity
      · obtain ⟨identity, rfl⟩ := entered
        cases step with
        | entered =>
          rw [ThreadState.calls_push]
          obtain ⟨depth, parent⟩ := (h thread).nextIdentity e.ids
          exact ⟨depth, parent, h thread⟩
      · exact (h thread).of_suffix (step.calls_suffix fun identity eq => entered ⟨identity, eq⟩)
    · rw [Function.update_of_ne same]
      exact h other
  completion {past ts e thread offset c d t e'} h known step := by
    intro other
    rw [step.calls_update]
    exact h other

structure Nested (filter : NameFilter) (past : List Happening) (ts : ThreadId → ThreadState) :
    Prop where
  /-- The open calls of every thread are its enters that were not left. -/
  opened : ∀ thread, List.Forall₂ (fun call a => a.Opens thread call) (ts thread).calls
    (Nesting.on filter thread (answers past)).opened
  enters : ∀ before a, before ++ [a] <+: answers past → a.isTraced filter = true →
    a.call.phase = .enter → ∃ identity, a.outcome = .entered identity ∧
      identity.depth = min (Nesting.on filter a.thread before).opened.length 65535 ∧
      identity.parent = (Nesting.on filter a.thread before).opened.head?.bind (·.span?)
  /-- What an exit reports to have ended is the innermost call. -/
  exits : ∀ before a, before ++ [a] <+: answers past → a.isTraced filter = true →
    a.call.phase = .exit → ∃ top rest, (Nesting.on filter a.thread before).opened = top :: rest ∧
      top.call.name = a.call.name ∧ top.call.correlation = a.call.correlation ∧
      ∀ identity, a.outcome = .exited identity → top.outcome = .entered identity

namespace Nested
variable {filter : NameFilter} {past : List Happening} {ts : ThreadId → ThreadState}
  {e e' : Engine}

theorem head?_opened {thread : ThreadId} {calls : List OpenCall} {opened : List Answer}
    (h : List.Forall₂ (fun call a => Answer.Opens a thread call) calls opened) :
    calls.head?.map (·.identity.span) = opened.head?.bind (·.span?) := by
  cases h with
  | nil => rfl
  | cons opens => exact opens.span?.symm

/-- The registered call that an exit finds held on its thread is the innermost one. -/
theorem found (h : Nested filter past ts) (numbered : Numbered filter past ts e)
    (registered : Registered filter past e) (nests : Nests filter (answers past))
    {thread : ThreadId} {id : CorrelationId} {top : Answer} {rest : List Answer}
    (opened : (Nesting.on filter thread (answers past)).opened = top :: rest)
    (same_id : top.call.correlation = id) {identity : Identity} {inner outer : List OpenCall}
    {call : OpenCall} (known : e.registry.identities[id]? = some identity)
    (held : (ts thread).calls = inner ++ call :: outer)
    (same : call.identity.span = identity.span)
    (others : ∀ k ∈ inner, k.identity.span ≠ identity.span) :
    inner = [] ∧ call.identity = identity := by
  rw [(registered.holds id).2] at known
  obtain ⟨record, left, rfl⟩ := Option.map_eq_some_iff.mp known
  obtain ⟨b, last, record_eq⟩ := Option.bind_eq_some_iff.mp left
  obtain ⟨member, _, _⟩ := lastCall?_eq_some last
  have outcome := Answer.outcome_of_record? record_eq
  have mine : call ∈ (ts thread).calls := by
    rw [held]
    exact List.mem_append_right _ List.mem_cons_self
  obtain ⟨b', member', opens'⟩ := numbered.opened thread call mine
  have same_answer : b' = b :=
    numbered.unique member' member (same ▸ opens'.numbers) ⟨_, outcome, rfl⟩
  subst same_answer
  have enter := ((numbered.fits b' member).entered.mp ⟨_, outcome⟩).2
  have innermost := nests.innermost last enter
  rw [opens'.thread, opened, List.find?_cons, same_id, beq_self_eq_true] at innermost
  cases innermost
  have identity_eq := Outcome.entered.inj (opens'.outcome.symm.trans outcome)
  refine ⟨?_, identity_eq⟩
  cases inner with
  | nil => rfl
  | cons k inner =>
    -- the innermost call was opened by the same enter, so it has the identity too
    have stack := h.opened thread
    rw [opened, held] at stack
    cases stack with
    | cons first =>
      refine absurd ?_ (others k List.mem_cons_self)
      rw [first.unique opens', same]

/-- An exit ends the innermost call of its thread, whatever it finds under its id. -/
theorem closes (h : Nested filter past ts) (numbered : Numbered filter past ts e)
    (registered : Registered filter past e) {a : Answer} {t : ThreadState}
    (nests : Nests filter (answers past ++ [a])) (traced : a.isTraced filter = true)
    (exit : a.call.phase = .exit)
    (step : Engine.HostStep e (ts a.thread) a.call a.time a.outcome t e') :
    ∃ top rest call, (Nesting.on filter a.thread (answers past)).opened = top :: rest ∧
      top.call.name = a.call.name ∧ top.call.correlation = a.call.correlation ∧
      top.Opens a.thread call ∧ (ts a.thread).calls = call :: t.calls ∧
      List.Forall₂ (fun call a' => a'.Opens a.thread call) t.calls rest ∧
      ∀ identity, a.outcome = .exited identity → call.identity = identity := by
  obtain ⟨top, rest, opened, name, id⟩ := nests (answers past) a (List.prefix_refl _) traced exit
  have stack := h.opened a.thread
  rw [opened] at stack
  obtain ⟨first, outer, opens, below, calls⟩ := List.forall₂_cons_right_iff.mp stack
  obtain ⟨domain, passes⟩ := Answer.isTraced_iff.mp traced
  have found : ∀ {identity : Identity} {inner outer' : List OpenCall} {call : OpenCall},
      e.registry.identities[a.call.correlation]? = some identity →
      (ts a.thread).calls = inner ++ call :: outer' → call.identity.span = identity.span →
      (∀ k ∈ inner, k.identity.span ≠ identity.span) →
      outer' = outer ∧ first.identity = identity := by
    intro identity inner outer' call known held same others
    obtain ⟨rfl, eq⟩ := h.found numbered registered (nests.of_prefix (List.prefix_append _ _))
      opened id known held same others
    obtain ⟨rfl, rfl⟩ := List.cons.inj (held.symm.trans calls)
    exact ⟨rfl, eq⟩
  refine ⟨top, rest, first, opened, name, id, opens, ?_⟩
  generalize a.outcome = outcome at step ⊢
  cases step with
  | filtered rejected =>
    rw [numbered.callFilter, passes] at rejected
    cases rejected
  | entered _ _ phase => exact absurd (phase.symm.trans exit) (by decide)
  | exited _ _ _ _ known held same others =>
    obtain ⟨rfl, identity_eq⟩ := found known held same others
    exact ⟨calls, below, fun _ eq => by cases eq; exact identity_eq⟩
  | anomaly _ _ _ _ known held same others =>
    obtain ⟨rfl, _⟩ := found known held same others
    exact ⟨calls, below, fun _ eq => by cases eq⟩
  | stray _ _ _ _ empty =>
    rw [calls] at empty
    cases empty
  | missing _ _ _ _ held =>
    rw [calls] at held
    cases held
    exact ⟨calls, below, fun _ eq => by cases eq⟩
  | untrackedEnter _ other | untrackedStray _ other | untrackedAnomaly _ other | leaf _ other =>
    exact absurd (other.symm.trans domain) (by decide)

theorem move (h : Nested filter past ts) {a : Answer} {t : ThreadState}
    (here : List.Forall₂ (fun call b => Answer.Opens b a.thread call) t.calls
      (Nesting.on filter a.thread (answers past ++ [a])).opened)
    (enter : a.isTraced filter = true → a.call.phase = .enter →
      ∃ identity, a.outcome = .entered identity ∧
        identity.depth = min (Nesting.on filter a.thread (answers past)).opened.length 65535 ∧
        identity.parent =
          (Nesting.on filter a.thread (answers past)).opened.head?.bind (·.span?))
    (exit : a.isTraced filter = true → a.call.phase = .exit →
      ∃ top rest, (Nesting.on filter a.thread (answers past)).opened = top :: rest ∧
        top.call.name = a.call.name ∧ top.call.correlation = a.call.correlation ∧
        ∀ identity, a.outcome = .exited identity → top.outcome = .entered identity) :
    Nested filter (past ++ [.call a]) (Function.update ts a.thread t) := by
  have history : answers (past ++ [.call a]) = answers past ++ [a] := answers_append _ _
  refine ⟨fun thread => ?_, fun before b upTo => ?_, fun before b upTo => ?_⟩
  · rw [history]
    by_cases same : thread = a.thread
    · rw [same, Function.update_self]
      exact here
    · rw [Function.update_of_ne same, Nesting.on_append, if_neg fun both => same both.1.symm]
      exact h.opened thread
  · rw [history, List.prefix_concat_iff] at upTo
    rcases upTo with now | earlier
    · obtain ⟨rfl, last⟩ := List.append_inj' now rfl
      cases last
      exact enter
    · exact h.enters before b earlier
  · rw [history, List.prefix_concat_iff] at upTo
    rcases upTo with now | earlier
    · obtain ⟨rfl, last⟩ := List.append_inj' now rfl
      cases last
      exact exit
    · exact h.exits before b earlier

theorem skip (h : Nested filter past ts) (callFilter : e.callFilter = filter) {a : Answer}
    {t : ThreadState} (traced : ¬ a.isTraced filter = true)
    (step : Engine.HostStep e (ts a.thread) a.call a.time a.outcome t e') :
    Nested filter (past ++ [.call a]) (Function.update ts a.thread t) := by
  refine h.move ?_ (fun yes => absurd yes traced) (fun yes => absurd yes traced)
  rw [step.calls_of_not_traced callFilter traced, Nesting.on_append,
    if_neg fun both => traced both.2]
  exact h.opened a.thread

theorem enter (h : Nested filter past ts) (callFilter : e.callFilter = filter) {a : Answer}
    {t : ThreadState} (chained : Chained (ts a.thread).calls) (traced : a.isTraced filter = true)
    (phase : a.call.phase = .enter)
    (step : Engine.HostStep e (ts a.thread) a.call a.time a.outcome t e') :
    Nested filter (past ++ [.call a]) (Function.update ts a.thread t) := by
  obtain ⟨domain, passes⟩ := Answer.isTraced_iff.mp traced
  obtain ⟨outcome, rfl⟩ := step.enter_eq domain (callFilter ▸ passes) phase
  obtain ⟨depth, parent⟩ := chained.nextIdentity e.ids
  have stack := h.opened a.thread
  refine h.move ?_ (fun _ _ => ⟨_, outcome, ?_, ?_⟩) (fun _ exit => ?_)
  · rw [Nesting.on_append, if_pos ⟨rfl, traced⟩, Nesting.add_enter phase, ThreadState.calls_push]
    exact .cons ⟨rfl, rfl, outcome⟩ stack
  · rw [depth, stack.length_eq]
    rfl
  · rw [parent, head?_opened stack]
  · exact absurd (phase.symm.trans exit) (by decide)

theorem exit (h : Nested filter past ts) (numbered : Numbered filter past ts e)
    (registered : Registered filter past e) {a : Answer} {t : ThreadState}
    (nests : Nests filter (answers past ++ [a])) (traced : a.isTraced filter = true)
    (phase : a.call.phase = .exit)
    (step : Engine.HostStep e (ts a.thread) a.call a.time a.outcome t e') :
    Nested filter (past ++ [.call a]) (Function.update ts a.thread t) := by
  obtain ⟨top, rest, call, opened, name, id, opens, _, below, exited⟩ :=
    h.closes numbered registered nests traced phase step
  refine h.move ?_ (fun _ enter => ?_)
    (fun _ _ => ⟨top, rest, opened, name, id, fun identity eq => ?_⟩)
  · rw [Nesting.on_append, if_pos ⟨rfl, traced⟩, Nesting.add_exit phase opened]
    exact below
  · exact absurd (phase.symm.trans enter) (by decide)
  · rw [← exited identity eq]
    exact opens.outcome

theorem host (h : Nested filter past ts) (numbered : Numbered filter past ts e)
    (registered : Registered filter past e) {a : Answer} {t : ThreadState}
    (chained : Chained (ts a.thread).calls) (nests : Nests filter (answers past ++ [a]))
    (step : Engine.HostStep e (ts a.thread) a.call a.time a.outcome t e') :
    Nested filter (past ++ [.call a]) (Function.update ts a.thread t) := by
  by_cases traced : a.isTraced filter = true
  · cases phase : a.call.phase with
    | enter => exact h.enter numbered.callFilter chained traced phase step
    | exit => exact h.exit numbered registered nests traced phase step
  · exact h.skip numbered.callFilter traced step

theorem keep (h : Nested filter past ts) {past' : List Happening} {ts' : ThreadId → ThreadState}
    (history : answers past' = answers past)
    (calls : ∀ thread, (ts' thread).calls = (ts thread).calls) : Nested filter past' ts' := by
  refine ⟨fun thread => ?_, ?_, ?_⟩
  · rw [history, calls]
    exact h.opened thread
  · rw [history]
    exact h.enters
  · rw [history]
    exact h.exits

end Nested

structure Bracketed (filter : NameFilter) (past : List Happening) (ts : ThreadId → ThreadState)
    (e : Engine) : Prop where
  numbered : Numbered filter past ts e
  registered : Registered filter past e
  chained : AllChained past ts e
  nested : Nests filter (answers past) → Nested filter past ts

theorem kept_bracketed (filter : NameFilter) : Kept (Bracketed filter) where
  background {past ts e e'} h quiet :=
    ⟨(kept_numbered filter).background h.numbered quiet, h.registered.background quiet,
      h.chained, h.nested⟩
  host {past ts e thread now c outcome t e'} h known step := by
    refine ⟨(kept_numbered filter).host h.numbered known step, h.registered.host known step,
      kept_chained.host h.chained known step, fun nests => ?_⟩
    rw [answers_append, answers_call] at nests
    exact (h.nested (nests.of_prefix (List.prefix_append _ _))).host
      (a := ⟨thread, now, c, outcome⟩) h.numbered h.registered (h.chained thread) nests step
  completion {past ts e thread offset c d t e'} h known step := by
    refine ⟨(kept_numbered filter).completion h.numbered known step, h.registered.completion step,
      kept_chained.completion h.chained known step, fun nests => ?_⟩
    have history := answers_append_completion past thread c d
    rw [history] at nests
    exact (h.nested nests).keep history step.calls_update

theorem Unused.bracketed {r : Replay} (unused : r.Unused) :
    Bracketed r.session.engine.callFilter [] r.threadState r.session.engine := by
  refine ⟨unused.numbered, unused.registered, fun thread => ?_,
    fun _ => ⟨fun thread => ?_, fun before a upTo => ?_, fun before a upTo => ?_⟩⟩
  · rw [unused.idle]
    trivial
  · rw [unused.idle]
    exact .nil
  · exact absurd (List.append_eq_nil_iff.mp (List.prefix_nil.mp upTo)).2 (List.cons_ne_nil a [])
  · exact absurd (List.append_eq_nil_iff.mp (List.prefix_nil.mp upTo)).2 (List.cons_ne_nil a [])

theorem Fresh.bracketed {s : Settings} {r : Replay} (fresh : r.Fresh s) :
    Bracketed r.session.engine.callFilter [] r.threadState r.session.engine :=
  fresh.unused.bracketed

/-- In a run over well-nested events an exit that passes ends the innermost open call of its
thread, and no call of another thread. -/
theorem Fresh.closes {s : Settings} {r : Replay} (fresh : r.Fresh s)
    {before : List RecordedEvent} {thread : ThreadId} {time : UInt64} {c : HostCall}
    (wellNested : WellNested (before ++ [.call thread time c])) (domain : c.domain = .correlated)
    (passes : r.session.engine.callFilter.accepts c.name = true) (exit : c.phase = .exit) :
    let after := r.all (before ++ [.call thread time c])
    (∃ call, ((r.all before).threadState thread).calls = call :: (after.threadState thread).calls) ∧
      ∀ other, other ≠ thread →
        (after.threadState other).calls = ((r.all before).threadState other).calls := by
  intro after
  obtain ⟨bracketed, running⟩ := (kept_bracketed r.session.engine.callFilter).all fresh.running
    fresh.bracketed before
  obtain ⟨applied, happened⟩ := apply_call running.active thread time c
  obtain ⟨step, _⟩ := Engine.onCall_step running.ready ((r.all before).threadState thread) c
    time.toNat
  have known := step.thread_eq.trans (running.thread thread)
  have nests := (wellNested.nests r).filtered r.session.engine.callFilter
  rw [history_append, history, history, List.append_nil, happened, answers_append,
    answers_call] at nests
  have threads : after.threadState = Function.update (r.all before).threadState thread
      ((r.all before).session.engine.onCall ((r.all before).threadState thread) c
        time.toNat).2.1 := by
    have last : after = (r.all before).apply (.call thread time c) := by
      change r.all (before ++ [.call thread time c]) = _
      rw [all_append]
      rfl
    rw [last, applied]
    exact threadState_moved _ known _ _
  have traced : Answer.isTraced r.session.engine.callFilter ⟨thread, time.toNat, c,
      ((r.all before).session.engine.onCall ((r.all before).threadState thread) c
        time.toNat).1⟩ = true := Answer.isTraced_iff.mpr ⟨domain, passes⟩
  obtain ⟨_, _, call, _, _, _, _, calls, _⟩ := (bracketed.nested (nests.of_prefix
    (List.prefix_append _ _))).closes bracketed.numbered bracketed.registered nests traced exit step
  refine ⟨⟨call, ?_⟩, fun other different => ?_⟩
  · rw [threads, Function.update_self]
    exact calls
  · rw [threads, Function.update_of_ne different]

end Replay

end SpanWeave
