import Mathlib.Data.List.Induction
import SpanWeave.Proofs.Replay.Registered

set_option autoImplicit false

/-!
# Nesting

Which call of a thread an exit ends when the calls of every thread are well nested: the innermost
one that was not left yet. The filter goes by names, and an exit has the name of its enter, so the
calls that it lets pass are well nested too.
-/
namespace SpanWeave

/-- The stack of open calls after one more call; an exit has to end the innermost one. -/
def HostCall.nest (opened : List HostCall) (c : HostCall) : Option (List HostCall) :=
  match c.phase, opened with
  | .enter, opened => some (c :: opened)
  | .exit, top :: rest =>
    if top.name = c.name ∧ top.correlation = c.correlation then some rest else none
  | .exit, [] => none

def callsOn (thread : ThreadId) (events : List RecordedEvent) : List HostCall :=
  events.filterMap fun
    | .call t _ c => if t = thread ∧ c.domain = .correlated then some c else none
    | .batch _ _ | .untracked _ _ => none

/-- Every exit has the name and the id of the innermost enter of its thread that was not left. -/
def WellNested (events : List RecordedEvent) : Prop :=
  ∀ thread, ((callsOn thread events).foldlM HostCall.nest []).isSome

theorem WellNested.of_prefix {events before : List RecordedEvent} (h : WellNested events)
    (earlier : before <+: events) : WellNested before := by
  intro thread
  obtain ⟨after, rfl⟩ := earlier
  have nested := h thread
  rw [callsOn, List.filterMap_append, List.foldlM_append] at nested
  obtain ⟨final, nested⟩ := Option.isSome_iff_exists.mp nested
  obtain ⟨stack, upTo, _⟩ := Option.bind_eq_some_iff.mp nested
  exact Option.isSome_iff_exists.mpr ⟨stack, upTo⟩

/-- The enters of a thread that were not left yet, innermost first, and those that were with their
exits, in the order of the exits. -/
structure Nesting where
  opened : List Answer := []
  closed : List (Answer × Answer) := []

namespace Nesting

def add (n : Nesting) (a : Answer) : Nesting :=
  match a.call.phase, n.opened with
  | .enter, opened => { n with opened := a :: opened }
  | .exit, top :: rest => { opened := rest, closed := n.closed ++ [(top, a)] }
  | .exit, [] => n

def on (filter : NameFilter) (thread : ThreadId) (past : List Answer) : Nesting :=
  (past.filter fun a => a.thread == thread && a.isTraced filter).foldl add {}

theorem on_append (filter : NameFilter) (thread : ThreadId) (past : List Answer) (a : Answer) :
    on filter thread (past ++ [a]) =
      if a.thread = thread ∧ a.isTraced filter = true then (on filter thread past).add a
      else on filter thread past := by
  unfold on
  rw [List.filter_append, List.foldl_append, List.filter_cons, List.filter_nil]
  by_cases here : a.thread = thread ∧ a.isTraced filter = true
  · rw [if_pos here, here.1, here.2, beq_self_eq_true]
    rfl
  · have skipped : (a.thread == thread && a.isTraced filter) = false := by
      rw [← Bool.not_eq_true, Bool.and_eq_true, beq_iff_eq]
      exact here
    rw [if_neg here, skipped]
    rfl

theorem add_enter {a : Answer} (phase : a.call.phase = .enter) (n : Nesting) :
    n.add a = { n with opened := a :: n.opened } := by
  unfold add
  rw [phase]

theorem add_exit {a : Answer} (phase : a.call.phase = .exit) {n : Nesting} {top : Answer}
    {rest : List Answer} (opened : n.opened = top :: rest) :
    n.add a = { opened := rest, closed := n.closed ++ [(top, a)] } := by
  unfold add
  rw [phase, opened]

theorem mem_of_mem_opened {filter : NameFilter} {thread : ThreadId} {past : List Answer}
    {a : Answer} (h : a ∈ (on filter thread past).opened) : a ∈ past := by
  induction past using List.reverseRecOn with
  | nil => exact absurd h List.not_mem_nil
  | append_singleton past b ih =>
    rw [on_append] at h
    split at h
    · cases phase : b.call.phase with
      | enter =>
        rw [add_enter phase] at h
        rcases List.mem_cons.mp h with rfl | old
        · exact List.mem_append_right _ (List.mem_singleton_self a)
        · exact List.mem_append_left _ (ih old)
      | exit =>
        refine List.mem_append_left _ (ih ?_)
        cases opened : (on filter thread past).opened with
        | nil =>
          simp only [add, phase, opened, List.not_mem_nil] at h
        | cons top rest =>
          rw [add_exit phase opened] at h
          exact List.mem_cons_of_mem top h
    · exact List.mem_append_left _ (ih h)

theorem opened_add {n : Nesting} {a : Answer} {stack : List HostCall}
    (h : HostCall.nest (n.opened.map (·.call)) a.call = some stack) :
    (n.add a).opened.map (·.call) = stack := by
  cases phase : a.call.phase with
  | enter =>
    rw [add_enter phase]
    simp only [HostCall.nest, phase] at h
    exact Option.some.inj h
  | exit =>
    cases opened : n.opened with
    | nil =>
      rw [opened] at h
      simp only [List.map_nil, HostCall.nest, phase] at h
      cases h
    | cons top rest =>
      rw [add_exit phase opened]
      rw [opened] at h
      simp only [List.map_cons, HostCall.nest, phase] at h
      split at h
      · exact Option.some.inj h
      · cases h

theorem opened_foldl {n : Nesting} {past : List Answer} {stack : List HostCall}
    (h : (past.map (·.call)).foldlM HostCall.nest (n.opened.map (·.call)) = some stack) :
    (past.foldl add n).opened.map (·.call) = stack := by
  induction past generalizing n with
  | nil => exact Option.some.inj h
  | cons a past ih =>
    rw [List.map_cons, List.foldlM_cons] at h
    obtain ⟨next, now, later⟩ := Option.bind_eq_some_iff.mp h
    rw [← opened_add now] at later
    exact ih later

end Nesting

def Nests (filter : NameFilter) (past : List Answer) : Prop :=
  ∀ before a, before ++ [a] <+: past → a.isTraced filter = true → a.call.phase = .exit →
    ∃ top rest, (Nesting.on filter a.thread before).opened = top :: rest ∧
      top.call.name = a.call.name ∧ top.call.correlation = a.call.correlation

theorem Nests.of_prefix {filter : NameFilter} {past past' : List Answer} (h : Nests filter past)
    (earlier : past' <+: past) : Nests filter past' :=
  fun before a upTo => h before a (upTo.trans earlier)

/-- What is open among the calls that pass is open among all calls. -/
theorem Nests.opened_eq {past : List Answer} (h : Nests .all past) (filter : NameFilter)
    (thread : ThreadId) : (Nesting.on filter thread past).opened =
      (Nesting.on .all thread past).opened.filter fun a => filter.accepts a.call.name := by
  induction past using List.reverseRecOn with
  | nil => rfl
  | append_singleton past a ih =>
    have ih := ih (h.of_prefix (List.prefix_append past [a]))
    by_cases here : a.thread = thread ∧ a.isTraced .all = true
    · obtain ⟨rfl, traced⟩ := here
      have domain := (Answer.isTraced_iff.mp traced).1
      have iff : a.isTraced filter = true ↔ filter.accepts a.call.name = true :=
        ⟨fun t => (Answer.isTraced_iff.mp t).2, fun t => Answer.isTraced_iff.mpr ⟨domain, t⟩⟩
      rw [Nesting.on_append .all, if_pos ⟨rfl, traced⟩, Nesting.on_append filter]
      cases phase : a.call.phase with
      | enter =>
        rw [Nesting.add_enter phase, Nesting.add_enter phase, List.filter_cons]
        by_cases passes : filter.accepts a.call.name = true
        · rw [if_pos ⟨rfl, iff.mpr passes⟩, if_pos passes, ih]
        · rw [if_neg fun both => passes (iff.mp both.2), if_neg passes, ih]
      | exit =>
        obtain ⟨top, rest, opened, name, _⟩ := h past a (List.prefix_refl _) traced phase
        rw [Nesting.add_exit phase opened]
        rw [opened, List.filter_cons, name] at ih
        by_cases passes : filter.accepts a.call.name = true
        · rw [if_pos passes] at ih
          rw [if_pos ⟨rfl, iff.mpr passes⟩, Nesting.add_exit phase ih]
        · rw [if_neg passes] at ih
          rw [if_neg fun both => passes (iff.mp both.2), ih]
    · have elsewhere : ¬ (a.thread = thread ∧ a.isTraced filter = true) := fun ⟨same, traced⟩ =>
        here ⟨same, Answer.isTraced_iff.mpr
          ⟨(Answer.isTraced_iff.mp traced).1, NameFilter.accepts_all _⟩⟩
      rw [Nesting.on_append, if_neg elsewhere, Nesting.on_append, if_neg here, ih]

/-- Rejecting names leaves calls well nested. -/
theorem Nests.filtered {past : List Answer} (h : Nests .all past) (filter : NameFilter) :
    Nests filter past := by
  intro before a upTo traced exit
  obtain ⟨domain, passes⟩ := Answer.isTraced_iff.mp traced
  obtain ⟨top, rest, opened, name, id⟩ := h before a upTo
    (Answer.isTraced_iff.mpr ⟨domain, NameFilter.accepts_all _⟩) exit
  have earlier :=
    (h.of_prefix ((List.prefix_append before [a]).trans upTo)).opened_eq filter a.thread
  rw [opened, List.filter_cons, name, if_pos passes] at earlier
  exact ⟨top, _, earlier, name, id⟩

/-- The last call with an id, if it is an enter, is the innermost open call with the id on its
thread: what other threads do with the id cannot bring an outer call back. -/
theorem Nests.innermost {filter : NameFilter} {past : List Answer} (h : Nests filter past)
    {id : CorrelationId} {a : Answer} (last : lastCall? filter id past = some a)
    (enter : a.call.phase = .enter) :
    (Nesting.on filter a.thread past).opened.find? (·.call.correlation == id) = some a := by
  induction past using List.reverseRecOn with
  | nil => cases last
  | append_singleton past b ih =>
    have ih := ih (h.of_prefix (List.prefix_append past [b]))
    rw [lastCall?_append] at last
    rw [Nesting.on_append]
    by_cases now : b.isTraced filter = true ∧ b.call.correlation = id
    · rw [if_pos now] at last
      cases last
      rw [if_pos ⟨rfl, now.1⟩, Nesting.add_enter enter, List.find?_cons, now.2, beq_self_eq_true]
    · rw [if_neg now] at last
      have ih := ih last
      by_cases here : b.thread = a.thread ∧ b.isTraced filter = true
      · have other : (b.call.correlation == id) = false :=
          beq_eq_false_iff_ne.mpr fun same => now ⟨here.2, same⟩
        rw [if_pos here]
        cases phase : b.call.phase with
        | enter => rw [Nesting.add_enter phase, List.find?_cons, other, ih]
        | exit =>
          -- what is closed has another id, so closing it does not hide the call
          obtain ⟨top, rest, opened, _, same⟩ := h past b (List.prefix_refl _) here.2 phase
          rw [here.1] at opened
          rw [opened, List.find?_cons, same, other] at ih
          rw [Nesting.add_exit phase opened]
          exact ih
      · rw [if_neg here]
        exact ih

namespace Replay

theorem answers_completions (offset : Int) (cs : List Completion) (t : ThreadState) (e : Engine) :
    answers (e.completions offset cs t) = [] := by
  induction cs generalizing t e with
  | nil => rfl
  | cons c cs ih => exact ih _ _

theorem answers_batch (r : Replay) (thread : ThreadId) (cs : List Completion) :
    answers (r.happenings (.batch thread cs)) = [] := by
  simp only [happenings]
  split
  · exact answers_completions _ _ _ _
  · rfl

theorem callsOn_eq (r : Replay) (thread : ThreadId) (events : List RecordedEvent) :
    callsOn thread events = ((answers (r.history events)).filter fun a =>
      a.thread == thread && a.isTraced .all).map (·.call) := by
  induction events generalizing r with
  | nil => rfl
  | cons event events ih =>
    rw [history, answers_append, List.filter_append, List.map_append, ← ih, callsOn,
      List.filterMap_cons]
    cases event with
    | call t time c =>
      have traced : ∀ outcome, (t == thread && Answer.isTraced .all ⟨t, time.toNat, c, outcome⟩) =
          decide (t = thread ∧ c.domain = .correlated) := by
        intro outcome
        rw [Answer.isTraced, NameFilter.accepts_all, Bool.and_true, Bool.decide_and]
        rfl
      rw [happenings, answers_call, List.filter_cons, traced]
      by_cases here : t = thread ∧ c.domain = .correlated
      · simp only [here, and_self, ↓reduceIte, decide_true, List.filter_nil, List.map_cons,
          List.map_nil, List.singleton_append]
        rfl
      · simp only [here, ↓reduceIte, decide_false, Bool.false_eq_true, List.filter_nil,
          List.map_nil, List.nil_append]
        rfl
    | batch t cs =>
      rw [answers_batch]
      rfl
    | untracked t cs => rfl

end Replay

/-- In a run over well-nested events every exit has the name and the id of the innermost call. -/
theorem WellNested.nests {events : List RecordedEvent} (h : WellNested events) (r : Replay) :
    Nests .all (answers (r.history events)) := by
  intro before a ⟨after, eq⟩ traced exit
  have nested := h a.thread
  rw [Replay.callsOn_eq r, ← eq, List.filter_append, List.filter_append, List.filter_cons,
    if_pos (by rw [beq_self_eq_true, traced]; rfl), List.filter_nil, List.map_append,
    List.map_append, List.foldlM_append, List.foldlM_append] at nested
  obtain ⟨final, nested⟩ := Option.isSome_iff_exists.mp nested
  obtain ⟨next, upTo, _⟩ := Option.bind_eq_some_iff.mp nested
  obtain ⟨stack, earlier, now⟩ := Option.bind_eq_some_iff.mp upTo
  have opened : (Nesting.on .all a.thread before).opened.map (·.call) = stack :=
    Nesting.opened_foldl earlier
  rw [List.map_cons, List.map_nil, List.foldlM_cons, ← opened] at now
  obtain ⟨_, now, _⟩ := Option.bind_eq_some_iff.mp now
  cases stack : (Nesting.on .all a.thread before).opened with
  | nil =>
    rw [stack] at now
    simp only [List.map_nil, HostCall.nest, exit] at now
    cases now
  | cons top rest =>
    rw [stack] at now
    simp only [List.map_cons, HostCall.nest, exit] at now
    split at now
    · rename_i same
      exact ⟨top, rest, rfl, same⟩
    · cases now

end SpanWeave
