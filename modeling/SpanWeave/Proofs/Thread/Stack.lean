import Mathlib.Data.List.Basic
import Mathlib.Logic.Function.Basic
import SpanWeave.Proofs.Lists
import SpanWeave.Thread.State

set_option autoImplicit false

/-!
# Call stacks

The calls that any number of threads have open, while identities are drawn from one source for all
of them. Calls are entered and left in any order, also without regard to the nesting, and some
identities are drawn for no call. All the same every call is one level below the one that was
entered before it and is still open, and no span id is drawn twice.
-/
namespace SpanWeave

def Chained : List OpenCall → Prop
  | [] => True
  | call :: calls => call.identity.depth = min calls.length depthLimit ∧
      call.identity.parent = calls.head?.map (·.identity.span) ∧ Chained calls

theorem Chained.of_suffix {calls outer : List OpenCall} (h : Chained calls)
    (suffix : outer <:+ calls) : Chained outer := by
  induction calls with
  | nil => rw [List.suffix_nil.mp suffix]; trivial
  | cons call calls ih =>
    rcases List.suffix_cons_iff.mp suffix with rfl | below
    · exact h
    · exact ih h.2.2 below

theorem Chained.nextIdentity {t : ThreadState} (h : Chained t.calls) (ids : SpanIds) :
    (t.nextIdentity ids).1.depth = min t.calls.length depthLimit ∧
      (t.nextIdentity ids).1.parent = t.calls.head?.map (·.identity.span) := by
  refine ⟨?_, ?_⟩
  · cases calls : t.calls with
    | nil =>
      have none : t.current? = none := by rw [ThreadState.current?, calls]; rfl
      simp only [ThreadState.nextIdentity, none]
      rfl
    | cons call outer =>
      rw [calls] at h
      have some : t.current? = some call.identity := by rw [ThreadState.current?, calls]; rfl
      simp only [ThreadState.nextIdentity, some]
      change deeper call.identity.depth = min (outer.length + 1) depthLimit
      rw [h.1, deeper]
      omega
  · rw [ThreadState.parent_nextIdentity, ThreadState.current?, Option.map_map]
    rfl

theorem ThreadState.pop?_of_split {t : ThreadState} {inner calls : List OpenCall} {call : OpenCall}
    {span : SpanId} (opened : t.calls = inner ++ call :: calls) (same : call.identity.span = span)
    (others : ∀ k ∈ inner, k.identity.span ≠ span) :
    t.pop? span = some (call, { t with calls }) := by
  have dropped : t.calls.dropWhile (·.identity.span != span) = call :: calls := by
    rw [opened, List.dropWhile_append_of_pos fun k member => bne_iff_ne.mpr (others k member),
      List.dropWhile_cons_of_neg]
    rw [same]
    simp
  unfold pop?
  rw [dropped]

/-! ## Outermost first -/

structure Stacked (stack : List OpenCall) : Prop where
  depth : ∀ (i : Nat) (call : OpenCall), stack[i]? = some call → call.identity.depth = min i 65535
  outermost : ∀ call, stack[0]? = some call → call.identity.parent = none
  parent : ∀ (i : Nat) (outer call : OpenCall), stack[i]? = some outer →
    stack[i + 1]? = some call → call.identity.parent = some outer.identity.span
  ascending : stack.Pairwise fun outer inner => outer.identity.span < inner.identity.span

theorem Stacked.concat {stack : List OpenCall} (h : Stacked stack) {call : OpenCall}
    (depth : call.identity.depth = min stack.length depthLimit)
    (parent : call.identity.parent = stack.getLast?.map (·.identity.span))
    (greater : ∀ outer ∈ stack, outer.identity.span < call.identity.span) :
    Stacked (stack ++ [call]) where
  depth i other here := by
    rcases getElem?_concat_eq_some.mp here with before | ⟨rfl, rfl⟩
    · exact h.depth i other before
    · exact depth
  outermost other here := by
    rcases getElem?_concat_eq_some.mp here with before | ⟨empty, rfl⟩
    · exact h.outermost other before
    · rw [parent, List.length_eq_zero_iff.mp empty.symm]
      rfl
  parent i outer other here next := by
    rcases getElem?_concat_eq_some.mp next with before | ⟨last, rfl⟩
    · have inside := (List.getElem?_eq_some_iff.mp before).1
      rw [List.getElem?_append_left (by omega)] at here
      exact h.parent i outer other here before
    · rw [List.getElem?_append_left (by omega)] at here
      rw [parent, List.getLast?_eq_getElem?, ← last, Nat.add_sub_cancel, here]
      rfl
  ascending := List.pairwise_append.mpr ⟨h.ascending, List.pairwise_singleton _ _,
    fun outer member other last => List.mem_singleton.mp last ▸ greater outer member⟩

theorem stacked_of_chained {calls : List OpenCall} (h : Chained calls)
    (descending : calls.Pairwise fun inner outer => outer.identity.span < inner.identity.span) :
    Stacked calls.reverse := by
  induction calls with
  | nil => exact ⟨nofun, nofun, nofun, .nil⟩
  | cons call calls ih =>
    obtain ⟨depth, parent, chained⟩ := h
    obtain ⟨greatest, rest⟩ := List.pairwise_cons.mp descending
    rw [List.reverse_cons]
    refine (ih chained rest).concat ?_ ?_ fun outer member => ?_
    · rw [List.length_reverse, depth]
    · rw [List.getLast?_reverse, parent]
    · exact greatest outer (List.mem_reverse.mp member)

/-! ## Requests -/

inductive StackRequest where
  | push (time : Nanos)
  | pop (span : SpanId)
  | popTop
  /-- An identity for a call that is not entered. -/
  | next

inductive StackReply where
  | identity (identity : Identity)
  | ended (call : Option OpenCall)

def StackReply.span? : StackReply → Option SpanId
  | .identity drawn => some drawn.span
  | .ended _ => none

namespace ThreadState

theorem ids_nextIdentity (t : ThreadState) (ids : SpanIds) : (t.nextIdentity ids).2 = ids.next.2 :=
  congrArg SpanIds.mk (t.allocated_nextIdentity ids)

def ask (t : ThreadState) (ids : SpanIds) : StackRequest → StackReply × ThreadState × SpanIds
  | .push time => (.identity (t.push ids time).1, (t.push ids time).2)
  | .pop span =>
    match t.pop? span with
    | some (call, t) => (.ended (some call), t, ids)
    | none => (.ended none, t, ids)
  | .popTop =>
    match t.popTop? with
    | some (call, t) => (.ended (some call), t, ids)
    | none => (.ended none, t, ids)
  | .next => (.identity (t.nextIdentity ids).1, t, (t.nextIdentity ids).2)

/-- All that a request can do to the open calls: one more is open, or some are left. -/
inductive Asked (t : ThreadState) (ids : SpanIds) : StackReply × ThreadState × SpanIds → Prop
  | entered (time : Nanos) : t.Asked ids
      (.identity (t.nextIdentity ids).1,
        { t with calls := ⟨(t.nextIdentity ids).1, time⟩ :: t.calls }, (t.nextIdentity ids).2)
  | drawn : t.Asked ids (.identity (t.nextIdentity ids).1, t, (t.nextIdentity ids).2)
  | ended {t' : ThreadState} (call : Option OpenCall) (suffix : t'.calls <:+ t.calls) :
      t.Asked ids (.ended call, t', ids)

theorem asked (t : ThreadState) (ids : SpanIds) (request : StackRequest) :
    t.Asked ids (t.ask ids request) := by
  cases request with
  | push time => exact .entered time
  | pop span =>
    rw [ask]
    cases popped : t.pop? span with
    | some pair =>
      obtain ⟨inner, opened, _⟩ := pop?_eq_some popped
      refine .ended _ ?_
      rw [opened]
      exact (List.suffix_cons _ _).trans (List.suffix_append _ _)
    | none => exact .ended none List.suffix_rfl
  | popTop =>
    rw [ask, popTop?]
    cases opened : t.calls with
    | cons call calls =>
      refine .ended _ ?_
      rw [opened]
      exact List.suffix_cons _ _
    | nil => exact .ended none List.suffix_rfl
  | next => exact .drawn

end ThreadState

structure Threads (κ : Type) where
  states : κ → ThreadState
  ids : SpanIds := {}

namespace Threads
variable {κ : Type}

def start (thread : κ → ThreadId) (retention : κ → LapRetention) : Threads κ where
  states k := ThreadState.start (thread k) (retention k)

def stack (s : Threads κ) (k : κ) : List OpenCall := (s.states k).calls.reverse

theorem calls_of_stack {s : Threads κ} {k : κ} {stack : List OpenCall}
    (opened : s.stack k = stack) : (s.states k).calls = stack.reverse := by
  rw [← opened, Threads.stack, List.reverse_reverse]

/-- How the open calls and the replies stand to the identities that were drawn. -/
structure Orderly (replies : List StackReply) (s : Threads κ) : Prop where
  chained : ∀ k, Chained (s.states k).calls
  descending : ∀ k, (s.states k).calls.Pairwise fun inner outer =>
    outer.identity.span < inner.identity.span
  opened : ∀ k, ∀ call ∈ (s.states k).calls, call.identity.span ≤ s.ids.allocated
  drawn : replies.filterMap (·.span?) = List.range' 1 s.ids.allocated

namespace Orderly
variable {replies : List StackReply} {s : Threads κ}

theorem start (thread : κ → ThreadId) (retention : κ → LapRetention) :
    Orderly [] (Threads.start thread retention) where
  chained _ := trivial
  descending _ := .nil
  opened _ _ none := absurd none List.not_mem_nil
  drawn := rfl

theorem stacked (h : Orderly replies s) (k : κ) : Stacked (s.stack k) :=
  stacked_of_chained (h.chained k) (h.descending k)

theorem nodup_drawn (h : Orderly replies s) : (replies.filterMap (·.span?)).Nodup := by
  rw [h.drawn]
  exact List.nodup_range'

/-- The next span id is the first one that was not drawn. -/
theorem draw (h : Orderly replies s) (t : ThreadState) :
    (replies ++ [StackReply.identity (t.nextIdentity s.ids).1]).filterMap (·.span?) =
      List.range' 1 (t.nextIdentity s.ids).2.allocated := by
  rw [List.filterMap_append, h.drawn, ThreadState.allocated_nextIdentity, List.range'_1_concat,
    Nat.add_comm 1]
  congr 1
  exact congrArg (fun span => [span]) (t.span_nextIdentity s.ids)

end Orderly

variable [DecidableEq κ]

def ask (s : Threads κ) (request : κ × StackRequest) : StackReply × Threads κ :=
  let (reply, t, ids) := (s.states request.1).ask s.ids request.2
  (reply, { states := Function.update s.states request.1 t, ids })

namespace Orderly
variable {replies : List StackReply} {s : Threads κ}

theorem update (h : Orderly replies s) {k : κ} {t : ThreadState} {ids : SpanIds}
    {reply : StackReply} (chained : Chained t.calls)
    (descending : t.calls.Pairwise fun inner outer => outer.identity.span < inner.identity.span)
    (opened : ∀ call ∈ t.calls, call.identity.span ≤ ids.allocated)
    (drawn : (replies ++ [reply]).filterMap (·.span?) = List.range' 1 ids.allocated)
    (later : s.ids.allocated ≤ ids.allocated) :
    Orderly (replies ++ [reply]) { states := Function.update s.states k t, ids } where
  chained := (Function.forall_update_iff s.states fun _ t => Chained t.calls).mpr
    ⟨chained, fun other _ => h.chained other⟩
  descending := (Function.forall_update_iff s.states fun _ t => t.calls.Pairwise _).mpr
    ⟨descending, fun other _ => h.descending other⟩
  opened := (Function.forall_update_iff s.states fun _ t =>
      ∀ call ∈ t.calls, call.identity.span ≤ ids.allocated).mpr
    ⟨opened, fun other _ call member => Nat.le_trans (h.opened other call member) later⟩
  drawn := drawn

theorem ask (h : Orderly replies s) (request : κ × StackRequest) :
    Orderly (replies ++ [(s.ask request).1]) (s.ask request).2 := by
  obtain ⟨k, request⟩ := request
  have asked := (s.states k).asked s.ids request
  rw [Threads.ask]
  generalize (s.states k).ask s.ids request = outcome at asked ⊢
  have fewer : s.ids.allocated ≤ ((s.states k).nextIdentity s.ids).2.allocated :=
    Nat.le_of_lt (by rw [ThreadState.allocated_nextIdentity]; exact Nat.lt_succ_self _)
  cases asked with
  | entered time =>
    obtain ⟨depth, parent⟩ := (h.chained k).nextIdentity s.ids
    refine h.update ⟨depth, parent, h.chained k⟩ ?_ ?_ (h.draw _) fewer
    · refine List.pairwise_cons.mpr ⟨fun call member => ?_, h.descending k⟩
      rw [ThreadState.span_nextIdentity]
      exact Nat.lt_succ_of_le (h.opened k call member)
    · refine List.forall_mem_cons.mpr ⟨?_, fun call member =>
        Nat.le_trans (h.opened k call member) fewer⟩
      exact Nat.le_of_eq ((ThreadState.span_nextIdentity _ _).trans
        (ThreadState.allocated_nextIdentity _ _).symm)
  | drawn =>
    exact h.update (h.chained k) (h.descending k)
      (fun call member => Nat.le_trans (h.opened k call member) fewer) (h.draw _) fewer
  | ended call suffix =>
    refine h.update ((h.chained k).of_suffix suffix) ((h.descending k).sublist suffix.sublist)
      (fun call member => h.opened k call (suffix.subset member)) ?_ (Nat.le_refl _)
    rw [List.filterMap_append, h.drawn]
    exact List.append_nil _

end Orderly

/-! ## What a request does -/

def restack (s : Threads κ) (k : κ) (stack : List OpenCall) : Threads κ :=
  { s with states := Function.update s.states k { s.states k with calls := stack.reverse } }

/-- What each request to a thread gives, and that nothing else changes. -/
structure Answers (s : Threads κ) (k : κ) : Prop where
  push : ∀ time, ∃ drawn, s.ask (k, .push time) = (.identity drawn,
    { s.restack k (s.stack k ++ [⟨drawn, time⟩]) with ids := s.ids.next.2 })
  next : ∃ drawn, s.ask (k, .next) = (.identity drawn, { s with ids := s.ids.next.2 })
  popTop : ∀ below call, s.stack k = below ++ [call] →
    s.ask (k, .popTop) = (.ended (some call), s.restack k below)
  popNone : s.stack k = [] → s.ask (k, .popTop) = (.ended none, s)
  pop : ∀ below call above, s.stack k = below ++ call :: above →
    s.ask (k, .pop call.identity.span) = (.ended (some call), s.restack k below)
  popAbsent : ∀ span, (∀ call ∈ s.stack k, call.identity.span ≠ span) →
    s.ask (k, .pop span) = (.ended none, s)

variable {s : Threads κ} {k : κ}

theorem ask_push (s : Threads κ) (k : κ) (time : Nanos) :
    ∃ drawn, s.ask (k, .push time) = (.identity drawn,
      { s.restack k (s.stack k ++ [⟨drawn, time⟩]) with ids := s.ids.next.2 }) := by
  refine ⟨((s.states k).nextIdentity s.ids).1, ?_⟩
  rw [← (s.states k).ids_nextIdentity, restack, stack, ← List.reverse_cons, List.reverse_reverse]
  rfl

theorem ask_next (s : Threads κ) (k : κ) :
    ∃ drawn, s.ask (k, .next) = (.identity drawn, { s with ids := s.ids.next.2 }) := by
  refine ⟨((s.states k).nextIdentity s.ids).1, ?_⟩
  rw [ask, ThreadState.ask, ThreadState.ids_nextIdentity]
  dsimp only
  rw [Function.update_eq_self]

theorem ask_popTop {below : List OpenCall} {call : OpenCall}
    (opened : s.stack k = below ++ [call]) :
    s.ask (k, .popTop) = (.ended (some call), s.restack k below) := by
  have calls : (s.states k).calls = call :: below.reverse := by
    rw [calls_of_stack opened, List.reverse_concat]
  rw [ask, ThreadState.ask, ThreadState.popTop?, calls]
  rfl

theorem ask_popTop_of_empty (empty : s.stack k = []) : s.ask (k, .popTop) = (.ended none, s) := by
  rw [ask, ThreadState.ask, ThreadState.popTop?, calls_of_stack empty]
  dsimp only [List.reverse_nil]
  rw [Function.update_eq_self]

/-- Nothing happens to any thread when the call is not open. -/
theorem ask_pop_of_absent {span : SpanId} (absent : ∀ call ∈ s.stack k, call.identity.span ≠ span) :
    s.ask (k, .pop span) = (.ended none, s) := by
  have popped : (s.states k).pop? span = none := by
    cases popped : (s.states k).pop? span with
    | none => rfl
    | some pair =>
      obtain ⟨inner, opened, _, same, _⟩ := ThreadState.pop?_eq_some popped
      refine absurd same (absent pair.1 (List.mem_reverse.mpr ?_))
      rw [opened]
      exact List.mem_append_right _ List.mem_cons_self
  rw [ask, ThreadState.ask, popped]
  dsimp only
  rw [Function.update_eq_self]

theorem ask_pop_of_open {replies : List StackReply} (h : Orderly replies s)
    {below above : List OpenCall} {call : OpenCall} (opened : s.stack k = below ++ call :: above) :
    s.ask (k, .pop call.identity.span) = (.ended (some call), s.restack k below) := by
  have calls : (s.states k).calls = above.reverse ++ call :: below.reverse := by
    rw [calls_of_stack opened, List.reverse_append, List.reverse_cons, List.append_assoc,
      List.singleton_append]
  have others : ∀ inner ∈ above.reverse, inner.identity.span ≠ call.identity.span := by
    intro inner member
    have descending := h.descending k
    rw [calls] at descending
    exact Nat.ne_of_gt ((List.pairwise_append.mp descending).2.2 inner member call
      List.mem_cons_self)
  rw [ask, ThreadState.ask, ThreadState.pop?_of_split calls rfl others]
  rfl

theorem Orderly.answers {replies : List StackReply} (h : Orderly replies s) (k : κ) :
    s.Answers k where
  push := s.ask_push k
  next := s.ask_next k
  popTop _ _ := ask_popTop
  popNone := ask_popTop_of_empty
  pop _ _ _ := ask_pop_of_open h
  popAbsent _ := ask_pop_of_absent

/-- After any requests, to any of the threads. -/
theorem stacks_orderly (thread : κ → ThreadId) (retention : κ → LapRetention)
    (requests : List (κ × StackRequest)) :
    let told := dialogue ask (start thread retention) requests
    (∀ k, Stacked (told.2.stack k)) ∧ (told.1.filterMap (·.span?)).Nodup ∧
      ∀ k, told.2.Answers k := by
  intro told
  have orderly : Orderly told.1 told.2 := by
    refine dialogue_keeps (P := fun _ => Orderly) (.start thread retention) ?_ requests
    exact fun _ _ _ request h => h.ask request
  exact ⟨orderly.stacked, orderly.nodup_drawn, orderly.answers⟩

/-- Of two threads the first one leaves a call although the call inside it was not left, and asks
for one that the other thread has open. -/
theorem stacks_orderly_of_lost_exit : ∃ (s : Threads Bool) (outer inner : OpenCall),
    s = (dialogue ask (start (fun _ => 7) fun _ => .unbounded) [(true, .push 10),
      (false, .push 20), (true, .next), (true, .push 30)]).2 ∧
    s.stack true = [outer, inner] ∧ outer.identity.span = 1 ∧ inner.identity.span = 4 ∧
    (∀ call ∈ s.stack true, call.identity.span ≠ 2) ∧
    s.ask (true, .pop 2) = (.ended none, s) ∧
    s.ask (true, .popTop) = (.ended (some inner), s.restack true [outer]) ∧
    s.ask (true, .pop outer.identity.span) = (.ended (some outer), s.restack true []) := by
  let requests : List (Bool × StackRequest) :=
    [(true, .push 10), (false, .push 20), (true, .next), (true, .push 30)]
  let s := (dialogue ask (start (fun _ => 7) fun _ => .unbounded) requests).2
  let outer : OpenCall := ⟨.root 1, 10⟩
  let inner : OpenCall := ⟨⟨4, some 1, 1⟩, 30⟩
  have opened : s.stack true = [outer, inner] := rfl
  have absent : ∀ call ∈ s.stack true, call.identity.span ≠ 2 := by
    rw [opened]
    decide
  have answers := (stacks_orderly (fun _ => 7) (fun _ => .unbounded) requests).2.2 true
  exact ⟨s, outer, inner, rfl, opened, rfl, rfl, absent, answers.popAbsent 2 absent,
    answers.popTop [outer] inner opened, answers.pop [] outer [inner] opened⟩

end Threads

end SpanWeave
