import SpanWeave.Proofs.Engine.Accounts

set_option autoImplicit false

/-!
# Laps of a thread

A completion takes a lap when it is supported and let through, whether it becomes a span or not. If
no counter is ever dropped, its lap is one more than the number of such completions with its id that
were taken on the same thread before.
-/
namespace SpanWeave

namespace Laps

def after (g : NameFilter) (l : Laps) (cs : List Completion) : Laps :=
  cs.foldl (fun l c => if c.isLooked g then (l.next c.correlation).2 else l) l

/-- The completions that take a lap, each with its lap. -/
def number (g : NameFilter) : Laps → List Completion → List (Completion × Nat)
  | _, [] => []
  | l, c :: cs =>
    if c.isLooked g then (c, (l.next c.correlation).1) :: number g (l.next c.correlation).2 cs
    else number g l cs

theorem number_append (g : NameFilter) (l : Laps) (cs ds : List Completion) :
    number g l (cs ++ ds) = number g l cs ++ number g (l.after g cs) ds := by
  induction cs generalizing l with
  | nil => rfl
  | cons c cs ih =>
    rw [List.cons_append, number, number, after, List.foldl_cons]
    split
    · rw [ih, List.cons_append]
      rfl
    · exact ih l

theorem map_number_fst (g : NameFilter) (l : Laps) (cs : List Completion) :
    (number g l cs).map (·.1) = cs.filter (·.isLooked g) := by
  induction cs generalizing l with
  | nil => rfl
  | cons c cs ih =>
    rw [number, List.filter_cons]
    split
    · rw [List.map_cons, ih]
    · exact ih l

/-! ## Counting -/

def seen (past : List Completion) (id : CorrelationId) : Nat := past.countP (·.correlation == id)

def numbered : List Completion → List Completion → List (Completion × Nat)
  | _, [] => []
  | past, c :: cs =>
    (c, min (seen past c.correlation + 1) lapLimit) :: numbered (past ++ [c]) cs

/-- No counter is dropped, and each one shows how often its id was seen. -/
structure Counts (l : Laps) (past : List Completion) : Prop where
  unbounded : l.retention = .unbounded
  counts : ∀ id : CorrelationId, l.counts[id]? =
    if seen past id = 0 then none else some (min (seen past id) lapLimit)

theorem seen_concat (past : List Completion) (c : Completion) (id : CorrelationId) :
    seen (past ++ [c]) id = seen past id + if c.correlation = id then 1 else 0 := by
  unfold seen
  rw [List.countP_append, List.countP_singleton]
  simp only [beq_iff_eq]

theorem Counts.next_eq {l : Laps} {past : List Completion} (h : l.Counts past)
    (id : CorrelationId) : l.next id = (min (seen past id + 1) lapLimit,
      { l with counts := l.counts.insert id (min (seen past id + 1) lapLimit) }) := by
  have known := h.counts id
  unfold next
  by_cases first : seen past id = 0
  · rw [if_pos first] at known
    rw [known, first]
    dsimp only
    rw [insert, h.unbounded]
    rfl
  · rw [if_neg first] at known
    have limited : min (min (seen past id) lapLimit + 1) lapLimit =
        min (seen past id + 1) lapLimit := by omega
    rw [known]
    dsimp only
    rw [limited]

theorem Counts.next {l : Laps} {past : List Completion} (h : l.Counts past) (c : Completion) :
    (l.next c.correlation).2.Counts (past ++ [c]) := by
  rw [h.next_eq c.correlation]
  refine ⟨h.unbounded, fun id => ?_⟩
  change (l.counts.insert c.correlation _)[id]? = _
  rw [Std.ExtTreeMap.getElem?_insert, seen_concat]
  simp only [Std.LawfulEqCmp.compare_eq_iff_eq]
  by_cases own : c.correlation = id
  · subst own
    rw [if_pos rfl, if_pos rfl, if_neg (Nat.succ_ne_zero _)]
  · rw [if_neg own, if_neg own]
    exact h.counts id

theorem Counts.after {g : NameFilter} (cs : List Completion) {l : Laps} {past : List Completion}
    (h : l.Counts past) : (l.after g cs).Counts (past ++ cs.filter (·.isLooked g)) := by
  induction cs generalizing l past with
  | nil =>
    rw [List.filter_nil, List.append_nil]
    exact h
  | cons c cs ih =>
    rw [Laps.after, List.foldl_cons, List.filter_cons]
    split
    · have rest := ih (h.next c)
      rw [List.append_assoc] at rest
      exact rest
    · exact ih h

theorem Counts.number_eq {g : NameFilter} (cs : List Completion) {l : Laps}
    {past : List Completion} (h : l.Counts past) :
    number g l cs = numbered past (cs.filter (·.isLooked g)) := by
  induction cs generalizing l past with
  | nil => rfl
  | cons c cs ih =>
    rw [number, List.filter_cons]
    split
    · rw [numbered, ih (h.next c), h.next_eq]
    · exact ih h

end Laps

end SpanWeave
