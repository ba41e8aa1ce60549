import Mathlib.Data.List.Perm.Basic
import SpanWeave.Proofs.Engine.Background

set_option autoImplicit false

/-!
# The balance of the recorder

What was begun is open, finished or discarded. An end or a discard changes which of the three it is,
on its own track only, and the balance stays.
-/
namespace SpanWeave

def Span.isCall (s : Span) : Bool := s.kind == .cpu && s.correlation.isSome

def SpanStart.isCall (s : SpanStart) : Bool := s.kind == .cpu && s.correlation.isSome

@[simp] theorem SpanStart.isCall_finish (s : SpanStart) (endsAt : Nanos) :
    (s.finish endsAt).isCall = s.isCall := rfl

theorem Span.IsLoose.not_isCall {s : Span} (loose : s.IsLoose) : s.isCall = false := by
  simp only [isCall, loose.kind]
  rfl

theorem Span.IsLoose.filter_host {spans : Array Span} (loose : ∀ span ∈ spans, span.IsLoose) :
    spans.toList.filter (·.kind == .cpu) = [] := by
  rw [List.filter_eq_nil_iff]
  intro span member
  rw [(loose span (Array.mem_toList_iff.mp member)).kind]
  decide

structure Span.IsTimed (s : Span) : Prop where
  ordered : s.beginsAt ≤ s.endsAt
  duration : s.duration = s.endsAt - s.beginsAt

theorem Span.IsLoose.isTimed {s : Span} (loose : s.IsLoose) : s.IsTimed :=
  ⟨loose.ordered, loose.duration⟩

theorem SpanStart.isTimed_finish {s : SpanStart} {endsAt : Nanos} (ordered : s.time ≤ endsAt) :
    (s.finish endsAt).IsTimed := ⟨ordered, rfl⟩

namespace Recorder

theorem openOn_empty (track : Track) : ({} : Recorder).openOn track = [] :=
  Std.ExtTreeMap.getD_empty

theorem openOn_beginSpan_of_ne (r : Recorder) (start : SpanStart) {other : Track}
    (h : start.track ≠ other) : (r.beginSpan start).openOn other = r.openOn other :=
  openOn_setOpen_of_ne r h _

theorem openOn_endSpan_of_ne (r : Recorder) {track other : Track} (h : track ≠ other)
    (time : Nanos) : (r.endSpan track time).openOn other = r.openOn other := by
  unfold endSpan
  split
  · exact openOn_setOpen_of_ne r h _
  · rfl

theorem openOn_discardSpan_of_ne (r : Recorder) {track other : Track} (h : track ≠ other) :
    (r.discardSpan track).openOn other = r.openOn other := by
  unfold discardSpan
  split
  · exact openOn_setOpen_of_ne r h _
  · rfl

def discardSpans (r : Recorder) (track : Track) : Nat → Recorder
  | 0 => r
  | n + 1 => (r.discardSpan track).discardSpans track n

@[simp] theorem openOn_discardSpans (r : Recorder) (track : Track) (n : Nat) :
    (r.discardSpans track n).openOn track = (r.openOn track).drop n := by
  induction n generalizing r with
  | zero => rfl
  | succ n ih => rw [discardSpans, ih, openOn_discardSpan, List.drop_tail]

theorem openOn_discardSpans_of_ne (r : Recorder) {track other : Track} (h : track ≠ other)
    (n : Nat) : (r.discardSpans track n).openOn other = r.openOn other := by
  induction n generalizing r with
  | zero => rfl
  | succ n ih => rw [discardSpans, ih, openOn_discardSpan_of_ne r h]

@[simp] theorem finished_setOpen (r : Recorder) (track : Track) (starts : List SpanStart) :
    (r.setOpen track starts).finished = r.finished := by
  cases starts <;> rfl

@[simp] theorem discarded_setOpen (r : Recorder) (track : Track) (starts : List SpanStart) :
    (r.setOpen track starts).discarded = r.discarded := by
  cases starts <;> rfl

@[simp] theorem unmatchedEnds_setOpen (r : Recorder) (track : Track) (starts : List SpanStart) :
    (r.setOpen track starts).unmatchedEnds = r.unmatchedEnds := by
  cases starts <;> rfl

@[simp] theorem finished_beginSpan (r : Recorder) (start : SpanStart) :
    (r.beginSpan start).finished = r.finished := finished_setOpen r _ _

@[simp] theorem unmatchedEnds_beginSpan (r : Recorder) (start : SpanStart) :
    (r.beginSpan start).unmatchedEnds = r.unmatchedEnds := unmatchedEnds_setOpen r _ _

@[simp] theorem finished_discardSpan (r : Recorder) (track : Track) :
    (r.discardSpan track).finished = r.finished := by
  unfold discardSpan
  split
  · exact finished_setOpen r _ _
  · rfl

@[simp] theorem unmatchedEnds_discardSpan (r : Recorder) (track : Track) :
    (r.discardSpan track).unmatchedEnds = r.unmatchedEnds := by
  unfold discardSpan
  split
  · exact unmatchedEnds_setOpen r _ _
  · rfl

@[simp] theorem finished_discardSpans (r : Recorder) (track : Track) (n : Nat) :
    (r.discardSpans track n).finished = r.finished := by
  induction n generalizing r with
  | zero => rfl
  | succ n ih => rw [discardSpans, ih, finished_discardSpan]

@[simp] theorem unmatchedEnds_discardSpans (r : Recorder) (track : Track) (n : Nat) :
    (r.discardSpans track n).unmatchedEnds = r.unmatchedEnds := by
  induction n generalizing r with
  | zero => rfl
  | succ n ih => rw [discardSpans, ih, unmatchedEnds_discardSpan]

theorem endSpan_eq {r : Recorder} {track : Track} {start : SpanStart} {starts : List SpanStart}
    (opened : r.openOn track = start :: starts) (time : Nanos) :
    r.endSpan track time = { r.setOpen track starts with
      finished := r.finished.push (start.finish time) } := by
  unfold endSpan
  rw [opened]
  simp only [finished_setOpen]

theorem finished_leaf (r : Recorder) {start : SpanStart} {track : Track}
    (own : start.track = track) (endsAt : Nanos) :
    ((r.beginSpan start).endSpan track endsAt).finished =
      r.finished.push (start.finish endsAt) := by
  subst own
  rw [endSpan_eq (r.openOn_beginSpan start)]
  exact congrArg (Array.push · (start.finish endsAt)) (r.finished_beginSpan start)

theorem perm_toList {V : Type} {m : Std.ExtTreeMap Track V} {track : Track} {v : V}
    (h : m[track]? = some v) : m.toList.Perm ((track, v) :: (m.erase track).toList) := by
  have nodup : ∀ m : Std.ExtTreeMap Track V, m.toList.Nodup := by
    intro m
    refine m.distinct_keys_toList.imp fun {a b} distinct same => distinct ?_
    rw [same]
    exact Std.ReflCmp.compare_self
  have absent : (track, v) ∉ (m.erase track).toList := by
    intro member
    rw [Std.ExtTreeMap.mem_toList_iff_getElem?_eq_some,
      Std.ExtTreeMap.getElem?_erase_self] at member
    cases member
  refine (List.perm_ext_iff_of_nodup (nodup m) (List.nodup_cons.mpr ⟨absent, nodup _⟩)).mpr ?_
  rintro ⟨other, w⟩
  rw [List.mem_cons, Std.ExtTreeMap.mem_toList_iff_getElem?_eq_some,
    Std.ExtTreeMap.mem_toList_iff_getElem?_eq_some, Std.ExtTreeMap.getElem?_erase]
  by_cases same : track = other
  · subst same
    simp [h, eq_comm]
  · simp [same, Ne.symm same]

def openIn (opened : Std.ExtTreeMap Track (List SpanStart)) : Nat :=
  (opened.toList.flatMap (·.2)).length

theorem openCount_eq (r : Recorder) : r.openCount = openIn r.opened := by
  unfold openCount openIn
  rw [Std.ExtTreeMap.foldl_eq_foldl_toList, List.length_flatMap, List.sum_eq_foldl, List.foldl_map]

theorem openIn_eq (opened : Std.ExtTreeMap Track (List SpanStart)) (track : Track) :
    openIn opened = (opened.getD track []).length + openIn (opened.erase track) := by
  rw [Std.ExtTreeMap.getD_eq_getD_getElem?]
  cases h : opened[track]? with
  | some starts =>
    unfold openIn
    rw [((perm_toList h).flatMap_right _).length_eq, List.flatMap_cons, List.length_append]
    rfl
  | none =>
    have absent : opened.erase track = opened := by
      refine Std.ExtTreeMap.ext_getElem? fun other => ?_
      rw [Std.ExtTreeMap.getElem?_erase]
      split
      · rename_i same
        rw [← Std.LawfulEqCmp.eq_of_compare same, h]
      · rfl
    rw [absent]
    exact (Nat.zero_add _).symm

theorem openCount_setOpen (r : Recorder) (track : Track) (starts : List SpanStart) :
    (r.setOpen track starts).openCount + (r.openOn track).length =
      r.openCount + starts.length := by
  have rest : ((r.setOpen track starts).opened.erase track) = r.opened.erase track := by
    refine Std.ExtTreeMap.ext_getElem? fun other => ?_
    cases starts <;> simp only [setOpen, Std.ExtTreeMap.getElem?_erase,
      Std.ExtTreeMap.getElem?_insert] <;> split <;> rfl
  have now := openOn_setOpen r track starts
  unfold openOn at now ⊢
  rw [openCount_eq, openCount_eq, openIn_eq _ track, openIn_eq r.opened track, now, rest]
  omega

/-- How many calls were begun, by what has become of them. -/
def balance (r : Recorder) : Nat :=
  (r.finished.toList.filter (·.isCall)).length + r.discarded + r.openCount

theorem balance_keep (r : Recorder) {spans : Array Span}
    (others : ∀ span ∈ spans, span.isCall = false) : (r.keep spans).balance = r.balance := by
  have none : spans.toList.filter (·.isCall) = [] := by
    rw [List.filter_eq_nil_iff]
    intro span member
    rw [others span (Array.mem_toList_iff.mp member)]
    exact Bool.false_ne_true
  simp only [balance, finished_keep, Array.toList_append, List.filter_append, none,
    List.append_nil, discarded_keep, openCount_keep]

theorem balance_beginSpan (r : Recorder) (start : SpanStart) :
    (r.beginSpan start).balance = r.balance + 1 := by
  have count := openCount_setOpen r start.track (start :: r.openOn start.track)
  simp only [List.length_cons] at count
  simp only [balance, beginSpan, finished_setOpen, discarded_setOpen]
  omega

theorem balance_endSpan {r : Recorder} {track : Track} {start : SpanStart}
    {starts : List SpanStart} (opened : r.openOn track = start :: starts) (time : Nanos) :
    (r.endSpan track time).balance + (if start.isCall then 0 else 1) = r.balance := by
  have count := openCount_setOpen r track starts
  rw [opened, List.length_cons] at count
  rw [endSpan_eq opened]
  change (((r.finished.push _).toList.filter (·.isCall)).length +
    (r.setOpen track starts).discarded +
    (r.setOpen track starts).openCount) + _ = _
  rw [Array.toList_push, List.filter_append, List.length_append, discarded_setOpen,
    List.filter_singleton, SpanStart.isCall_finish, balance]
  cases start.isCall
  · change _ + 0 + _ + _ + 1 = _
    omega
  · change _ + 1 + _ + _ + 0 = _
    omega

@[simp] theorem balance_discardSpan (r : Recorder) (track : Track) :
    (r.discardSpan track).balance = r.balance := by
  unfold discardSpan
  split
  · rename_i start starts opened
    have count := openCount_setOpen r track starts
    rw [opened, List.length_cons] at count
    change ((r.setOpen track starts).finished.toList.filter (·.isCall)).length +
      ((r.setOpen track starts).discarded + 1) + (r.setOpen track starts).openCount = r.balance
    rw [finished_setOpen, discarded_setOpen, balance]
    omega
  · rfl

@[simp] theorem balance_discardSpans (r : Recorder) (track : Track) (n : Nat) :
    (r.discardSpans track n).balance = r.balance := by
  induction n generalizing r with
  | zero => rfl
  | succ n ih => rw [discardSpans, ih, balance_discardSpan]

end Recorder

end SpanWeave
