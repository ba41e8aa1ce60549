import Mathlib.Data.Multiset.AddSub
import Mathlib.Logic.Function.Basic
import SpanWeave.Proofs.Engine.Deeds
import SpanWeave.Proofs.Span.Balance

set_option autoImplicit false

/-!
# Views of the sinks

What can be seen of the sinks if one does not look at the order in which spans were finished.
Samples that are added up under their names, and spans that are complete at once, may then come at
any time: it makes no difference what else the sinks are told before.
-/
namespace SpanWeave

/-! ## Samples in any order -/

namespace Durations

def sampled (sample : Nat) : Option Tally → Option Tally
  | none => some (Tally.ofSample sample)
  | some t => some (t.add sample)

theorem sampled_comm (a b : Nat) (t : Option Tally) :
    sampled a (sampled b t) = sampled b (sampled a t) := by
  cases t with
  | none =>
    simp only [sampled, Tally.ofSample, Tally.add, Option.some.injEq, Tally.mk.injEq]
    refine ⟨trivial, ?_, Nat.min_comm _ _, Nat.max_comm _ _⟩
    omega
  | some t =>
    simp only [sampled, Tally.add, Option.some.injEq, Tally.mk.injEq]
    refine ⟨trivial, ?_, Nat.min_right_comm _ _ _, Nat.max_right_comm _ _ _⟩
    omega

def keyOf (d : Durations) (scope : Scope) (name : String) : String :=
  if scope.timeline then sampleName name d.sequence else name

theorem getElem?_record (d : Durations) (scope : Scope) (name key : String) (sample : Nat) :
    (d.record scope name sample).table[key]? =
      if d.keyOf scope name = key then sampled sample d.table[key]? else d.table[key]? := by
  change (d.table.alter (d.keyOf scope name) _)[key]? = _
  rw [Std.ExtTreeMap.getElem?_alter]
  simp only [Std.LawfulEqCmp.compare_eq_iff_eq]
  by_cases same : d.keyOf scope name = key
  · rw [if_pos same, if_pos same, same]
    cases d.table[key]? <;> rfl
  · rw [if_neg same, if_neg same]

theorem get?_record (d : Durations) (flat : Bool) (name other : String) (sample : Nat) :
    (d.record { flat } name sample).table[other]? =
      if name = other then sampled sample d.table[other]? else d.table[other]? :=
  d.getElem?_record { flat } name other sample

/-- Without a timeline it does not matter which sample comes first. -/
theorem record_comm (d : Durations) (flat : Bool) (name name' : String) (sample sample' : Nat) :
    (d.record { flat } name sample).record { flat } name' sample' =
      (d.record { flat } name' sample').record { flat } name sample := by
  have table : ((d.record { flat } name sample).record { flat } name' sample').table =
      ((d.record { flat } name' sample').record { flat } name sample).table := by
    refine Std.ExtTreeMap.ext_getElem? fun key => ?_
    rw [get?_record, get?_record, get?_record, get?_record]
    by_cases one : name = key <;> by_cases two : name' = key <;> simp only [one, two, ↓reduceIte]
    exact sampled_comm _ _ _
  let counted := d.flatSamples + (if flat then 1 else 0) + (if flat then 1 else 0)
  exact congrArg (fun table : Std.ExtTreeMap String Tally =>
    (⟨table, d.sequence, counted⟩ : Durations)) table

end Durations

/-! ## The view of a recorder -/

structure Recorder.View where
  opened : Track → List SpanStart
  finished : Multiset Span
  discarded : Nat
  unmatchedEnds : Nat

namespace Recorder

def view (r : Recorder) : View := ⟨r.openOn, r.finished.toList, r.discarded, r.unmatchedEnds⟩

theorem opened_setOpen (r : Recorder) (track : Track) (starts : List SpanStart) :
    (r.setOpen track starts).openOn = Function.update r.openOn track starts := by
  funext other
  by_cases same : other = track
  · rw [same, Function.update_self, openOn_setOpen]
  · rw [Function.update_of_ne same, openOn_setOpen_of_ne r (Ne.symm same)]

namespace View

def setOpen (v : View) (track : Track) (starts : List SpanStart) : View :=
  { v with opened := Function.update v.opened track starts }

def ends (v : View) (track : Track) (time : Nanos) : View :=
  match v.opened track with
  | start :: starts =>
    { v.setOpen track starts with finished := start.finish time ::ₘ v.finished }
  | [] => { v with unmatchedEnds := v.unmatchedEnds + 1 }

def discards (v : View) (track : Track) : View :=
  match v.opened track with
  | _ :: starts => { v.setOpen track starts with discarded := v.discarded + 1 }
  | [] => v

def completes (v : View) (span : Span) : View := { v with finished := span ::ₘ v.finished }

def take (v : View) : Notice → View
  | .begins start => v.setOpen start.track (start :: v.opened start.track)
  | .ends track time => v.ends track time
  | .discards track => v.discards track
  | .completes start endsAt => v.completes (start.finish endsAt)
  | .marks _ _ | .records _ _ => v

end View

theorem coe_push (spans : Array Span) (span : Span) :
    ((spans.push span).toList : Multiset Span) = span ::ₘ (spans.toList : Multiset Span) := by
  rw [Array.toList_push, ← Multiset.coe_add, Multiset.coe_singleton, Multiset.add_comm,
    Multiset.singleton_add]

theorem view_setOpen (r : Recorder) (track : Track) (starts : List SpanStart) :
    (r.setOpen track starts).view = r.view.setOpen track starts := by
  unfold view View.setOpen
  rw [opened_setOpen, finished_setOpen, discarded_setOpen, unmatchedEnds_setOpen]

theorem view_endSpan (r : Recorder) (track : Track) (time : Nanos) :
    (r.endSpan track time).view = r.view.ends track time := by
  have here : r.view.opened track = r.openOn track := rfl
  unfold endSpan View.ends
  rw [here]
  cases r.openOn track with
  | nil => rfl
  | cons start starts =>
    dsimp only
    rw [← view_setOpen]
    refine congrArg (fun spans : Multiset Span => ({ (r.setOpen track starts).view with
      finished := spans } : View)) ((coe_push _ _).trans ?_)
    rw [finished_setOpen]
    rfl

theorem view_discardSpan (r : Recorder) (track : Track) :
    (r.discardSpan track).view = r.view.discards track := by
  have here : r.view.opened track = r.openOn track := rfl
  unfold discardSpan View.discards
  rw [here]
  cases r.openOn track with
  | nil => rfl
  | cons start starts =>
    dsimp only
    rw [← view_setOpen]
    refine congrArg (fun count : Nat => ({ (r.setOpen track starts).view with
      discarded := count } : View)) ?_
    rw [discarded_setOpen]
    rfl

theorem view_completeSpan (r : Recorder) (start : SpanStart) (endsAt : Nanos) :
    (r.completeSpan start endsAt).view = r.view.completes (start.finish endsAt) :=
  congrArg (fun spans : Multiset Span => ({ r.view with finished := spans } : View)) (coe_push _ _)

end Recorder

/-! ## The view of the sinks -/

structure Sinks.View where
  spans : Option Recorder.View
  durations : Option Durations
  marks : Option MarkLog
  flat : Bool

namespace Notice

def onDurations (flat : Bool) (durations : Option Durations) : Notice → Option Durations
  | .records name duration => durations.map (·.record { flat } name duration)
  | _ => durations

def onMarks (marks : Option MarkLog) : Notice → Option MarkLog
  | .marks name mark => marks.map (·.push name mark)
  | _ => marks

end Notice

namespace Sinks

def view (s : Sinks) : View := ⟨s.spans.map (·.view), s.durations, s.marks, s.scope.flat⟩

namespace View

def take (v : View) (n : Notice) : View where
  spans := v.spans.map (·.take n)
  durations := n.onDurations v.flat v.durations
  marks := n.onMarks v.marks
  flat := v.flat

def takeAll (v : View) (ns : List Notice) : View := ns.foldl take v

theorem takeAll_append (v : View) (ns more : List Notice) :
    v.takeAll (ns ++ more) = (v.takeAll ns).takeAll more := List.foldl_append

end View

@[simp] theorem scope_take (s : Sinks) (n : Notice) : (s.take n).scope = s.scope := by
  cases n <;> rfl

/-- Without a timeline the view hears what the sinks hear. -/
theorem view_take (s : Sinks) (untimed : s.scope.timeline = false) (n : Notice) :
    (s.take n).view = s.view.take n := by
  have same : ∀ (f : Recorder → Recorder), (∀ r : Recorder, (f r).view = r.view.take n) →
      (s.spans.map f).map (·.view) = (s.spans.map (·.view)).map (·.take n) := by
    intro f same
    rw [Option.map_map, Option.map_map]
    exact congrArg (Option.map · s.spans) (funext same)
  have spans : (s.take n).spans.map (·.view) = (s.spans.map (·.view)).map (·.take n) := by
    cases n with
    | begins start => exact same (·.beginSpan start) fun r => r.view_setOpen _ _
    | ends track time => exact same (·.endSpan track time) fun r => r.view_endSpan _ _
    | discards track => exact same (·.discardSpan track) fun r => r.view_discardSpan _
    | completes start endsAt =>
      exact same (·.completeSpan start endsAt) fun r => r.view_completeSpan _ _
    | marks | records => exact (Option.map_id ▸ same id fun _ => rfl :)
  have durations : (s.take n).durations = n.onDurations s.scope.flat s.durations := by
    cases n with
    | records name duration =>
      have scope : s.scope = { flat := s.scope.flat } := by rw [← untimed]
      change s.durations.map (·.record s.scope name duration) = _
      rw [scope]
      rfl
    | begins | ends | discards | completes | marks => rfl
  have marks : (s.take n).marks = n.onMarks s.marks := by cases n <;> rfl
  unfold view
  rw [spans, durations, marks, scope_take]
  rfl

end Sinks

theorem Notice.onDurations_comm (flat : Bool) (d : Option Durations) (n m : Notice) :
    m.onDurations flat (n.onDurations flat d) = n.onDurations flat (m.onDurations flat d) := by
  cases n with
  | records name duration =>
    cases m with
    | records other duration' =>
      change (d.map _).map _ = (d.map _).map _
      rw [Option.map_map, Option.map_map]
      exact congrArg (Option.map · d)
        (funext fun d => d.record_comm flat name other duration duration')
    | begins | ends | discards | completes | marks => rfl
  | begins | ends | discards | completes | marks => rfl

/-! ## What may come at any time -/

/-- The notice opens nothing and ends nothing. -/
def Notice.IsFree : Notice → Prop
  | .completes _ _ | .records _ _ => True
  | _ => False

theorem Recorder.View.take_completes (v : Recorder.View) (span : Span) (n : Notice) :
    (v.completes span).take n = (v.take n).completes span := by
  have same : ∀ track, (v.completes span).opened track = v.opened track := fun _ => rfl
  have swapped : ∀ (w : Recorder.View) (a b : Span),
      (w.completes a).completes b = (w.completes b).completes a := fun w a b =>
    congrArg (fun spans => { w with finished := spans }) (Multiset.cons_swap b a w.finished)
  cases n with
  | begins start => rfl
  | ends track time =>
    change (v.completes span).ends track time = (v.ends track time).completes span
    unfold ends
    rw [same]
    cases v.opened track with
    | nil => rfl
    | cons start starts => exact swapped (v.setOpen track starts) span (start.finish time)
  | discards track =>
    change (v.completes span).discards track = (v.discards track).completes span
    unfold discards
    rw [same]
    cases v.opened track <;> rfl
  | completes start endsAt => exact swapped v span (start.finish endsAt)
  | marks | records => rfl

namespace Sinks.View

theorem take_comm (v : View) {x : Notice} (free : x.IsFree) (n : Notice) :
    (v.take x).take n = (v.take n).take x := by
  have spans : (v.spans.map (·.take x)).map (·.take n) =
      (v.spans.map (·.take n)).map (·.take x) := by
    rw [Option.map_map, Option.map_map]
    refine congrArg (Option.map · v.spans) (funext fun w => ?_)
    cases x with
    | completes start endsAt => exact w.take_completes _ n
    | records => rfl
    | begins | ends | discards | marks => cases free
  have durations := Notice.onDurations_comm v.flat v.durations x n
  have marks : n.onMarks (x.onMarks v.marks) = x.onMarks (n.onMarks v.marks) := by
    cases x with
    | completes | records => rfl
    | begins | ends | discards | marks => cases free
  change View.mk ((v.spans.map (·.take x)).map (·.take n))
    (n.onDurations v.flat (x.onDurations v.flat v.durations)) (n.onMarks (x.onMarks v.marks))
    v.flat = _
  rw [spans, durations, marks]
  rfl

theorem take_takeAll (v : View) {x : Notice} (free : x.IsFree) (ns : List Notice) :
    (v.take x).takeAll ns = (v.takeAll ns).take x := by
  induction ns generalizing v with
  | nil => rfl
  | cons n ns ih =>
    change ((v.take x).take n).takeAll ns = ((v.take n).takeAll ns).take x
    rw [take_comm v free, ih]

theorem takeAll_comm (v : View) {xs : List Notice} (free : ∀ x ∈ xs, x.IsFree)
    (ns : List Notice) : (v.takeAll xs).takeAll ns = (v.takeAll ns).takeAll xs := by
  induction xs generalizing v with
  | nil => rfl
  | cons x xs ih =>
    obtain ⟨first, others⟩ := List.forall_mem_cons.mp free
    change ((v.take x).takeAll xs).takeAll ns = ((v.takeAll ns).take x).takeAll xs
    rw [ih (v.take x) others, take_takeAll v first]

end Sinks.View

/-! ## Deferred work -/

def Deferred.notices : Deferred → List Notice
  | .sample name duration => [.records name duration]
  | .leaf start endsAt => [.completes start endsAt, .records start.name (endsAt - start.time)]

theorem Deferred.free (d : Deferred) : ∀ x ∈ d.notices, x.IsFree := by
  cases d with
  | sample name duration => exact List.forall_mem_singleton.mpr trivial
  | leaf start endsAt =>
    exact List.forall_mem_cons.mpr ⟨trivial, List.forall_mem_singleton.mpr trivial⟩

namespace Sinks

theorem scope_perform (s : Sinks) (d : Deferred) : (s.perform d).scope = s.scope := by
  cases d <;> rfl

theorem view_perform (s : Sinks) (untimed : s.scope.timeline = false) (d : Deferred) :
    (s.perform d).view = s.view.takeAll d.notices := by
  cases d with
  | sample name duration => exact s.view_take untimed (.records name duration)
  | leaf start endsAt =>
    refine ((s.take (.completes start endsAt)).view_take untimed (.records _ _)).trans ?_
    rw [s.view_take untimed]
    rfl

namespace View

def performAll (v : View) (ds : List Deferred) : View :=
  ds.foldl (fun v d => v.takeAll d.notices) v

theorem performAll_append (v : View) (ds more : List Deferred) :
    v.performAll (ds ++ more) = (v.performAll ds).performAll more := List.foldl_append

theorem performAll_eq (v : View) (ds : List Deferred) :
    v.performAll ds = v.takeAll (ds.flatMap Deferred.notices) := by
  induction ds generalizing v with
  | nil => rfl
  | cons d ds ih =>
    rw [List.flatMap_cons, takeAll_append, ← ih]
    rfl

theorem performAll_takeAll (v : View) (ds : List Deferred) (ns : List Notice) :
    (v.takeAll ns).performAll ds = (v.performAll ds).takeAll ns := by
  induction ds generalizing v with
  | nil => rfl
  | cons d ds ih =>
    change ((v.takeAll ns).takeAll d.notices).performAll ds =
      ((v.takeAll d.notices).performAll ds).takeAll ns
    rw [← takeAll_comm v d.free, ih]

/-- It does not matter when deferred work is done. -/
theorem performAll_perm (v : View) {ds ds' : List Deferred} (same : ds.Perm ds') :
    v.performAll ds = v.performAll ds' :=
  same.foldl_eq' (fun d _ d' _ v => takeAll_comm v d.free d'.notices) v

end View

theorem view_performAll (s : Sinks) (untimed : s.scope.timeline = false) (ds : List Deferred) :
    (ds.foldl perform s).view = s.view.performAll ds ∧
      (ds.foldl perform s).scope = s.scope := by
  induction ds generalizing s with
  | nil => exact ⟨rfl, rfl⟩
  | cons d ds ih =>
    have scope := s.scope_perform d
    obtain ⟨view, same⟩ := ih (s.perform d) (scope ▸ untimed)
    rw [s.view_perform untimed] at view
    exact ⟨view, same.trans scope⟩

end Sinks

end SpanWeave
