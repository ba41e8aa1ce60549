import Mathlib.Data.Multiset.MapFold
import SpanWeave.Proofs.Engine.Bench
import SpanWeave.Proofs.Engine.Renaming

set_option autoImplicit false

/-!
# Notices of threads apart

What the recorder is told on one thread changes the open begins of the track of that thread only,
and adds to what is finished. So it makes no difference which of two threads it hears first, and the
spans are the same, under the new ids, when it is told of renamed ones.
-/
namespace SpanWeave

namespace Recorder

structure Edit where
  track : Track
  stack : List SpanStart → List SpanStart := id
  finished : List SpanStart → Multiset Span := fun _ => 0
  discarded : List SpanStart → Nat := fun _ => 0
  unmatchedEnds : List SpanStart → Nat := fun _ => 0

namespace View

def edit (v : View) (x : Edit) : View where
  opened := Function.update v.opened x.track (x.stack (v.opened x.track))
  finished := x.finished (v.opened x.track) + v.finished
  discarded := v.discarded + x.discarded (v.opened x.track)
  unmatchedEnds := v.unmatchedEnds + x.unmatchedEnds (v.opened x.track)

theorem edit_comm (v : View) {x y : Edit} (apart : x.track ≠ y.track) :
    (v.edit x).edit y = (v.edit y).edit x := by
  have here : (v.edit x).opened y.track = v.opened y.track := Function.update_of_ne apart.symm _ _
  have there : (v.edit y).opened x.track = v.opened x.track := Function.update_of_ne apart _ _
  unfold edit at here there ⊢
  dsimp only at here there ⊢
  rw [here, there, Function.update_comm apart, ← Multiset.add_assoc, ← Multiset.add_assoc,
    Multiset.add_comm (y.finished _), Nat.add_right_comm v.discarded,
    Nat.add_right_comm v.unmatchedEnds]

def takeAll (v : View) (ns : List Notice) : View := ns.foldl take v

theorem takeAll_append (v : View) (ns more : List Notice) :
    v.takeAll (ns ++ more) = (v.takeAll ns).takeAll more := List.foldl_append

end View

end Recorder

theorem Deed.prompt_rename (d : Deed) (σ : Renaming) :
    (d.rename σ).prompt = d.prompt.map (Notice.rename σ) := by
  have work : ∀ w : Deferred, (w.rename σ).notices = w.notices.map (Notice.rename σ) := by
    intro w
    cases w <;> rfl
  cases d with
  | notice | flush => rfl
  | submit _ w | spawn w => exact work w

namespace Notice

def On (track : Track) : Notice → Prop
  | .begins start => start.track = track
  | .ends other _ | .discards other => other = track
  | .completes _ _ | .marks _ _ | .records _ _ => True

def edit (track : Track) : Notice → Recorder.Edit
  | .begins start => { track, stack := (start :: ·) }
  | .ends _ time =>
    { track
      stack := List.tail
      finished := fun
        | start :: _ => {start.finish time}
        | [] => 0
      unmatchedEnds := fun
        | _ :: _ => 0
        | [] => 1 }
  | .discards _ =>
    { track
      stack := List.tail
      discarded := fun
        | _ :: _ => 1
        | [] => 0 }
  | .completes start endsAt => { track, finished := fun _ => {start.finish endsAt} }
  | .marks _ _ | .records _ _ => { track }

theorem track_edit (track : Track) (n : Notice) : (n.edit track).track = track := by
  cases n <;> rfl

end Notice

namespace Recorder.View

theorem edit_of_same (v : View) {x : Edit} (same : x.stack (v.opened x.track) = v.opened x.track) :
    v.edit x = { v with
      finished := x.finished (v.opened x.track) + v.finished
      discarded := v.discarded + x.discarded (v.opened x.track)
      unmatchedEnds := v.unmatchedEnds + x.unmatchedEnds (v.opened x.track) } := by
  unfold edit
  rw [same, Function.update_eq_self]

theorem ends_edit (v : View) (track : Track) (time : Nanos) :
    v.ends track time = v.edit (Notice.edit track (.ends track time)) := by
  unfold ends
  cases opened : v.opened track with
  | nil =>
    rw [edit_of_same v (by dsimp only [Notice.edit]; rw [opened]; rfl)]
    dsimp only [Notice.edit]
    rw [opened, Multiset.zero_add]
    rfl
  | cons start starts =>
    unfold edit
    dsimp only [Notice.edit]
    rw [opened]
    rfl

theorem discards_edit (v : View) (track : Track) :
    v.discards track = v.edit (Notice.edit track (.discards track)) := by
  unfold discards
  cases opened : v.opened track with
  | nil =>
    rw [edit_of_same v (by dsimp only [Notice.edit]; rw [opened]; rfl)]
    dsimp only [Notice.edit]
    rw [opened, Multiset.zero_add]
    rfl
  | cons start starts =>
    unfold edit
    dsimp only [Notice.edit]
    rw [opened, Multiset.zero_add]
    rfl

theorem take_edit (v : View) {track : Track} {n : Notice} (on : n.On track) :
    v.take n = v.edit (n.edit track) := by
  cases n with
  | begins start =>
    subst on
    unfold edit
    dsimp only [Notice.edit]
    rw [Multiset.zero_add]
    rfl
  | ends other time =>
    subst on
    exact v.ends_edit other time
  | discards other =>
    subst on
    exact v.discards_edit other
  | completes start endsAt =>
    refine ((edit_of_same v rfl).trans ?_).symm
    exact congrArg (fun spans => { v with finished := spans }) (Multiset.singleton_add _ _)
  | marks | records =>
    refine ((edit_of_same v rfl).trans ?_).symm
    dsimp only [Notice.edit]
    rw [Multiset.zero_add]
    rfl

theorem take_apart (v : View) {track other : Track} (apart : track ≠ other) {n m : Notice}
    (on : n.On track) (beside : m.On other) : (v.take n).take m = (v.take m).take n := by
  rw [take_edit _ on, take_edit _ beside, take_edit _ beside, take_edit _ on]
  apply edit_comm
  rw [Notice.track_edit, Notice.track_edit]
  exact apart

theorem take_takeAll_apart (v : View) {track other : Track} (apart : track ≠ other) {n : Notice}
    {ms : List Notice} (on : n.On track) (beside : ∀ m ∈ ms, m.On other) :
    (v.take n).takeAll ms = (v.takeAll ms).take n := by
  induction ms generalizing v with
  | nil => rfl
  | cons m ms ih =>
    obtain ⟨first, others⟩ := List.forall_mem_cons.mp beside
    change ((v.take n).take m).takeAll ms = ((v.take m).takeAll ms).take n
    rw [take_apart v apart on first, ih (v.take m) others]

/-- It does not matter which of two tracks the recorder hears of first. -/
theorem takeAll_apart (v : View) {track other : Track} (apart : track ≠ other)
    {ns ms : List Notice} (on : ∀ n ∈ ns, n.On track) (beside : ∀ m ∈ ms, m.On other) :
    v.takeAll (ns ++ ms) = v.takeAll (ms ++ ns) := by
  induction ns generalizing v with
  | nil => rw [List.append_nil, List.nil_append]
  | cons n ns ih =>
    obtain ⟨first, others⟩ := List.forall_mem_cons.mp on
    have later : (v.take n).takeAll (ns ++ ms) = (v.take n).takeAll (ms ++ ns) :=
      ih (v.take n) others
    rw [takeAll_append _ ms, take_takeAll_apart v apart first beside] at later
    rw [takeAll_append v ms]
    exact later

/-! ## Under renaming -/

def rename (v : View) (σ : Renaming) : View where
  opened track := (v.opened track).map (·.rename σ)
  finished := v.finished.map (·.rename σ)
  discarded := v.discarded
  unmatchedEnds := v.unmatchedEnds

theorem setOpen_rename (v : View) (track : Track) (starts : List SpanStart) (σ : Renaming) :
    (v.setOpen track starts).rename σ = (v.rename σ).setOpen track (starts.map (·.rename σ)) :=
  congrArg (fun opened => (⟨opened, _, _, _⟩ : View))
    (Function.comp_update (List.map fun s : SpanStart => s.rename σ) v.opened track starts)

theorem take_rename (v : View) (n : Notice) (σ : Renaming) :
    (v.take n).rename σ = (v.rename σ).take (n.rename σ) := by
  have here : ∀ track, (v.rename σ).opened track = (v.opened track).map (·.rename σ) :=
    fun _ => rfl
  have finished : ∀ (w : View) (start : SpanStart) (time : Nanos),
      ({ w with finished := start.finish time ::ₘ w.finished } : View).rename σ =
        { w.rename σ with
          finished := (start.rename σ).finish time ::ₘ (w.rename σ).finished } :=
    fun w start time =>
      congrArg (fun spans => { w.rename σ with finished := spans }) (Multiset.map_cons _ _ _)
  cases n with
  | begins start => exact v.setOpen_rename _ _ σ
  | ends track time =>
    change (v.ends track time).rename σ = (v.rename σ).ends track time
    unfold ends
    rw [here]
    cases v.opened track with
    | nil => rfl
    | cons start starts =>
      refine (finished (v.setOpen track starts) start time).trans ?_
      rw [setOpen_rename]
      rfl
  | discards track =>
    change (v.discards track).rename σ = (v.rename σ).discards track
    unfold discards
    rw [here]
    cases v.opened track with
    | nil => rfl
    | cons start starts =>
      exact congrArg (fun w : View => { w with discarded := v.discarded + 1 })
        (v.setOpen_rename track starts σ)
  | completes start endsAt => exact finished v start endsAt
  | marks | records => rfl

theorem takeAll_rename (v : View) (ns : List Notice) (σ : Renaming) :
    (v.takeAll ns).rename σ = (v.rename σ).takeAll (ns.map (Notice.rename σ)) := by
  induction ns generalizing v with
  | nil => rfl
  | cons n ns ih =>
    change ((v.take n).takeAll ns).rename σ = ((v.rename σ).take (n.rename σ)).takeAll _
    rw [ih, take_rename]

def blank : View := ({} : Recorder).view

theorem blank_rename (σ : Renaming) : blank.rename σ = blank := by
  have opened : ∀ track, ({} : Recorder).openOn track = [] := fun _ => Std.ExtTreeMap.getD_empty
  exact congrArg (fun opened => (⟨opened, 0, 0, 0⟩ : View))
    (funext fun track => (congrArg (List.map _) (opened track)).trans (opened track).symm)

theorem rename_trans (v : View) (σ τ : Renaming) :
    (v.rename σ).rename τ = v.rename (σ.trans τ) := by
  have opened : ∀ starts : List SpanStart,
      (starts.map (·.rename σ)).map (·.rename τ) = starts.map (·.rename (σ.trans τ)) := by
    intro starts
    rw [List.map_map]
    exact congrArg (List.map · starts) (funext fun s => s.rename_trans σ τ)
  have finished : (v.finished.map (·.rename σ)).map (·.rename τ) =
      v.finished.map (·.rename (σ.trans τ)) := by
    rw [Multiset.map_map]
    exact congrArg (Multiset.map · v.finished) (funext fun s => s.rename_trans σ τ)
  unfold rename
  rw [finished]
  exact congrArg (fun opened => (⟨opened, _, _, _⟩ : View)) (funext fun track => opened _)

end Recorder.View

/-! ## The view of the sinks -/

namespace Sinks.View

theorem spans_takeAll (v : View) (ns : List Notice) :
    (v.takeAll ns).spans = v.spans.map (·.takeAll ns) := by
  induction ns generalizing v with
  | nil => exact (Option.map_id_apply).symm
  | cons n ns ih =>
    refine (ih (v.take n)).trans ?_
    change (v.spans.map (·.take n)).map (·.takeAll ns) = _
    rw [Option.map_map]
    rfl

theorem durations_takeAll (v : View) (ns : List Notice) :
    (v.takeAll ns).durations = ns.foldl (fun d n => n.onDurations v.flat d) v.durations := by
  induction ns generalizing v with
  | nil => rfl
  | cons n ns ih => exact ih (v.take n)

theorem durations_rename (v : View) {ns ms : List Notice} (σ : Renaming)
    (same : ms.Perm (ns.map (Notice.rename σ))) :
    (v.takeAll ms).durations = (v.takeAll ns).durations := by
  have renamed : ∀ (d : Option Durations) (n : Notice),
      (n.rename σ).onDurations v.flat d = n.onDurations v.flat d := by
    intro d n
    cases n <;> rfl
  rw [durations_takeAll, durations_takeAll,
    same.foldl_eq' (fun n _ m _ d => Notice.onDurations_comm v.flat d n m) v.durations,
    List.foldl_map]
  simp only [renamed]

end Sinks.View

end SpanWeave
