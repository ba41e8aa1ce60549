import SpanWeave.Proofs.WorkQueue.Moments

set_option autoImplicit false

/-!
# Order of jobs

Without workers, the jobs of an owner wait in the order in which they were handed in and start in
that order, whatever other jobs hand in meanwhile. Only a queue that is being stopped breaks the
row: it starts what a job hands in at once, before the jobs that still wait.
-/
namespace SpanWeave
variable {α : Type}

namespace Moment

def early (ms : List (Moment α)) : List (Moment α) := ms.filter (!·.afterStop)

def late (ms : List (Moment α)) : List (Moment α) := ms.filter (·.afterStop)

def effects (starts : Bool) (owner : ThreadId) (ms : List (Moment α)) : List α :=
  (ms.filter fun m => m.starts == starts && m.owner == some owner).map (·.effect)

abbrev handed (owner : ThreadId) (ms : List (Moment α)) : List α := effects false owner ms

abbrev begun (owner : ThreadId) (ms : List (Moment α)) : List α := effects true owner ms

variable (starts : Bool) (owner : ThreadId) (ms more : List (Moment α))

theorem early_append : early (ms ++ more) = early ms ++ early more := by
  rw [early, List.filter_append]
  rfl

theorem late_append : late (ms ++ more) = late ms ++ late more := by
  rw [late, List.filter_append]
  rfl

theorem effects_append :
    effects starts owner (ms ++ more) = effects starts owner ms ++ effects starts owner more := by
  rw [effects, List.filter_append, List.map_append]
  rfl

theorem effects_cons (m : Moment α) : effects starts owner (m :: ms) =
    (if m.starts = starts ∧ m.owner = some owner then [m.effect] else []) ++
      effects starts owner ms := by
  rw [effects, List.filter_cons]
  by_cases told : m.starts = starts ∧ m.owner = some owner
  · rw [if_pos told, if_pos (by simp [told])]
    rfl
  · rw [if_neg told, if_neg (by simpa using told)]
    rfl

variable {starts owner ms}

theorem late_of_forall (h : ∀ m ∈ ms, m.afterStop = true) : late ms = ms :=
  List.filter_eq_self.mpr h

theorem late_eq_nil (h : ∀ m ∈ ms, m.afterStop = false) : late ms = [] :=
  List.filter_eq_nil_iff.mpr fun m member => by rw [h m member]; decide

/-- Where an owner sees nothing late, all that it sees is early. -/
theorem effects_early (absent : effects starts owner (late ms) = []) :
    effects starts owner (early ms) = effects starts owner ms := by
  unfold effects early
  rw [List.filter_filter]
  refine congrArg _ (List.filter_congr fun m member => ?_)
  have unseen := List.filter_eq_nil_iff.mp (List.map_eq_nil_iff.mp absent) m
  cases isLate : m.afterStop with
  | false => exact Bool.and_true _
  | true =>
    rw [Bool.not_true, Bool.and_false]
    exact (Bool.eq_false_iff.mpr (unseen (List.mem_filter.mpr ⟨member, isLate⟩))).symm

end Moment

namespace WorkQueue
open Moment

def queued (owner : ThreadId) (ps : List (Parcel α)) : List α :=
  (ps.filter (·.owner == some owner)).map (·.job.effect)

theorem queued_append (owner : ThreadId) (ps more : List (Parcel α)) :
    queued owner (ps ++ more) = queued owner ps ++ queued owner more := by
  rw [queued, List.filter_append, List.map_append]
  rfl

theorem queued_cons (owner : ThreadId) (p : Parcel α) (ps : List (Parcel α)) :
    queued owner (p :: ps) =
      (if p.owner = some owner then [p.job.effect] else []) ++ queued owner ps := by
  rw [queued, List.filter_cons]
  by_cases own : p.owner = some owner
  · rw [if_pos own, if_pos (beq_iff_eq.mpr own)]
    rfl
  · rw [if_neg own, if_neg (mt beq_iff_eq.mp own)]
    rfl

/-- Without workers every job that waits has an owner, and waits in the owner's lane. -/
structure Laned (q : WorkQueue α) : Prop where
  workers : q.workers = 0
  lanes : ∀ p ∈ q.waiting, ∃ owner, p.owner = some owner ∧ p.lane = owner.toNat

/-- What was gone through between two states of a queue, and that the queue kept account of it. -/
structure Passes (q q' : WorkQueue α) (ms : List (Moment α)) : Prop where
  laned : q'.Laned
  started : q'.started.toList = q.started.toList ++ (ms.filter (·.starts)).map (·.effect)
  submitted : q'.submitted = q.submitted + ms.countP (!·.starts)
  /-- What waited and what was handed in started in this order, or waits in it. -/
  early : ∀ owner, queued owner q.waiting ++ handed owner (early ms) =
    begun owner (early ms) ++ queued owner q'.waiting
  late : ∀ owner, begun owner (late ms) = handed owner (late ms)

namespace Passes
variable {q q' q'' : WorkQueue α} {ms more : List (Moment α)}

theorem quiet (laned : q'.Laned) (started : q'.started = q.started)
    (submitted : q'.submitted = q.submitted)
    (queue : ∀ owner, queued owner q'.waiting = queued owner q.waiting) : q.Passes q' [] where
  laned := laned
  started := by rw [started]; exact (List.append_nil _).symm
  submitted := submitted
  early owner := by rw [queue]; exact List.append_nil _
  late _ := rfl

theorem refl (laned : q.Laned) : q.Passes q [] := quiet laned rfl rfl fun _ => rfl

theorem trans (h : q.Passes q' ms) (k : q'.Passes q'' more) : q.Passes q'' (ms ++ more) where
  laned := k.laned
  started := by
    rw [k.started, h.started, List.filter_append, List.map_append, List.append_assoc]
  submitted := by rw [k.submitted, h.submitted, List.countP_append, Nat.add_assoc]
  early owner := by
    rw [early_append, handed, effects_append, begun, effects_append, ← List.append_assoc,
      h.early, List.append_assoc, k.early, List.append_assoc]
  late owner := by
    rw [late_append, begun, effects_append, handed, effects_append]
    exact congr (congrArg _ (h.late owner)) (k.late owner)

theorem finish (laned : q.Laned) (fails : Bool) : q.Passes (q.finish fails) [] :=
  quiet ⟨laned.workers, laned.lanes⟩ rfl rfl fun _ => rfl

/-- A job that runs at once is nobody's, or the queue is stopped. -/
theorem atOnce (laned : q.Laned) {owner : Option ThreadId} (now : q.runsAtOnce owner = true)
    (effect : α) : q.Passes (q.account.start effect)
      [⟨false, q.stopped, owner, effect⟩, ⟨true, q.stopped, owner, effect⟩] := by
  refine ⟨⟨laned.workers, laned.lanes⟩, Array.toList_push, rfl, fun other => ?_, fun other => ?_⟩
  · change _ = _ ++ queued other q.waiting
    cases running : q.stopped with
    | true => exact List.append_nil _
    | false =>
      -- nobody's job is no owner's
      have nobody : owner ≠ some other := by
        rintro rfl
        rw [runsAtOnce, running] at now
        exact absurd now (by simp)
      change _ ++ effects false other [_, _] = effects true other [_, _] ++ _
      rw [effects_cons, effects_cons, effects_cons, effects_cons, if_neg (·.2 |> nobody),
        if_neg (·.2 |> nobody), if_neg (·.2 |> nobody), if_neg (·.2 |> nobody)]
      exact List.append_nil _
  · cases q.stopped with
    | false => rfl
    | true =>
      change effects true other [_, _] = effects false other [_, _]
      rw [effects_cons, effects_cons, effects_cons, effects_cons]
      by_cases own : owner = some other <;> simp [own, effects]

theorem enqueue (laned : q.Laned) {owner : Option ThreadId} (later : q.runsAtOnce owner = false)
    (job : Job α) : q.Passes (q.account.enqueue owner job)
      [⟨false, q.stopped, owner, job.effect⟩] := by
  obtain ⟨running, owned⟩ := Bool.or_eq_false_iff.mp later
  cases owner with
  | none => exact absurd owned (by simp [laned.workers])
  | some owner =>
    have lane : q.account.laneOf owner = owner.toNat := if_pos laned.workers
    refine ⟨⟨laned.workers, fun p member => ?_⟩, (List.append_nil _).symm, rfl, fun other => ?_,
      fun other => ?_⟩
    · rcases List.mem_append.mp member with old | new
      · exact laned.lanes p old
      · rw [List.mem_singleton.mp new]
        exact ⟨owner, rfl, lane⟩
    · change _ = _ ++ queued other (q.waiting ++ [⟨some owner, q.account.laneOf owner, job⟩])
      rw [queued_append, queued_cons, running]
      change _ ++ effects false other [_] = effects true other [_] ++ _
      rw [effects_cons, effects_cons]
      by_cases own : owner = other <;> simp [own, effects, queued]
    · rw [running]
      rfl

/-- Every job of a script starts where it is handed in, or waits behind the others. -/
theorem handIn (script : Script α) (laned : q.Laned) :
    q.Passes (WorkQueue.handIn script q) (handInMoments script q) := by
  induction script generalizing q with
  | done => exact refl laned
  | job owner effect followUps fails rest ihFollowUps ihRest =>
    rw [WorkQueue.handIn, handInMoments]
    cases now : q.account.runsAtOnce owner with
    | true =>
      have first := atOnce laned now effect
      have own := ihFollowUps first.laned
      have done := own.trans (finish own.laned fails)
      rw [List.append_nil] at done
      exact first.trans (done.trans (ihRest done.laned))
    | false =>
      have first := enqueue laned now ⟨effect, followUps, fails⟩
      exact first.trans (ihRest first.laned)

/-- The first job of every owner in the row may leave it and start. -/
theorem run (laned : q.Laned) {p : Parcel α} {rest : List (Parcel α)} (others : rest ⊆ q.waiting)
    (first : ∀ owner, queued owner q.waiting =
      (if p.owner = some owner then [p.job.effect] else []) ++ queued owner rest) :
    q.Passes ((q.holding rest).run p.job) (runMoments (q.holding rest) p) := by
  have starts : q.Passes ((q.holding rest).start p.job.effect)
      [⟨true, false, p.owner, p.job.effect⟩] := by
    refine ⟨⟨laned.workers, fun o member => laned.lanes o (others member)⟩, Array.toList_push, rfl,
      fun owner => ?_, fun _ => rfl⟩
    change _ ++ effects false owner [_] = effects true owner [_] ++ queued owner rest
    rw [first, effects_cons, effects_cons]
    by_cases own : p.owner = some owner <;> simp [own, effects]
  have own := handIn p.job.followUps starts.laned
  have done := own.trans (finish own.laned p.job.fails)
  rw [List.append_nil] at done
  exact starts.trans done

end Passes

theorem takeFirst_split {lane : Nat} {ps rest : List (Parcel α)} {p : Parcel α}
    (found : takeFirst lane ps = some (p, rest)) :
    p.lane = lane ∧ ∃ before after, ps = before ++ p :: after ∧ rest = before ++ after ∧
      ∀ b ∈ before, b.lane ≠ lane := by
  induction ps generalizing rest with
  | nil => cases found
  | cons b ps ih =>
    rw [takeFirst] at found
    split at found
    case isTrue here =>
      cases found
      exact ⟨here, [], ps, rfl, rfl, List.forall_mem_nil _⟩
    case isFalse elsewhere =>
      obtain ⟨⟨first, others⟩, inner, eq⟩ := Option.map_eq_some_iff.mp found
      cases eq
      obtain ⟨here, before, after, rfl, rfl, differ⟩ := ih inner
      exact ⟨here, b :: before, after, rfl, rfl, List.forall_mem_cons.mpr ⟨elsewhere, differ⟩⟩

theorem takeFirst_eq_none_iff {lane : Nat} {ps : List (Parcel α)} :
    takeFirst lane ps = none ↔ ∀ p ∈ ps, p.lane ≠ lane := by
  induction ps with
  | nil => exact ⟨fun _ => List.forall_mem_nil _, fun _ => rfl⟩
  | cons p ps ih =>
    rw [takeFirst, List.forall_mem_cons]
    split
    case isTrue here => exact ⟨nofun, fun others => absurd here others.1⟩
    case isFalse elsewhere =>
      rw [Option.map_eq_none_iff, ih]
      exact ⟨fun others => ⟨elsewhere, others⟩, And.right⟩

/-- A lane is its owner's, so its first job is the owner's first. -/
theorem Laned.takeFirst {q : WorkQueue α} (laned : q.Laned) {lane : Nat} {p : Parcel α}
    {rest : List (Parcel α)} (found : takeFirst lane q.waiting = some (p, rest)) :
    rest ⊆ q.waiting ∧ ∀ owner, queued owner q.waiting =
      (if p.owner = some owner then [p.job.effect] else []) ++ queued owner rest := by
  obtain ⟨here, before, after, whole, rfl, differ⟩ := takeFirst_split found
  rw [whole]
  refine ⟨List.append_subset.mpr ⟨List.subset_append_left _ _, fun o member =>
    List.mem_append_right _ (List.mem_cons_of_mem _ member)⟩, fun owner => ?_⟩
  rw [queued_append, queued_append, queued_cons]
  by_cases own : p.owner = some owner
  · have none : queued owner before = [] := by
      refine List.map_eq_nil_iff.mpr (List.filter_eq_nil_iff.mpr fun b member same => ?_)
      have inQueue : ∀ o ∈ before ++ p :: after, ∃ owner, o.owner = some owner ∧
          o.lane = owner.toNat := whole ▸ laned.lanes
      obtain ⟨_, isOwner, lane⟩ := inQueue b (List.mem_append_left _ member)
      obtain ⟨_, isOwner', lane'⟩ := inQueue p (List.mem_append_right _ List.mem_cons_self)
      have eq := Option.some.inj (isOwner.symm.trans ((beq_iff_eq.mp same).trans
        (own.symm.trans isOwner')))
      exact differ b member (lane.trans (eq ▸ lane'.symm.trans here))
    rw [none]
    rfl
  · rw [if_neg own, List.nil_append, List.nil_append]

theorem Passes.lane {q : WorkQueue α} (laned : q.Laned) (lane limit : Nat) :
    q.Passes (runLane lane limit q) (laneMoments lane limit q) := by
  induction limit generalizing q with
  | zero => exact .refl laned
  | succ limit ih =>
    rw [runLane, laneMoments, step?]
    cases found : WorkQueue.takeFirst lane q.waiting with
    | none => exact .refl laned
    | some pair =>
      obtain ⟨others, first⟩ := laned.takeFirst found
      have ran := Passes.run laned others first
      exact ran.trans (ih ran.laned)

/-! ## A queue that is stopped -/

theorem stopped_handIn (script : Script α) (q : WorkQueue α) :
    (handIn script q).stopped = q.stopped ∧
      ∀ m ∈ handInMoments script q, m.afterStop = q.stopped := by
  induction script generalizing q with
  | done => exact ⟨rfl, List.forall_mem_nil _⟩
  | job owner effect followUps fails rest ihFollowUps ihRest =>
    rw [handIn, handInMoments]
    split
    · obtain ⟨same, own⟩ := ihFollowUps (q.account.start effect)
      obtain ⟨same', others⟩ := ihRest ((handIn followUps (q.account.start effect)).finish fails)
      refine ⟨same'.trans same, List.forall_mem_cons.mpr ⟨rfl, List.forall_mem_cons.mpr
        ⟨rfl, List.forall_mem_append.mpr ⟨own, fun m member => ?_⟩⟩⟩⟩
      exact (others m member).trans same
    · obtain ⟨same, others⟩ := ihRest (q.account.enqueue owner ⟨effect, followUps, fails⟩)
      have stopped : (q.account.enqueue owner ⟨effect, followUps, fails⟩).stopped = q.stopped := by
        cases owner <;> rfl
      exact ⟨same.trans stopped, List.forall_mem_cons.mpr ⟨rfl, fun m member =>
        (others m member).trans stopped⟩⟩

/-- A stopped queue leaves alone what waits, whatever that is. -/
theorem handIn_holding (script : Script α) {q : WorkQueue α} (stopped : q.stopped = true)
    (ps : List (Parcel α)) :
    handIn script (q.holding ps) = (handIn script q).holding ps ∧
      handInMoments script (q.holding ps) = handInMoments script q := by
  induction script generalizing q with
  | done => exact ⟨rfl, rfl⟩
  | job owner effect followUps fails rest ihFollowUps ihRest =>
    have now : q.account.runsAtOnce owner = true := runsAtOnce_of_stopped stopped owner
    have now' : (q.holding ps).account.runsAtOnce owner = true := now
    have start : (q.holding ps).account.start effect = (q.account.start effect).holding ps := rfl
    obtain ⟨own, ownMoments⟩ := ihFollowUps (q := q.account.start effect) stopped
    have finish : ((handIn followUps (q.account.start effect)).holding ps).finish fails =
      ((handIn followUps (q.account.start effect)).finish fails).holding ps := rfl
    obtain ⟨others, otherMoments⟩ :=
      ihRest (q := (handIn followUps (q.account.start effect)).finish fails)
        ((stopped_handIn followUps (q.account.start effect)).1.trans stopped)
    rw [handIn, handIn, handInMoments, handInMoments, if_pos now, if_pos now', if_pos now,
      if_pos now', start, own, finish, others, ownMoments, otherMoments]
    exact ⟨rfl, rfl⟩

theorem waiting_handIn (script : Script α) {q : WorkQueue α} (stopped : q.stopped = true) :
    (handIn script q).waiting = q.waiting := by
  have held : handIn script q = (handIn script q).holding q.waiting :=
    (handIn_holding script stopped q.waiting).1
  rw [held]
  rfl

/-- The jobs of an owner keep their order when the lanes are sorted. -/
theorem Laned.queued_mergeSort {q : WorkQueue α} (laned : q.Laned) (owner : ThreadId) :
    queued owner (q.waiting.mergeSort (·.lane ≤ ·.lane)) = queued owner q.waiting := by
  have keeps : (q.waiting.filter (·.owner == some owner)).Sublist
      (q.waiting.mergeSort (·.lane ≤ ·.lane)) := by
    refine List.sublist_mergeSort (fun a b c => ?_) (fun a b => ?_) ?_ List.filter_sublist
    · simpa using Nat.le_trans
    · simpa using Nat.le_total a.lane b.lane
    · refine List.Pairwise.imp_of_mem (R := fun _ _ => True) (fun {a b} first second _ => ?_)
        (List.pairwise_of_forall fun _ _ => trivial)
      have lane : ∀ p ∈ q.waiting.filter (·.owner == some owner), p.lane = owner.toNat := by
        intro p member
        obtain ⟨inQueue, own⟩ := List.mem_filter.mp member
        obtain ⟨_, isOwner, lane⟩ := laned.lanes p inQueue
        rw [lane, Option.some.inj (isOwner.symm.trans (beq_iff_eq.mp own))]
      rw [lane a first, lane b second]
      exact decide_eq_true (Nat.le_refl _)
  have sorted := keeps.filter (·.owner == some owner)
  rw [List.filter_filter] at sorted
  simp only [Bool.and_self] at sorted
  have whole := ((List.mergeSort_perm q.waiting (·.lane ≤ ·.lane)).filter
    (·.owner == some owner)).length_eq
  rw [queued, ← sorted.eq_of_length whole.symm]
  rfl

/-- A queue that is being stopped runs the jobs that wait in a row that nothing joins. -/
theorem Passes.drain {q : WorkQueue α} (ps : List (Parcel α)) (stopped : q.stopped = true)
    (laned : (q.holding ps).Laned) :
    (q.holding ps).Passes ((ps.foldl (fun q p => q.run p.job) q).holding [])
      (drainMoments ps q) := by
  induction ps generalizing q with
  | nil => exact .refl laned
  | cons p ps ih =>
    have ran := Passes.run laned (List.subset_cons_self p ps) fun owner => queued_cons owner p ps
    obtain ⟨frame, moments⟩ :=
      handIn_holding p.job.followUps (q := q.start p.job.effect) stopped ps
    have told : runMoments (q.holding ps) p = runMoments q p := congrArg (_ :: ·) moments
    have state : (q.holding ps).run p.job = (q.run p.job).holding ps :=
      congrArg (fun q : WorkQueue α => q.finish p.job.fails) frame
    have still : (q.run p.job).stopped = true :=
      (stopped_handIn p.job.followUps (q.start p.job.effect)).1.trans stopped
    change (q.holding (p :: ps)).Passes ((q.holding ps).run p.job) (runMoments (q.holding ps) p)
      at ran
    rw [told, state] at ran
    exact ran.trans (ih still ran.laned)

theorem waiting_drain (ps : List (Parcel α)) {q : WorkQueue α} (stopped : q.stopped = true) :
    (ps.foldl (fun q p => q.run p.job) q).stopped = true ∧
      (ps.foldl (fun q p => q.run p.job) q).waiting = q.waiting := by
  induction ps generalizing q with
  | nil => exact ⟨stopped, rfl⟩
  | cons p ps ih =>
    obtain ⟨still, same⟩ := ih (q := q.run p.job)
      ((stopped_handIn p.job.followUps (q.start p.job.effect)).1.trans stopped)
    exact ⟨still, same.trans (waiting_handIn p.job.followUps (q := q.start p.job.effect) stopped)⟩

end WorkQueue

end SpanWeave
