import SpanWeave.Proofs.Lists
import SpanWeave.Proofs.WorkQueue.Order

set_option autoImplicit false

/-!
# First in, first out

What a queue without workers promises to an owner over any requests. Its jobs start in the order in
which they were handed in, up to the moment at which the queue is stopped and after it; in between,
while the queue runs what still waits, only those owners keep their order for whom no job hands in
another one.
-/
namespace SpanWeave
variable {α : Type}

namespace WorkQueue
open Moment

/-- A queue without workers as requests find it: once it is stopped, nothing waits. -/
structure Standing (q : WorkQueue α) : Prop where
  laned : q.Laned
  empty : q.stopped = true → q.waiting = []

theorem tick_of_laned {q : WorkQueue α} (laned : q.Laned) :
    q.tick = { q with turns := q.turns.tail } := by
  have turn : q.turn = [] := if_pos laned.workers
  rw [tick, turn]
  rfl

theorem halted_of_laned {q : WorkQueue α} (laned : q.Laned) :
    q.halted = { q with stopped := true, turns := q.turns.tail } :=
  tick_of_laned (q := { q with stopped := true }) ⟨laned.workers, laned.lanes⟩

theorem Passes.tick {q q' : WorkQueue α} {ms : List (Moment α)} (h : q.Passes q' ms) :
    q.Passes q'.tick ms := by
  rw [tick_of_laned h.laned]
  exact ⟨⟨h.laned.workers, h.laned.lanes⟩, h.started, h.submitted, h.early, h.late⟩

theorem Passes.stop {q : WorkQueue α} (laned : q.Laned) (running : q.stopped = false) :
    q.Passes q.stop (q.moments .stop) ∧ q.stop.Standing := by
  have halted := halted_of_laned laned
  have drained : q.drained = q.waiting.mergeSort (·.lane ≤ ·.lane) := by
    rw [WorkQueue.drained, halted]
  have sorted : ((q.halted.holding []).holding q.drained).Laned := by
    rw [halted]
    refine ⟨laned.workers, fun p member => laned.lanes p ?_⟩
    exact List.mem_mergeSort.mp (drained ▸ member)
  have kept : q.Passes ((q.halted.holding []).holding q.drained) [] := by
    refine .quiet sorted (by rw [halted]; rfl) (by rw [halted]; rfl) fun owner => ?_
    exact (congrArg _ drained).trans (laned.queued_mergeSort owner)
  have isStopped : (q.halted.holding []).stopped = true := by
    rw [halted]
    rfl
  have emptied := drain q.drained isStopped sorted
  obtain ⟨still, nothing⟩ := waiting_drain q.drained isStopped
  have state : ((q.drained.foldl (fun q p => q.run p.job) (q.halted.holding [])).holding []) =
      q.stop := by
    rw [stop_of_running running]
    have same : ∀ q : WorkQueue α, q.waiting = [] → q.holding [] = q := fun q none => by
      rw [← none]
      rfl
    exact same _ nothing
  rw [state] at emptied
  rw [moments_stop running]
  refine ⟨kept.trans emptied, emptied.laned, fun _ => ?_⟩
  rw [← state]
  rfl

theorem stopped_runLane {q : WorkQueue α} (running : q.stopped = false) (lane limit : Nat) :
    (runLane lane limit q).stopped = false ∧
      ∀ m ∈ laneMoments lane limit q, m.afterStop = false := by
  induction limit generalizing q with
  | zero => exact ⟨running, List.forall_mem_nil _⟩
  | succ limit ih =>
    rw [runLane, laneMoments, step?]
    cases found : takeFirst lane q.waiting with
    | none => exact ⟨running, List.forall_mem_nil _⟩
    | some pair =>
      obtain ⟨p, rest⟩ := pair
      obtain ⟨same, own⟩ := stopped_handIn p.job.followUps ((q.holding rest).start p.job.effect)
      obtain ⟨still, others⟩ := ih (q := (q.holding rest).run p.job) (same.trans running)
      exact ⟨still, List.forall_mem_append.mpr ⟨List.forall_mem_cons.mpr
        ⟨rfl, fun m member => (own m member).trans running⟩, others⟩⟩

theorem runLane_empty {q : WorkQueue α} (empty : q.waiting = []) (lane limit : Nat) :
    runLane lane limit q = q ∧ laneMoments lane limit q = [] := by
  cases limit with
  | zero => exact ⟨rfl, rfl⟩
  | succ limit =>
    rw [runLane, laneMoments, step?, empty]
    exact ⟨rfl, rfl⟩

namespace Standing
variable {q : WorkQueue α}

theorem handIn (h : q.Standing) (script : Script α) :
    q.Passes (WorkQueue.handIn script q).tick (handInMoments script q) ∧
      (WorkQueue.handIn script q).tick.Standing := by
  have handed := (Passes.handIn script h.laned).tick
  have tick := tick_of_laned (Passes.handIn script h.laned).laned
  refine ⟨handed, handed.laned, fun stopped => ?_⟩
  rw [tick] at stopped ⊢
  have was : q.stopped = true := (stopped_handIn script q).1.symm.trans stopped
  exact (waiting_handIn script was).trans (h.empty was)

theorem ask (h : q.Standing) (request : Request α) :
    q.Passes (q.ask request) (q.moments request) ∧ (q.ask request).Standing := by
  cases request with
  | submit owner job => exact h.handIn _
  | spawn job => exact h.handIn _
  | flush owner =>
    have flush : q.ask (.flush owner) = runLane (q.laneOf owner) q.weight q :=
      if_pos h.laned.workers
    rw [flush]
    have ran := Passes.lane h.laned (q.laneOf owner) q.weight
    refine ⟨ran, ran.laned, fun stopped => ?_⟩
    cases running : q.stopped with
    | false =>
      have still := (stopped_runLane running (q.laneOf owner) q.weight).1
      exact absurd (stopped.symm.trans still) (by decide)
    | true =>
      rw [(runLane_empty (h.empty running) _ _).1]
      exact h.empty running
  | stop =>
    cases running : q.stopped with
    | false => exact Passes.stop h.laned running
    | true =>
      have same : q.ask .stop = q := stop_of_stopped running
      have nothing : q.moments .stop = [] := if_pos running
      rw [same, nothing]
      exact ⟨.refl h.laned, h⟩

theorem askAll (h : q.Standing) (requests : List (Request α)) :
    q.Passes (q.askAll requests) (allMoments requests q) ∧ (q.askAll requests).Standing := by
  induction requests generalizing q with
  | nil => exact ⟨.refl h.laned, h⟩
  | cons request requests ih =>
    obtain ⟨first, still⟩ := h.ask request
    obtain ⟨others, last⟩ := ih still
    exact ⟨first.trans others, last⟩

end Standing

def Row (owner : ThreadId) (q q' : WorkQueue α) (ms : List (Moment α)) : Prop :=
  queued owner q.waiting ++ handed owner ms = begun owner ms ++ queued owner q'.waiting

theorem Row.trans {owner : ThreadId} {q q' q'' : WorkQueue α} {ms more : List (Moment α)}
    (h : Row owner q q' ms) (k : Row owner q' q'' more) : Row owner q q'' (ms ++ more) := by
  unfold Row at *
  rw [handed, effects_append, begun, effects_append, ← List.append_assoc, h, List.append_assoc, k,
    List.append_assoc]

/-- An owner for whom nothing is handed in late sees its jobs in order. -/
theorem Passes.row {owner : ThreadId} {q q' : WorkQueue α} {ms : List (Moment α)}
    (h : q.Passes q' ms) (calm : handed owner (Moment.late ms) = []) : Row owner q q' ms := by
  have early := h.early owner
  rwa [handed, effects_early calm, begun, effects_early ((h.late owner).trans calm)] at early

theorem Passes.row_late {owner : ThreadId} {q q' : WorkQueue α} {ms : List (Moment α)}
    (h : q.Passes q' ms) (empty : q.waiting = []) (empty' : q'.waiting = [])
    (all : ∀ m ∈ ms, m.afterStop = true) : Row owner q q' ms := by
  have late := h.late owner
  rw [late_of_forall all] at late
  rw [Row, empty, empty', late]
  exact (List.append_nil _).symm

theorem handed_late {owner : ThreadId} {ms : List (Moment α)} (none : handed owner ms = []) :
    handed owner (late ms) = [] :=
  List.eq_nil_of_sublist_nil (none ▸ (List.filter_sublist.filter _).map _)

theorem Standing.row_handIn {q : WorkQueue α} (h : q.Standing) (owner : ThreadId)
    (script : Script α) :
    Row owner q (WorkQueue.handIn script q).tick (handInMoments script q) := by
  obtain ⟨passes, standing⟩ := h.handIn script
  obtain ⟨same, times⟩ := stopped_handIn script q
  cases running : q.stopped with
  | false =>
    rw [running] at times
    exact passes.row (by rw [late_eq_nil times]; rfl)
  | true =>
    rw [running] at times same
    refine passes.row_late (h.empty running) (standing.empty ?_) times
    rw [tick_of_laned (Passes.handIn script h.laned).laned]
    exact same

theorem Standing.row {q : WorkQueue α} (h : q.Standing) (owner : ThreadId) (request : Request α)
    (calm : handed owner (stopMoments [request] q) = []) :
    Row owner q (q.ask request) (q.moments request) := by
  obtain ⟨passes, _⟩ := h.ask request
  cases request with
  | submit o job => exact h.row_handIn owner _
  | spawn job => exact h.row_handIn owner _
  | flush o =>
    cases running : q.stopped with
    | false =>
      have times := (stopped_runLane running (q.laneOf o) q.weight).2
      exact passes.row (by rw [moments, late_eq_nil times]; rfl)
    | true =>
      have nothing : q.moments (.flush o) = [] := (runLane_empty (h.empty running) _ _).2
      rw [nothing] at passes ⊢
      exact passes.row rfl
  | stop => exact passes.row (handed_late (List.append_nil (q.moments .stop) ▸ calm))

theorem stopMoments_cons (request : Request α) (requests : List (Request α)) (q : WorkQueue α) :
    stopMoments (request :: requests) q =
      stopMoments [request] q ++ stopMoments requests (q.ask request) := by
  cases request with
  | stop => rw [stopMoments, stopMoments, stopMoments, List.append_nil]; rfl
  | submit | spawn | flush => rfl

theorem Standing.rows {q : WorkQueue α} (h : q.Standing) (owner : ThreadId)
    (requests : List (Request α)) (calm : handed owner (stopMoments requests q) = []) :
    Row owner q (q.askAll requests) (allMoments requests q) := by
  induction requests generalizing q with
  | nil => exact List.append_nil _
  | cons request requests ih =>
    rw [stopMoments_cons, handed, effects_append] at calm
    obtain ⟨now, later⟩ := List.append_eq_nil_iff.mp calm
    exact (h.row owner request now).trans (ih (h.ask request).2 later)

/-- What a queue that was asked for `requests` shows of the jobs of its owners. -/
structure InOrder (q : WorkQueue α) (requests : List (Request α)) : Prop where
  /-- The queue itself keeps the same starts, and counts the jobs that were handed in. -/
  started : (q.askAll requests).started.toList =
    ((allMoments requests q).filter (·.starts)).map (·.effect)
  submitted : (q.askAll requests).submitted = (allMoments requests q).countP (!·.starts)
  /-- The jobs that were handed in before the queue was stopped started in this order, or wait. -/
  early : ∀ owner, handed owner (early (allMoments requests q)) =
    begun owner (early (allMoments requests q)) ++ queued owner (q.askAll requests).waiting
  late : ∀ owner,
    begun owner (late (allMoments requests q)) = handed owner (late (allMoments requests q))
  /-- After the queue was stopped none of them waits. -/
  emptied : (q.askAll requests).stopped = true → (q.askAll requests).waiting = []
  /-- The order holds throughout, unless a job that runs while the queue is being stopped hands in
  another one for the owner. -/
  whole : ∀ owner, handed owner (stopMoments requests q) = [] →
    handed owner (allMoments requests q) =
      begun owner (allMoments requests q) ++ queued owner (q.askAll requests).waiting

theorem jobs_inOrder (warnAbove : Option Nat) (requests : List (Request α)) :
    ({ warnAbove } : WorkQueue α).InOrder requests := by
  have standing : ({ warnAbove } : WorkQueue α).Standing :=
    ⟨⟨rfl, List.forall_mem_nil _⟩, fun _ => rfl⟩
  obtain ⟨passes, last⟩ := standing.askAll requests
  exact ⟨passes.started, passes.submitted.trans (Nat.zero_add _), passes.early, passes.late,
    last.empty, fun owner calm => standing.rows owner requests calm⟩

/-- A job that fails hands in two others, for its owner and for another one; a third job of the
owner runs while the queue is being stopped, and a fourth one after it. -/
theorem inOrder_of_follow_ups :
    let requests : List (Request Nat) :=
      [.submit 1 ⟨10, .job (some 1) 11 .done false (.job (some 2) 20 .done false .done), true⟩,
        .flush 1, .submit 1 ⟨12, .job (some 3) 30 .done false .done, false⟩, .stop,
        .submit 1 ⟨13, .done, false⟩]
    handed 1 (stopMoments requests {}) = [] ∧
      handed 1 (allMoments requests {}) = begun 1 (allMoments requests {}) ∧
      begun 1 (allMoments requests {}) = [10, 11, 12, 13] := by
  intro requests
  let q := askAll {} (requests.take 3)
  -- the job that was handed in last waits in the first lane, and so it runs first
  have drained : q.drained =
      [⟨some 1, 1, ⟨12, .job (some 3) 30 .done false .done, false⟩⟩,
        ⟨some 2, 2, ⟨20, .done, false⟩⟩] :=
    mergeSort_pair _ _ _
  have moments := moments_stop (q := q) rfl
  have stop := stop_of_running (q := q) rfl
  rw [drained] at moments stop
  have calm : handed 1 (stopMoments requests {}) = [] := by
    change handed 1 (q.moments .stop ++ []) = []
    rw [moments]
    decide +kernel
  have nothing : queued 1 (askAll {} requests).waiting = [] := by
    change queued 1 (q.stop.ask (.submit 1 ⟨13, .done, false⟩)).waiting = []
    rw [stop]
    decide +kernel
  have whole := (jobs_inOrder none requests).whole 1 calm
  rw [nothing, List.append_nil] at whole
  refine ⟨calm, whole, ?_⟩
  change begun 1 (allMoments (requests.take 3) {} ++
    (q.moments .stop ++ (q.stop.moments (.submit 1 ⟨13, .done, false⟩) ++ []))) = _
  rw [moments, stop]
  decide +kernel

/-- A job that runs while the queue is being stopped hands in another one for its owner, which
overtakes the one that was handed in before it and still waits. -/
theorem stop_overtakes :
    let requests : List (Request Nat) :=
      [.submit 1 ⟨10, .job (some 1) 12 .done false .done, false⟩, .submit 1 ⟨11, .done, false⟩,
        .stop]
    handed 1 (allMoments requests {}) = [10, 11, 12] ∧
      begun 1 (allMoments requests {}) = [10, 12, 11] ∧
      (askAll {} requests).started.toList = [10, 12, 11] := by
  intro requests
  let q := askAll {} (requests.take 2)
  have drained : q.drained =
      [⟨some 1, 1, ⟨10, .job (some 1) 12 .done false .done, false⟩⟩,
        ⟨some 1, 1, ⟨11, .done, false⟩⟩] :=
    mergeSort_pair _ _ _
  have moments := moments_stop (q := q) rfl
  have stop := stop_of_running (q := q) rfl
  rw [drained] at moments stop
  have all : allMoments requests {} =
      allMoments (requests.take 2) {} ++ (q.moments .stop ++ []) := rfl
  rw [all, moments]
  refine ⟨by decide +kernel, by decide +kernel, ?_⟩
  change q.stop.started.toList = _
  rw [stop]
  decide +kernel

end WorkQueue

end SpanWeave
