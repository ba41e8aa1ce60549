import Mathlib.Algebra.BigOperators.Group.List.Lemmas
import Mathlib.Algebra.GroupWithZero.Nat
import SpanWeave.Proofs.WorkQueue.Counters
import SpanWeave.Proofs.WorkQueue.Fifo
import SpanWeave.Proofs.WorkQueue.Tickets

set_option autoImplicit false

/-!
# Exactly once

Without workers, whatever a queue is asked for and whatever its jobs hand in, each job that was
handed in waits once and has not started, or has started once and does not wait; the counters say
so. When the queue is stopped all jobs have run, and all that is handed in later runs at once.
-/
namespace SpanWeave
variable {α : Type}

namespace Moment

def allHanded (ms : List (Moment α)) : List α := (ms.filter (!·.starts)).map (·.effect)

def allBegun (ms : List (Moment α)) : List α := (ms.filter (·.starts)).map (·.effect)

theorem allHanded_append (ms more : List (Moment α)) :
    allHanded (ms ++ more) = allHanded ms ++ allHanded more := by
  rw [allHanded, List.filter_append, List.map_append]
  rfl

theorem allBegun_append (ms more : List (Moment α)) :
    allBegun (ms ++ more) = allBegun ms ++ allBegun more := by
  rw [allBegun, List.filter_append, List.map_append]
  rfl

end Moment

namespace WorkQueue
open Moment

/-! ## What was handed in has started or waits -/

/-- The jobs that wait, those not counted that they will hand in. -/
def heads (q : WorkQueue α) : List α := q.waiting.map (·.job.effect)

/-- What waited and what was handed in has started, or waits; counted by whatever property. -/
def Settles (q q' : WorkQueue α) (ms : List (Moment α)) : Prop :=
  ∀ f : α → Bool, q.heads.countP f + (allHanded ms).countP f =
    (allBegun ms).countP f + q'.heads.countP f

namespace Settles
variable {q q' q'' : WorkQueue α} {ms more : List (Moment α)}

theorem quiet (same : q'.heads.Perm q.heads) : q.Settles q' [] := by
  intro f
  change _ + 0 = 0 + _
  rw [same.countP_eq, Nat.add_comm]

theorem trans (h : q.Settles q' ms) (k : q'.Settles q'' more) : q.Settles q'' (ms ++ more) := by
  intro f
  have first := h f
  have second := k f
  rw [allHanded_append, allBegun_append, List.countP_append, List.countP_append]
  omega

theorem handIn (script : Script α) (q : WorkQueue α) :
    q.Settles (WorkQueue.handIn script q) (handInMoments script q) := by
  induction script generalizing q with
  | done => exact quiet (.refl _)
  | job owner effect followUps fails rest ihFollowUps ihRest =>
    rw [WorkQueue.handIn, handInMoments]
    split
    · have first : q.Settles (q.account.start effect)
          [⟨false, q.account.stopped, owner, effect⟩, ⟨true, q.account.stopped, owner, effect⟩] :=
        fun _ => Nat.add_comm _ _
      have done : (WorkQueue.handIn followUps (q.account.start effect)).Settles
          ((WorkQueue.handIn followUps (q.account.start effect)).finish fails) [] := quiet (.refl _)
      have own := (ihFollowUps (q.account.start effect)).trans done
      rw [List.append_nil] at own
      exact first.trans (own.trans (ihRest _))
    · have first : q.Settles (q.account.enqueue owner ⟨effect, followUps, fails⟩)
          [⟨false, q.account.stopped, owner, effect⟩] := by
        have added : (q.account.enqueue owner ⟨effect, followUps, fails⟩).heads =
            q.heads ++ [effect] := by
          cases owner with
          | some owner => exact List.map_append
          | none => exact List.map_append
        intro f
        rw [added, List.countP_append]
        exact (Nat.zero_add _).symm
      exact first.trans (ihRest _)

theorem run (q : WorkQueue α) (p : Parcel α) (f : α → Bool) :
    q.heads.countP f + [p.job.effect].countP f + (allHanded (runMoments q p)).countP f =
      (allBegun (runMoments q p)).countP f + (q.run p.job).heads.countP f := by
  have own := handIn p.job.followUps (q.start p.job.effect) f
  have begins : allBegun (runMoments q p) = [p.job.effect] ++
    allBegun (handInMoments p.job.followUps (q.start p.job.effect)) := rfl
  change q.heads.countP f + _ = _ + (q.run p.job).heads.countP f at own
  change _ + (allHanded (handInMoments p.job.followUps (q.start p.job.effect))).countP f = _
  rw [begins, List.countP_append]
  omega

theorem lane (lane limit : Nat) (q : WorkQueue α) :
    q.Settles (runLane lane limit q) (laneMoments lane limit q) := by
  induction limit generalizing q with
  | zero => exact quiet (.refl _)
  | succ limit ih =>
    rw [runLane, laneMoments, step?]
    cases found : takeFirst lane q.waiting with
    | none => exact quiet (.refl _)
    | some pair =>
      obtain ⟨p, rest⟩ := pair
      obtain ⟨_, before, after, whole, rfl, _⟩ := takeFirst_split found
      have taken : q.heads.Perm ([p.job.effect] ++ (q.holding (before ++ after)).heads) := by
        change (q.waiting.map _).Perm (_ ++ (before ++ after).map _)
        rw [whole, List.map_append, List.map_append]
        exact List.perm_middle
      have ran : q.Settles ((q.holding (before ++ after)).run p.job)
          (runMoments (q.holding (before ++ after)) p) := by
        intro f
        have own := run (q.holding (before ++ after)) p f
        rw [taken.countP_eq, List.countP_append]
        omega
      exact ran.trans (ih _)

theorem drain (ps : List (Parcel α)) (q : WorkQueue α) (f : α → Bool) :
    q.heads.countP f + (ps.map (·.job.effect)).countP f +
        (allHanded (drainMoments ps q)).countP f =
      (allBegun (drainMoments ps q)).countP f +
        (ps.foldl (fun q p => q.run p.job) q).heads.countP f := by
  induction ps generalizing q with
  | nil => exact Nat.add_comm _ _
  | cons p ps ih =>
    have first := run q p f
    have others := ih (q.run p.job)
    have split : (p :: ps).map (·.job.effect) = [p.job.effect] ++ ps.map (·.job.effect) := rfl
    rw [drainMoments, allHanded_append, allBegun_append, List.countP_append, List.countP_append,
      split, List.countP_append, List.foldl_cons]
    omega

theorem stop (laned : q.Laned) : q.Settles q.stop (q.moments .stop) := by
  cases stopped : q.stopped with
  | true =>
    have nothing : q.moments .stop = [] := if_pos stopped
    rw [nothing, stop_of_stopped stopped]
    exact quiet (.refl _)
  | false =>
    have sorted : (q.drained.map (·.job.effect)).Perm q.heads := by
      rw [drained, halted_of_laned laned]
      exact (List.mergeSort_perm _ _).map _
    intro f
    have all := drain q.drained (q.halted.holding []) f
    rw [sorted.countP_eq] at all
    rw [moments_stop stopped, stop_of_running stopped, ← all]
    exact congrArg (· + _) (Nat.zero_add _).symm

theorem ask (laned : q.Laned) (request : Request α) :
    q.Settles (q.ask request) (q.moments request) := by
  have ticked : ∀ script : Script α,
      q.Settles (WorkQueue.handIn script q).tick (handInMoments script q) := by
    intro script
    rw [tick_of_laned (Passes.handIn script laned).laned]
    exact handIn script q
  cases request with
  | submit owner job => exact ticked _
  | spawn job => exact ticked _
  | flush owner =>
    have flush : q.ask (.flush owner) = runLane (q.laneOf owner) q.weight q := if_pos laned.workers
    rw [flush]
    exact lane _ _ q
  | stop => exact stop laned

theorem askAll (h : q.Standing) (requests : List (Request α)) :
    q.Settles (q.askAll requests) (allMoments requests q) := by
  induction requests generalizing q with
  | nil => exact quiet (.refl _)
  | cons request requests ih => exact (ask h.laned request).trans (ih (h.ask request).2)

end Settles

/-! ## The counters of jobs with tickets -/

/-- The counters of a queue in which the jobs of `running` have started and are not done. -/
structure Tallied (q : WorkQueue (Ticket α)) (running : List Bool) : Prop where
  told : ∀ p ∈ q.waiting, p.job.Each Job.Told
  executed : q.executed + running.length = q.started.size
  failed : q.failed + running.countP id = q.started.toList.countP (·.fails)

theorem upkeep_tallied :
    Upkeep Job.Told fun _ r (q : WorkQueue (Ticket α)) => q.Tallied r where
  account h := ⟨h.told, h.executed, h.failed⟩
  start {_ running q j} told' h := by
    obtain ⟨told, executed, failed⟩ := h
    refine ⟨told, ?_, ?_⟩
    · change q.executed + (running.length + 1) = (q.started.push j.effect).size
      rw [Array.size_push]
      omega
    · change q.failed + (j.fails :: running).countP id = (q.started.push j.effect).toList.countP _
      rw [Array.toList_push, List.countP_append, ← failed, List.countP_singleton, told',
        List.countP_cons, Nat.add_assoc]
      rfl
  finish {_ running q fails} h := by
    obtain ⟨told, executed, failed⟩ := h
    refine ⟨told, ?_, ?_⟩
    · change q.executed + 1 + running.length = q.started.size
      rw [← executed, List.length_cons]
      omega
    · change q.failed + (if fails then 1 else 0) + running.countP id = q.started.toList.countP _
      rw [← failed, List.countP_cons]
      change _ = q.failed + (_ + if fails then 1 else 0)
      omega
  enqueue owner j each h := by
    obtain ⟨told, executed, failed⟩ := h
    have added : ∀ (ps : List (Parcel (Ticket α))) owner lane, (∀ p ∈ ps, p.job.Each Job.Told) →
        ∀ p ∈ ps ++ [⟨owner, lane, j⟩], p.job.Each Job.Told := by
      intro ps owner lane told
      exact List.forall_mem_append.mpr ⟨told, List.forall_mem_singleton.mpr each⟩
    cases owner with
    | some owner => exact ⟨added _ _ _ told, executed, failed⟩
    | none => exact ⟨added _ _ _ told, executed, failed⟩
  taken {_ _ q before p after} h whole := by
    obtain ⟨told, executed, failed⟩ := h
    rw [whole] at told
    obtain ⟨first, others⟩ := List.forall_mem_append.mp told
    obtain ⟨own, last⟩ := List.forall_mem_cons.mp others
    exact ⟨own, List.forall_mem_append.mpr ⟨first, last⟩, executed, failed⟩
  turns _ h := ⟨h.told, h.executed, h.failed⟩
  stopped h := ⟨h.told, h.executed, h.failed⟩

/-! ## A queue from its start -/

theorem Settles.perm {q q' : WorkQueue α} {ms : List (Moment α)} (h : q.Settles q' ms)
    (empty : q.waiting = []) : (allHanded ms).Perm (allBegun ms ++ q'.heads) := by
  classical
  refine List.perm_iff_count.mpr fun a => ?_
  have counted := h (· == a)
  rw [heads, empty] at counted
  rw [List.count_append]
  exact (Nat.zero_add _).symm.trans counted

theorem ledger_stop (q : WorkQueue α) : q.stop.ledger.Perm q.ledger := by
  cases stopped : q.stopped with
  | true => rw [stop_of_stopped stopped]
  | false =>
    obtain ⟨started, waiting⟩ := started_stop stopped
    rw [ledger, outstanding, waiting, List.flatMap_nil, List.append_nil]
    exact started

/-- What has started and what is still to come is what was asked for. -/
theorem ledger_askAll (q : WorkQueue α) (requests : List (Request α)) :
    (q.askAll requests).ledger.Perm (q.ledger ++ Request.effects requests) := by
  induction requests generalizing q with
  | nil => exact .of_eq (List.append_nil _).symm
  | cons request requests ih =>
    have first : (q.ask request).ledger.Perm
        (q.ledger ++ (request.job?.map Job.effects).getD []) := by
      cases request with
      | submit owner job => exact (Conserves.submit q owner job).ledger
      | spawn job => exact (Conserves.spawn q job).ledger
      | flush owner => exact (Conserves.flush q owner).ledger
      | stop => exact (ledger_stop q).trans (.of_eq (List.append_nil _).symm)
    refine (ih (q.ask request)).trans ((first.append_right _).trans (.of_eq ?_))
    rw [Request.effects, Request.effects, List.flatMap_cons, List.append_assoc]

theorem heads_sublist (q : WorkQueue α) : q.heads.Sublist q.outstanding := by
  have all : ∀ ps : List (Parcel α),
      (ps.map (·.job.effect)).Sublist (ps.flatMap (·.job.effects)) := by
    intro ps
    induction ps with
    | nil => exact .slnil
    | cons p ps ih =>
      rw [List.flatMap_cons, List.map_cons, Job.effects, List.cons_append]
      exact (ih.trans (List.sublist_append_right _ _)).cons_cons _
  exact all q.waiting

theorem upkeep_stopped :
    Upkeep (fun _ : Job α => True) fun _ _ (q : WorkQueue α) => q.stopped = true where
  account h := h
  start _ h := h
  finish h := h
  enqueue owner _ _ h := by cases owner <;> exact h
  taken h _ := ⟨Job.each_true _, h⟩
  turns _ h := h
  stopped _ := rfl

theorem stopped_askAll {q : WorkQueue α} {requests : List (Request α)}
    (asked : Request.stop ∈ requests) : (q.askAll requests).stopped = true := by
  obtain ⟨before, after, rfl⟩ := List.append_of_mem asked
  have stopped : (q.askAll before).stop.stopped = true := by
    unfold stop
    split
    · assumption
    · exact upkeep_stopped.drain (r := []) (n := 0) (fun p _ => p.job.each_true)
        (upkeep_stopped.tick (r := []) (n := 0) rfl)
  have whole : q.askAll (before ++ .stop :: after) = (q.askAll before).stop.askAll after :=
    List.foldl_append
  rw [whole]
  exact upkeep_stopped.askAll (r := []) (n := 0) (fun _ _ j _ => j.each_true) stopped

def owners (q : WorkQueue α) : List ThreadId := (q.waiting.filterMap (·.owner)).dedup

def timesStarted (q : WorkQueue (Ticket α)) (number : Nat) : Nat :=
  (q.started.toList.map (·.number)).count number

def timesQueued (q : WorkQueue (Ticket α)) (owner : ThreadId) (number : Nat) : Nat :=
  ((queued owner q.waiting).map (·.number)).count number

/-- What a queue shows of its jobs after those of the tickets `handed` were handed in. -/
structure ExactlyOnce (q : WorkQueue (Ticket α)) (handed : List (Ticket α)) : Prop where
  distinct : (handed.map (·.number)).Nodup
  /-- What was handed in has started or waits, and nothing else. -/
  settled : handed.Perm (q.started.toList ++ q.waiting.map (·.job.effect))
  handedIn : q.submitted = handed.length
  submitted : q.submitted = q.executed + q.pending
  pending : q.pending = (q.owners.map fun owner => (queued owner q.waiting).length).sum
  executed : q.executed = q.started.size
  failed : q.failed = q.started.toList.countP (·.fails)
  once : ∀ ticket ∈ handed,
    (q.timesStarted ticket.number = 1 ∧ ∀ owner, q.timesQueued owner ticket.number = 0) ∨
      (q.timesStarted ticket.number = 0 ∧ ∃ owner, q.timesQueued owner ticket.number = 1 ∧
        ∀ other, other ≠ owner → q.timesQueued other ticket.number = 0)

/-- What a queue that was stopped shows after all jobs of `tickets` were handed in. -/
structure Ended (q : WorkQueue (Ticket α)) (tickets : List (Ticket α)) : Prop where
  pending : q.pending = 0
  waiting : q.waiting = []
  started : q.started.toList.Perm tickets
  distinct : (tickets.map (·.number)).Nodup
  again : q.stop = q

/-- Without workers the queues of the owners are all that waits. -/
theorem Laned.length_waiting {q : WorkQueue α} (laned : q.Laned) :
    q.waiting.length = (q.owners.map fun owner => (queued owner q.waiting).length).sum := by
  have owned : (q.waiting.filterMap (·.owner)).length = q.waiting.length := by
    refine List.filterMap_length_eq_length.mpr fun p member => ?_
    obtain ⟨owner, own, _⟩ := laned.lanes p member
    rw [own]
    rfl
  have each : ∀ owner, (queued owner q.waiting).length =
      (q.waiting.filterMap (·.owner)).count owner := by
    intro owner
    calc (queued owner q.waiting).length
        = q.waiting.countP (·.owner == some owner) := by
          rw [queued, List.length_map, List.countP_eq_length_filter]
      _ = q.waiting.countP fun p => (p.owner.map (· == owner)).getD false :=
          List.countP_congr fun p _ => by cases p.owner <;> simp
      _ = (q.waiting.filterMap (·.owner)).count owner := List.countP_filterMap.symm
  simp only [each]
  rw [owners, List.sum_map_count_dedup_eq_length, owned]

/-- A job that waits among jobs of other numbers waits once, for its owner. -/
theorem Laned.queued_once {q : WorkQueue (Ticket α)} (laned : q.Laned)
    (distinct : (q.heads.map (·.number)).Nodup) {ticket : Ticket α} (waits : ticket ∈ q.heads) :
    ∃ owner, q.timesQueued owner ticket.number = 1 ∧
      ∀ other, other ≠ owner → q.timesQueued other ticket.number = 0 := by
  obtain ⟨p, member, rfl⟩ := List.mem_map.mp waits
  obtain ⟨owner, own, _⟩ := laned.lanes p member
  have part : ∀ owner, ((queued owner q.waiting).map (·.number)).Nodup := fun owner =>
    distinct.sublist ((List.filter_sublist.map _).map _)
  have here : p.job.effect.number ∈ (queued owner q.waiting).map (·.number) :=
    List.mem_map_of_mem (List.mem_map_of_mem (List.mem_filter.mpr ⟨member, beq_iff_eq.mpr own⟩))
  refine ⟨owner, List.count_eq_one_of_mem (part owner) here, fun other differs => ?_⟩
  refine List.count_eq_zero.mpr fun elsewhere => differs ?_
  obtain ⟨_, named, same⟩ := List.mem_map.mp elsewhere
  obtain ⟨p', found, rfl⟩ := List.mem_map.mp named
  obtain ⟨member', own'⟩ := List.mem_filter.mp found
  rw [heads, List.map_map] at distinct
  have eq : p' = p := List.inj_on_of_nodup_map distinct member' member same
  exact Option.some.inj ((beq_iff_eq.mp own').symm.trans (eq ▸ own))

theorem Settles.exactlyOnce {q : WorkQueue (Ticket α)} {handed : List (Ticket α)}
    (laned : q.Laned) (counted : q.Counted 0) (tallied : q.Tallied [])
    (handedIn : q.submitted = handed.length)
    (settled : handed.Perm (q.started.toList ++ q.heads))
    (distinct : ((q.started.toList ++ q.heads).map (·.number)).Nodup) : q.ExactlyOnce handed where
  distinct := (settled.map _).nodup_iff.mpr distinct
  settled := settled
  handedIn := handedIn
  submitted := counted.submitted
  pending := counted.pending.trans laned.length_waiting
  executed := tallied.executed
  failed := tallied.failed
  once ticket member := by
    rw [List.map_append] at distinct
    obtain ⟨startedOnce, waitsOnce, apart⟩ := List.nodup_append.mp distinct
    rcases List.mem_append.mp (settled.mem_iff.mp member) with started | waits
    · have has := List.mem_map_of_mem (f := Ticket.number) started
      refine .inl ⟨List.count_eq_one_of_mem startedOnce has, fun owner => ?_⟩
      refine List.count_eq_zero.mpr fun queued => ?_
      exact apart _ has _ (((List.filter_sublist.map _).map _).subset queued) rfl
    · have has := List.mem_map_of_mem (f := Ticket.number) waits
      refine .inr ⟨List.count_eq_zero.mpr fun started => ?_, laned.queued_once waitsOnce waits⟩
      exact apart _ started _ has rfl

theorem askAll?_eq {q : WorkQueue α} (h : q.Standing) (counted : q.Counted 0)
    (requests : List (Request α)) : q.askAll? requests = some (q.askAll requests) := by
  induction requests generalizing q with
  | nil => rfl
  | cons request requests ih =>
    have next : (q.ask request).Counted 0 := counted.askAll [request]
    rw [askAll?, List.foldlM_cons, counted.ask? h.laned.workers]
    exact ih (h.ask request).2 next

/-- A queue is asked for whatever: with tickets for its jobs it runs as it does without, and its
counter of pending jobs never goes below zero. Each job that was handed in waits in one queue and
has not started, or has started once; where the queue was stopped, all jobs have. -/
theorem runs_exactlyOnce (warnAbove : Option Nat) (requests : List (Request α)) :
    let tickets := Request.numberAll 0 requests
    let q := ({ warnAbove } : WorkQueue (Ticket α)).askAll tickets
    q.map (·.effect) = ({ warnAbove } : WorkQueue α).askAll requests ∧
      ({ warnAbove } : WorkQueue (Ticket α)).askAll? tickets = some q ∧
      q.ExactlyOnce (allHanded (allMoments tickets { warnAbove })) ∧
      (Request.stop ∈ requests → q.Ended (Request.effects tickets)) := by
  intro tickets q
  have standing : ({ warnAbove } : WorkQueue (Ticket α)).Standing :=
    ⟨⟨rfl, List.forall_mem_nil _⟩, fun _ => rfl⟩
  have counted : ({ warnAbove } : WorkQueue (Ticket α)).Counted 0 := ⟨rfl, rfl⟩
  obtain ⟨passes, last⟩ := standing.askAll tickets
  have tallied : q.Tallied [] := upkeep_tallied.askAll (n := 0) (Request.told_numberAll 0 requests)
    ⟨List.forall_mem_nil _, rfl, rfl⟩
  have ledger : q.ledger.Perm (Request.effects tickets) := ledger_askAll { warnAbove } tickets
  have numbers : (q.ledger.map (·.number)).Nodup :=
    (ledger.map _).nodup_iff.mpr (Request.nodup_numberAll 0 requests)
  refine ⟨?_, askAll?_eq standing counted tickets, ?_, fun asked => ?_⟩
  · have fresh : ({ warnAbove } : WorkQueue (Ticket α)).map (·.effect) = { warnAbove } := by
      simp [WorkQueue.map]
    rw [← map_askAll, fresh, Request.map_numberAll]
  · -- not all tickets were handed in yet, since jobs that wait still keep those of their own
    have settled := (Settles.askAll standing tickets).perm rfl
    have begun : allBegun (allMoments tickets { warnAbove }) = q.started.toList :=
      passes.started.symm
    rw [begun] at settled
    have part := (heads_sublist q).append_left q.started.toList
    refine Settles.exactlyOnce last.laned (counted.askAll tickets) tallied ?_ settled
      (numbers.sublist (part.map _))
    rw [allHanded, List.length_map, ← List.countP_eq_length_filter]
    exact passes.submitted.trans (Nat.zero_add _)
  · have stopped : q.stopped = true := by
      rw [← Request.map_numberAll 0 requests] at asked
      obtain ⟨request, member, isStop⟩ := List.mem_map.mp asked
      cases request with
      | stop => exact stopped_askAll member
      | submit | spawn | flush => cases isStop
    have waiting := last.empty stopped
    have started : q.ledger = q.started.toList := by
      rw [WorkQueue.ledger, outstanding, waiting]
      exact List.append_nil _
    refine ⟨?_, waiting, started ▸ ledger, (ledger.map _).nodup_iff.mp numbers,
      stop_of_stopped stopped⟩
    exact (counted.askAll tickets).pending.trans (congrArg List.length waiting)

/-- A job that fails hands in one for its owner and one of nobody that fails too; another one hands
in its follow-up while the queue is being stopped, and the last one comes after it. -/
theorem exactlyOnce_of_failing_jobs :
    let requests : List (Request Nat) :=
      [.submit 1 ⟨10, .job (some 1) 11 .done false (.job none 20 .done true .done), true⟩, .flush 1,
        .submit 2 ⟨12, .job (some 2) 13 .done false .done, false⟩, .stop, .spawn ⟨14, .done, false⟩]
    let q := ({} : WorkQueue (Ticket Nat)).askAll (Request.numberAll 0 requests)
    (q.started.toList.map (·.number)).Perm [0, 1, 2, 3, 4, 5] ∧ q.failed = 2 ∧ q.executed = 6 ∧
      q.pending = 0 ∧ q.stop = q := by
  intro requests q
  have asked : Request.stop ∈ requests := by simp [requests]
  obtain ⟨_, _, once, ended⟩ := runs_exactlyOnce none requests
  obtain ⟨pending, _, started, _, again⟩ := ended asked
  refine ⟨started.map _, once.failed.trans (started.countP_eq _), ?_, pending, again⟩
  exact once.executed.trans started.length_eq

end WorkQueue

end SpanWeave
