import SpanWeave.Proofs.Engine.Views
import SpanWeave.Proofs.WorkQueue.Conservation
import SpanWeave.Proofs.WorkQueue.Counters

set_option autoImplicit false

/-!
# The bench

The queue of deferred work and the sinks, on which deeds are done while workers take what waits.
Whenever the workers take it: once all work is done, the view of the sinks is the one that they
would give if every deed had been done to them at once.
-/
namespace SpanWeave

/-! ## Plain work -/

/-- The job hands in nothing and does not fail. -/
def Job.Plain {α : Type} (j : Job α) : Prop := j.followUps = .done ∧ j.fails = false

namespace WorkQueue
variable {α : Type}

/-- A queue of plain jobs that had executed `past` of them when it last handed over its starts. -/
structure Plainly (q : WorkQueue α) (past : Nat) (running : List Bool) : Prop where
  plain : ∀ p ∈ q.waiting, p.job.Each Job.Plain
  executed : q.executed + running.length = past + q.started.size
  failed : q.failed = 0
  fine : ∀ fails ∈ running, fails = false

theorem upkeep_plainly (past : Nat) :
    Upkeep Job.Plain fun _ r (q : WorkQueue α) => q.Plainly past r where
  account h := ⟨h.plain, h.executed, h.failed, h.fine⟩
  start {_ running q j} isPlain h := by
    obtain ⟨plain, executed, failed, fine⟩ := h
    refine ⟨plain, ?_, failed, List.forall_mem_cons.mpr ⟨isPlain.2, fine⟩⟩
    change q.executed + (running.length + 1) = past + (q.started.push j.effect).size
    rw [Array.size_push]
    omega
  finish {_ running q fails} h := by
    obtain ⟨plain, executed, failed, fine⟩ := h
    obtain ⟨rfl, others⟩ := List.forall_mem_cons.mp fine
    refine ⟨plain, ?_, failed, others⟩
    change q.executed + 1 + running.length = past + q.started.size
    rw [← executed, List.length_cons]
    omega
  enqueue owner j each h := by
    obtain ⟨plain, executed, failed, fine⟩ := h
    have added : ∀ (ps : List (Parcel α)) owner lane, (∀ p ∈ ps, p.job.Each Job.Plain) →
        ∀ p ∈ ps ++ [⟨owner, lane, j⟩], p.job.Each Job.Plain := by
      intro ps owner lane plain
      exact List.forall_mem_append.mpr ⟨plain, List.forall_mem_singleton.mpr each⟩
    cases owner with
    | some owner => exact ⟨added _ _ _ plain, executed, failed, fine⟩
    | none => exact ⟨added _ _ _ plain, executed, failed, fine⟩
  taken {_ _ q before p after} h whole := by
    obtain ⟨plain, executed, failed, fine⟩ := h
    rw [whole] at plain
    obtain ⟨first, others⟩ := List.forall_mem_append.mp plain
    obtain ⟨own, last⟩ := List.forall_mem_cons.mp others
    exact ⟨own, List.forall_mem_append.mpr ⟨first, last⟩, executed, failed, fine⟩
  turns _ h := ⟨h.plain, h.executed, h.failed, h.fine⟩
  stopped h := ⟨h.plain, h.executed, h.failed, h.fine⟩

theorem Plainly.length_outstanding {q : WorkQueue α} {past : Nat} {running : List Bool}
    (h : q.Plainly past running) : q.outstanding.length = q.waiting.length := by
  have all : ∀ ps : List (Parcel α), (∀ p ∈ ps, p.job.Each Job.Plain) →
      (ps.flatMap (·.job.effects)).length = ps.length := by
    intro ps
    induction ps with
    | nil => exact fun _ => rfl
    | cons p ps ih =>
      intro plain
      obtain ⟨first, others⟩ := List.forall_mem_cons.mp plain
      have longer : (p :: ps).length = ps.length + 1 := rfl
      rw [List.flatMap_cons, Job.effects, first.1.1, List.length_append, ih others, longer,
        Nat.add_comm]
      rfl
  exact all q.waiting h.plain

end WorkQueue

/-! ## Deeds -/

structure Bench where
  work : WorkQueue Deferred
  sinks : Sinks

/-- What the deed tells the sinks, if nothing is deferred. -/
def Deed.prompt : Deed → List Notice
  | .notice n => [n]
  | .flush _ => []
  | .submit _ work | .spawn work => work.notices

def Deed.given : Deed → List Deferred
  | .notice _ | .flush _ => []
  | .submit _ work | .spawn work => [work]

def Engine.bench (e : Engine) : Bench := ⟨e.work, e.sinks⟩

namespace Bench

def settle (b : Bench) (work : WorkQueue Deferred) : Bench where
  work := { work with started := #[], warnings := #[] }
  sinks := work.started.foldl Sinks.perform b.sinks

def act (b : Bench) : Deed → Bench
  | .notice n => { b with sinks := b.sinks.take n }
  | .flush owner => b.settle (b.work.flush owner)
  | .submit owner work => b.settle (b.work.submit owner { effect := work })
  | .spawn work => b.settle (b.work.spawn { effect := work })

def actAll (b : Bench) (deeds : List Deed) : Bench := deeds.foldl act b

end Bench

theorem Engine.bench_actAll (e : Engine) (deeds : List Deed) :
    (e.actAll deeds).bench = e.bench.actAll deeds := by
  induction deeds generalizing e with
  | nil => rfl
  | cons d deeds ih =>
    have first : (e.act d).bench = e.bench.act d := by cases d <;> rfl
    exact (ih (e.act d)).trans (congrArg (·.actAll deeds) first)

/-! ## What every notice keeps -/

/-- Deferred work is told to the sinks in notices. -/
theorem Sinks.perform_eq (s : Sinks) (d : Deferred) : s.perform d = d.notices.foldl take s := by
  cases d <;> rfl

namespace Bench
variable {P : Sinks → Prop}

theorem kept_settle (kept : ∀ s n, n.IsFree → P s → P (Sinks.take s n)) {b : Bench}
    (h : P b.sinks) (work : WorkQueue Deferred) : P (b.settle work).sinks := by
  change P (work.started.foldl Sinks.perform b.sinks)
  rw [← Array.foldl_toList]
  refine List.foldlRecOn (motive := P) _ _ h fun s before d _ => ?_
  rw [s.perform_eq]
  exact List.foldlRecOn (motive := P) _ _ before fun s before n member =>
    kept s n (d.free n member) before

theorem kept_act (kept : ∀ s n, P s → P (Sinks.take s n)) {b : Bench} (h : P b.sinks) (d : Deed) :
    P (b.act d).sinks := by
  cases d with
  | notice n => exact kept b.sinks n h
  | flush | submit | spawn => exact kept_settle (fun s n _ => kept s n) h _

theorem kept_actAll (kept : ∀ s n, P s → P (Sinks.take s n)) {b : Bench} (h : P b.sinks)
    (deeds : List Deed) : P (b.actAll deeds).sinks :=
  List.foldlRecOn (motive := fun b : Bench => P b.sinks) _ _ h fun _ before d _ =>
    kept_act kept before d

end Bench

/-- Whether there is a sink for durations never changes. -/
theorem Sinks.listens_take {listens : Bool} (s : Sinks) (n : Notice)
    (h : s.durations.isSome = listens) : (s.take n).durations.isSome = listens := by
  cases n with
  | records name duration => exact Option.isSome_map.trans h
  | begins | ends | discards | completes | marks => exact h

theorem Sinks.spans_take_of_none (s : Sinks) (n : Notice) (h : s.spans = none) :
    (s.take n).spans = none := by
  cases n with
  | begins | ends | discards | completes =>
    change s.spans.map _ = none
    rw [h]
    rfl
  | marks | records => exact h

namespace Bench

/-! ## Workers -/

/-- The deeds are done in order, and before each of them, and after the last one, workers may take
what is first in their lanes. -/
inductive Performs : Bench → List Deed → Bench → Prop
  | done (b : Bench) : Performs b [] b
  | deed {b b' : Bench} {d : Deed} {deeds : List Deed} (later : Performs (b.act d) deeds b') :
      Performs b (d :: deeds) b'
  | worker {b b' : Bench} {deeds : List Deed} {lane : Nat} {work : WorkQueue Deferred}
      (taken : b.work.step? lane = some work) (later : Performs (b.settle work) deeds b') :
      Performs b deeds b'

theorem performs_actAll (b : Bench) (deeds : List Deed) : b.Performs deeds (b.actAll deeds) := by
  induction deeds generalizing b with
  | nil => exact .done b
  | cons d deeds ih => exact .deed (ih (b.act d))

theorem Performs.listens {b b' : Bench} {deeds : List Deed} (done : b.Performs deeds b') :
    b'.sinks.durations.isSome = b.sinks.durations.isSome := by
  induction done with
  | done b => rfl
  | deed _ ih => exact ih.trans (kept_act Sinks.listens_take rfl _)
  | worker _ _ ih => exact ih.trans (kept_settle (fun s n _ => s.listens_take n) rfl _)

/-- A bench between two deeds: the queue takes work and has handed over what it has started. -/
structure Tidy (b : Bench) : Prop where
  untimed : b.sinks.scope.timeline = false
  settled : b.work.started = #[]
  running : b.work.stopped = false
  counted : b.work.Counted 0
  plainly : b.work.Plainly b.work.executed []

/-- The view that the sinks will give when all work is done. -/
def caughtUp (b : Bench) : Sinks.View := b.sinks.view.performAll b.work.outstanding

/-- How a bench goes on: what the sinks will show, and how much work came in. -/
structure Advances (b b' : Bench) (notices : List Notice) (given : Nat) : Prop where
  tidy : b'.Tidy
  caughtUp : b'.caughtUp = b.caughtUp.takeAll notices
  submitted : b'.work.submitted = b.work.submitted + given

namespace Advances
variable {b b' b'' : Bench} {ns more : List Notice} {given given' : Nat}

theorem refl (tidy : b.Tidy) : b.Advances b [] 0 := ⟨tidy, rfl, rfl⟩

theorem trans (h : b.Advances b' ns given) (k : b'.Advances b'' more given') :
    b.Advances b'' (ns ++ more) (given + given') where
  tidy := k.tidy
  caughtUp := by rw [k.caughtUp, h.caughtUp, Sinks.View.takeAll_append]
  submitted := by rw [k.submitted, h.submitted, Nat.add_assoc]

end Advances

namespace Tidy
variable {b b' : Bench}

theorem view_settle (h : b.Tidy) (work : WorkQueue Deferred) :
    (b.settle work).sinks.view = b.sinks.view.performAll work.started.toList ∧
      (b.settle work).sinks.scope = b.sinks.scope := by
  change (work.started.foldl Sinks.perform b.sinks).view = _ ∧
    (work.started.foldl Sinks.perform b.sinks).scope = _
  rw [← Array.foldl_toList]
  exact b.sinks.view_performAll h.untimed work.started.toList

theorem ledger (h : b.Tidy) : b.work.ledger = b.work.outstanding := by
  rw [WorkQueue.ledger, h.settled]
  rfl

theorem account (h : b.Tidy) {work : WorkQueue Deferred} {given : List Deferred}
    (moved : work.ledger.Perm (b.work.ledger ++ given)) (counted : work.Counted 0)
    (plainly : work.Plainly b.work.executed []) :
    (b.settle work).sinks.view.performAll work.outstanding = b.caughtUp.performAll given ∧
      work.submitted = b.work.submitted + given.length := by
  -- what was started and what is outstanding are what was outstanding and what came in, in another
  -- order; the view does not see the order
  rw [h.ledger] at moved
  constructor
  · rw [(h.view_settle work).1, ← Sinks.View.performAll_append, caughtUp,
      ← Sinks.View.performAll_append]
    exact Sinks.View.performAll_perm _ moved
  · have length := moved.length_eq
    rw [WorkQueue.ledger, List.length_append, List.length_append, plainly.length_outstanding,
      h.plainly.length_outstanding, Array.length_toList] at length
    have executed := plainly.executed
    rw [List.length_nil] at executed
    rw [counted.submitted, counted.pending, h.counted.submitted, h.counted.pending]
    omega

theorem settle (h : b.Tidy) {work : WorkQueue Deferred} {given : List Deferred}
    (kept : b.work.Conserves work given) (counted : work.Counted 0)
    (plainly : work.Plainly b.work.executed []) :
    b.Advances (b.settle work) (given.flatMap Deferred.notices) given.length := by
  obtain ⟨view, submitted⟩ := h.account kept.ledger counted plainly
  refine ⟨⟨?_, rfl, kept.stopped.trans h.running, ⟨counted.pending, counted.submitted⟩,
    ⟨plainly.plain, rfl, plainly.failed, plainly.fine⟩⟩, ?_, submitted⟩
  · rw [(h.view_settle work).2]
    exact h.untimed
  · exact view.trans (b.caughtUp.performAll_eq given)

theorem act (h : b.Tidy) (d : Deed) : b.Advances (b.act d) d.prompt d.given.length := by
  have plain : ∀ x : Deferred, Job.Each Job.Plain { effect := x } := fun _ =>
    ⟨⟨rfl, rfl⟩, trivial⟩
  have counted : ∀ request, (b.work.ask request).Counted 0 := fun request =>
    h.counted.askAll [request]
  have plainly : ∀ request : Request Deferred, (∀ j ∈ request.job?, j.Each Job.Plain) →
      (b.work.ask request).Plainly b.work.executed [] := fun _ each =>
    (WorkQueue.upkeep_plainly b.work.executed).ask (n := 0) each h.plainly
  have alone : ∀ x : Deferred,
      (Job.effects { effect := x }).flatMap Deferred.notices = x.notices := fun x =>
    List.flatMap_singleton _ x
  cases d with
  | notice n =>
    refine ⟨⟨?_, h.settled, h.running, h.counted, h.plainly⟩, ?_, rfl⟩
    · rw [Bench.act, Sinks.scope_take]
      exact h.untimed
    · change (b.sinks.take n).view.performAll b.work.outstanding = b.caughtUp.takeAll [n]
      rw [Sinks.view_take b.sinks h.untimed]
      exact b.sinks.view.performAll_takeAll b.work.outstanding [n]
  | flush owner =>
    exact h.settle (.flush b.work owner) (counted (.flush owner))
      (plainly (.flush owner) fun _ none => nomatch none)
  | submit owner x =>
    have went := h.settle (.submit b.work owner { effect := x }) (counted (.submit owner _))
      (plainly (.submit owner { effect := x }) fun j own => Option.some.inj own ▸ plain x)
    rw [alone] at went
    exact went
  | spawn x =>
    have went := h.settle (.spawn b.work { effect := x }) (counted (.spawn _))
      (plainly (.spawn { effect := x }) fun j own => Option.some.inj own ▸ plain x)
    rw [alone] at went
    exact went

/-- A worker that takes what is first in its lane only does what was to be done. -/
theorem worker (h : b.Tidy) {lane : Nat} {work : WorkQueue Deferred}
    (taken : b.work.step? lane = some work) : b.Advances (b.settle work) [] 0 :=
  h.settle (.step? taken) (WorkQueue.upkeep_counted.step? (r := []) h.counted taken)
    ((WorkQueue.upkeep_plainly b.work.executed).step? (n := 0) h.plainly taken)

/-- Whatever the workers take in between, the deeds come to the same. -/
theorem performs (h : b.Tidy) {deeds : List Deed} (done : b.Performs deeds b') :
    b.Advances b' (deeds.flatMap Deed.prompt) (deeds.flatMap Deed.given).length := by
  induction done with
  | done b => exact .refl h
  | deed later ih =>
    rename_i b b' d deeds
    rw [List.flatMap_cons, List.flatMap_cons, List.length_append]
    exact (h.act d).trans (ih (h.act d).tidy)
  | worker taken later ih =>
    have first := h.worker taken
    have whole := first.trans (ih first.tidy)
    rw [List.nil_append, Nat.zero_add] at whole
    exact whole

/-- When the queue is stopped the sinks show all work as done, and the queue has no job left. -/
theorem stop (h : b.Tidy) :
    (b.settle b.work.stop).sinks.view = b.caughtUp ∧
      b.work.stop.submitted = b.work.submitted ∧ b.work.stop.executed = b.work.submitted ∧
      b.work.stop.pending = 0 ∧ b.work.stop.failed = 0 := by
  obtain ⟨started, waiting⟩ := WorkQueue.started_stop h.running
  have counted : b.work.stop.Counted 0 := h.counted.askAll [.stop]
  have plainly : b.work.stop.Plainly b.work.executed [] :=
    (WorkQueue.upkeep_plainly b.work.executed).stop (n := 0) h.plainly
  have nothing : b.work.stop.outstanding = [] := by
    rw [WorkQueue.outstanding, waiting]
    rfl
  have moved : b.work.stop.ledger.Perm (b.work.ledger ++ []) := by
    rw [WorkQueue.ledger, nothing, List.append_nil, List.append_nil]
    exact started
  obtain ⟨view, submitted⟩ := h.account moved counted plainly
  have pending : b.work.stop.pending = 0 := counted.pending.trans (congrArg List.length waiting)
  rw [nothing] at view
  have executed := counted.submitted
  rw [pending, submitted] at executed
  exact ⟨view, submitted, executed.symm, pending, plainly.failed⟩

end Tidy

end Bench

/-! ## What stays as it is -/

namespace Engine

/-- The filters, the offset and whether there is a sink for durations never change. -/
theorem setting_act (e : Engine) (d : Deed) :
    (e.act d).setting = e.setting ∧ (e.act d).skew = e.skew := by
  have acted : (e.act d).callFilter = e.callFilter ∧ (e.act d).activityFilter = e.activityFilter ∧
      (e.act d).skew = e.skew ∧ (e.act d).bench = e.bench.act d := by
    cases d <;> exact ⟨rfl, rfl, rfl, rfl⟩
  obtain ⟨callFilter, activityFilter, skew, bench⟩ := acted
  have listens : (e.act d).sinks.durations.isSome = e.sinks.durations.isSome :=
    (congrArg (fun b : Bench => b.sinks.durations.isSome) bench).trans
      (Bench.kept_act Sinks.listens_take rfl d)
  refine ⟨?_, skew⟩
  unfold setting
  rw [callFilter, activityFilter, skew, listens]

/-- Deeds leave the books alone. -/
theorem books_actAll (e : Engine) (deeds : List Deed) :
    (e.actAll deeds).registry = e.registry ∧ (e.actAll deeds).ids = e.ids ∧
      (e.actAll deeds).calls = e.calls ∧ (e.actAll deeds).setting = e.setting ∧
      (e.actAll deeds).skew = e.skew := by
  induction deeds generalizing e with
  | nil => exact ⟨rfl, rfl, rfl, rfl, rfl⟩
  | cons d deeds ih =>
    have first : (e.act d).registry = e.registry ∧ (e.act d).ids = e.ids ∧
        (e.act d).calls = e.calls := by
      cases d <;> exact ⟨rfl, rfl, rfl⟩
    obtain ⟨registry, ids, calls⟩ := first
    obtain ⟨setting, skew⟩ := e.setting_act d
    have others := ih (e.act d)
    rw [registry, ids, calls, setting, skew] at others
    exact others

theorem drains_actAll (e : Engine) (deeds : List Deed) : (e.actAll deeds).drains = e.drains := by
  induction deeds generalizing e with
  | nil => rfl
  | cons d deeds ih =>
    refine (ih (e.act d)).trans ?_
    cases d <;> rfl

end Engine

end SpanWeave
