import SpanWeave.WorkQueue

set_option autoImplicit false

/-!
# Moments of a queue

What a queue without workers goes through when it is asked for something: which jobs are handed in
and which ones start, in the order in which it happens. The starts are those that the queue itself
keeps, and its count of submitted jobs is the number of hand-ins.
-/
namespace SpanWeave
variable {α : Type}

structure Moment (α : Type) where
  starts : Bool
  /-- The job was handed in to a stopped queue. -/
  afterStop : Bool
  owner : Option ThreadId
  effect : α
  deriving DecidableEq, Repr

inductive Request (α : Type) where
  | submit (owner : ThreadId) (job : Job α)
  | spawn (job : Job α)
  | flush (owner : ThreadId)
  | stop

namespace WorkQueue

def holding (q : WorkQueue α) (ps : List (Parcel α)) : WorkQueue α := { q with waiting := ps }

section HandingIn
variable {q : WorkQueue α} {owner : Option ThreadId} {effect : α} {followUps : Script α}
  {fails : Bool} {rest : Script α}

theorem handIn_of_later (later : q.runsAtOnce owner = false) :
    handIn (.job owner effect followUps fails rest) q =
      handIn rest (q.account.enqueue owner ⟨effect, followUps, fails⟩) := by
  have same : q.account.runsAtOnce owner = false := later
  rw [handIn, same]
  rfl

theorem handIn_of_now (now : q.runsAtOnce owner = true) :
    handIn (.job owner effect followUps fails rest) q =
      handIn rest ((handIn followUps (q.account.start effect)).finish fails) := by
  have same : q.account.runsAtOnce owner = true := now
  rw [handIn, same]
  rfl

end HandingIn

def handInMoments : Script α → WorkQueue α → List (Moment α)
  | .done, _ => []
  | .job owner effect followUps fails rest, q =>
    let q := q.account
    ⟨false, q.stopped, owner, effect⟩ ::
      if q.runsAtOnce owner then
        ⟨true, q.stopped, owner, effect⟩ :: (handInMoments followUps (q.start effect) ++
          handInMoments rest ((handIn followUps (q.start effect)).finish fails))
      else handInMoments rest (q.enqueue owner ⟨effect, followUps, fails⟩)

def runMoments (q : WorkQueue α) (p : Parcel α) : List (Moment α) :=
  ⟨true, false, p.owner, p.job.effect⟩ :: handInMoments p.job.followUps (q.start p.job.effect)

def laneMoments (lane : Nat) : Nat → WorkQueue α → List (Moment α)
  | 0, _ => []
  | limit + 1, q =>
    match takeFirst lane q.waiting with
    | none => []
    | some (p, rest) =>
      runMoments (q.holding rest) p ++ laneMoments lane limit ((q.holding rest).run p.job)

def drainMoments : List (Parcel α) → WorkQueue α → List (Moment α)
  | [], _ => []
  | p :: ps, q => runMoments q p ++ drainMoments ps (q.run p.job)

/-- The queue that is stopped but still has its jobs, and these in the order in which they run. -/
def halted (q : WorkQueue α) : WorkQueue α := { q with stopped := true }.tick

def drained (q : WorkQueue α) : List (Parcel α) :=
  q.halted.waiting.mergeSort (·.lane ≤ ·.lane)

def ask (q : WorkQueue α) : Request α → WorkQueue α
  | .submit owner job => q.submit owner job
  | .spawn job => q.spawn job
  | .flush owner => q.flush owner
  | .stop => q.stop

def askAll (q : WorkQueue α) (requests : List (Request α)) : WorkQueue α := requests.foldl ask q

def moments (q : WorkQueue α) : Request α → List (Moment α)
  | .submit owner j => handInMoments (.job (some owner) j.effect j.followUps j.fails .done) q
  | .spawn j => handInMoments (.job none j.effect j.followUps j.fails .done) q
  | .flush owner => laneMoments (q.laneOf owner) q.weight q
  | .stop => if q.stopped then [] else drainMoments q.drained (q.halted.holding [])

theorem stop_of_running {q : WorkQueue α} (running : q.stopped = false) :
    q.stop = q.drained.foldl (fun q p => q.run p.job) (q.halted.holding []) := by
  rw [stop, running]
  rfl

theorem moments_stop {q : WorkQueue α} (running : q.stopped = false) :
    q.moments .stop = drainMoments q.drained (q.halted.holding []) := by
  rw [moments, running]
  rfl

def allMoments : List (Request α) → WorkQueue α → List (Moment α)
  | [], _ => []
  | r :: rs, q => q.moments r ++ allMoments rs (q.ask r)

def stopMoments : List (Request α) → WorkQueue α → List (Moment α)
  | [], _ => []
  | .stop :: rs, q => q.moments .stop ++ stopMoments rs q.stop
  | r :: rs, q => stopMoments rs (q.ask r)

end WorkQueue

end SpanWeave
