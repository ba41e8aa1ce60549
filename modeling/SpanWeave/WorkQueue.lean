import SpanWeave.Identity
import SpanWeave.Fault

set_option autoImplicit false

/-!
# Deferred work

Jobs that are handed in for a thread, their owner, or for nobody. Without workers a job of an owner
waits until that owner flushes, and a job of nobody runs at once. With workers each job waits in
the lane of one worker, which runs its lane in order whenever it gets a turn; flushing waits for all
that is in the lane by then. Once the queue is stopped every job runs as it is handed in.

What a job does is left open. A job may hand in further jobs, and it may fail after that; a failure
stops nothing else.
-/
namespace SpanWeave

/-- Jobs in the order in which they are handed in, each with those that it hands in itself. -/
inductive Script (α : Type) where
  | done
  | job (owner : Option ThreadId) (effect : α) (followUps : Script α) (fails : Bool)
      (rest : Script α)
  deriving Repr, Inhabited

def Script.size {α : Type} : Script α → Nat
  | .done => 0
  | .job _ _ followUps _ rest => 1 + followUps.size + rest.size

structure Job (α : Type) where
  effect : α
  followUps : Script α := .done
  fails : Bool := false
  deriving Repr, Inhabited

/-- A job that waits. Without workers every owner has a lane, else every worker has one. -/
structure Parcel (α : Type) where
  owner : Option ThreadId
  lane : Nat
  job : Job α
  deriving Repr, Inhabited

structure WorkQueue (α : Type) where
  workers : Nat := 0
  /-- More pending jobs than this are worth one warning. -/
  warnAbove : Option Nat := none
  /-- Whose turn it is, for each call from outside: the lanes whose workers run a job, in order. -/
  turns : List (List Nat) := []
  /-- The jobs that wait, in the order in which they were handed in. -/
  waiting : List (Parcel α) := []
  spawned : Nat := 0
  warned : Bool := false
  stopped : Bool := false
  submitted : Nat := 0
  executed : Nat := 0
  failed : Nat := 0
  pending : Nat := 0
  /-- The effects of the jobs that were started, in order. -/
  started : Array α := #[]
  warnings : Array Warning := #[]
  deriving Repr, Inhabited

namespace WorkQueue
variable {α : Type}

def account (q : WorkQueue α) : WorkQueue α :=
  let growing := !q.warned && q.warnAbove.any (· < q.pending + 1)
  { q with
    submitted := q.submitted + 1
    pending := q.pending + 1
    warned := q.warned || growing
    warnings := if growing then q.warnings.push .queueGrowing else q.warnings }

def start (q : WorkQueue α) (effect : α) : WorkQueue α :=
  { q with started := q.started.push effect }

def finish (q : WorkQueue α) (fails : Bool) : WorkQueue α :=
  { q with
    failed := q.failed + (if fails then 1 else 0)
    warnings := if fails then q.warnings.push .jobFailed else q.warnings
    executed := q.executed + 1
    pending := q.pending - 1 }

def runsAtOnce (q : WorkQueue α) (owner : Option ThreadId) : Bool :=
  q.stopped || (owner.isNone && q.workers == 0)

theorem runsAtOnce_of_stopped {q : WorkQueue α} (h : q.stopped = true) (owner : Option ThreadId) :
    q.runsAtOnce owner = true := by
  simp [runsAtOnce, h]

def laneOf (q : WorkQueue α) (owner : ThreadId) : Nat :=
  if q.workers = 0 then owner.toNat else owner.toNat % q.workers

/-- Puts a job behind the others; jobs of nobody go round the workers. -/
def enqueue (q : WorkQueue α) (owner : Option ThreadId) (j : Job α) : WorkQueue α :=
  match owner with
  | some o => { q with waiting := q.waiting ++ [⟨owner, q.laneOf o, j⟩] }
  | none =>
    { q with waiting := q.waiting ++ [⟨none, q.spawned % q.workers, j⟩], spawned := q.spawned + 1 }

/-- Hands in jobs in order. One that runs at once hands in its own before the next one is handed
in. -/
def handIn : Script α → WorkQueue α → WorkQueue α
  | .done, q => q
  | .job owner effect followUps fails rest, q =>
    let q := q.account
    handIn rest
      (if q.runsAtOnce owner then (handIn followUps (q.start effect)).finish fails
       else q.enqueue owner ⟨effect, followUps, fails⟩)

def run (q : WorkQueue α) (j : Job α) : WorkQueue α :=
  (handIn j.followUps (q.start j.effect)).finish j.fails

def takeFirst (lane : Nat) : List (Parcel α) → Option (Parcel α × List (Parcel α))
  | [] => none
  | p :: ps =>
    if p.lane = lane then some (p, ps)
    else (takeFirst lane ps).map fun (first, rest) => (first, p :: rest)

def step? (q : WorkQueue α) (lane : Nat) : Option (WorkQueue α) :=
  (takeFirst lane q.waiting).map fun (p, rest) => { q with waiting := rest }.run p.job

def runLane (lane : Nat) : Nat → WorkQueue α → WorkQueue α
  | 0, q => q
  | limit + 1, q =>
    match q.step? lane with
    | none => q
    | some q => runLane lane limit q

def weight (q : WorkQueue α) : Nat :=
  (q.waiting.map fun p => 1 + p.job.followUps.size).foldr (· + ·) 0

/-- The workers' next turn, which calls from outside wait for; there is none without workers. -/
def turn (q : WorkQueue α) : List Nat := if q.workers = 0 then [] else q.turns.headD []

def tick (q : WorkQueue α) : WorkQueue α :=
  q.turn.foldl (fun q lane => (q.step? lane).getD q) { q with turns := q.turns.tail }

def submit (q : WorkQueue α) (owner : ThreadId) (j : Job α) : WorkQueue α :=
  (handIn (.job (some owner) j.effect j.followUps j.fails .done) q).tick

def spawn (q : WorkQueue α) (j : Job α) : WorkQueue α :=
  (handIn (.job none j.effect j.followUps j.fails .done) q).tick

def owed (q : WorkQueue α) (lane : Nat) : Nat := q.waiting.countP (·.lane == lane)

/-- Without workers runs the owner's jobs until none waits. With workers waits until the jobs that
are in the owner's lane now have run. -/
def flush (q : WorkQueue α) (owner : ThreadId) : WorkQueue α :=
  let lane := q.laneOf owner
  if q.workers = 0 then runLane lane q.weight q
  else runLane lane (q.owed lane - q.turn.count lane) q.tick

/-- Runs everything that waits, lane by lane. A second time nothing happens. -/
def stop (q : WorkQueue α) : WorkQueue α :=
  if q.stopped then q
  else
    let q := { q with stopped := true }.tick
    (q.waiting.mergeSort (·.lane ≤ ·.lane)).foldl (fun q p => q.run p.job) { q with waiting := [] }

theorem stop_of_stopped {q : WorkQueue α} (h : q.stopped = true) : q.stop = q := by
  simp [stop, h]

end WorkQueue

end SpanWeave
