import SpanWeave.Proofs.WorkQueue.Upkeep

set_option autoImplicit false

/-!
# Counters

What the counters of a queue say, whatever the number of workers and their turns. A job that was
handed in waits, is in hand, or was executed; so the pending ones are those that wait together with
those in hand. The checked run of a queue without workers gives up where the counter of pending jobs
would go below zero, also inside a job that is running; it never does.
-/
namespace SpanWeave
variable {α : Type}

namespace WorkQueue

/-- The counters of a queue that has `hand` jobs in hand, which neither wait nor are done. -/
structure Counted (q : WorkQueue α) (hand : Nat) : Prop where
  pending : q.pending = q.waiting.length + hand
  submitted : q.submitted = q.executed + q.pending

/-- Where a job is in hand, the counter of pending jobs is above zero. -/
theorem Counted.finish {q : WorkQueue α} {n : Nat} (h : q.Counted (n + 1)) (fails : Bool) :
    0 < q.pending ∧ (q.finish fails).Counted n := by
  obtain ⟨pending, submitted⟩ := h
  refine ⟨by omega, ?_, ?_⟩
  · change q.pending - 1 = q.waiting.length + n
    omega
  · change q.submitted = q.executed + 1 + (q.pending - 1)
    omega

theorem upkeep_counted :
    Upkeep (fun _ : Job α => True) fun n _ (q : WorkQueue α) => q.Counted n where
  account h := by
    obtain ⟨pending, submitted⟩ := h
    exact ⟨congrArg (· + 1) pending, congrArg (· + 1) submitted⟩
  start _ h := ⟨h.pending, h.submitted⟩
  finish h := (h.finish _).2
  enqueue owner j _ h := by
    obtain ⟨pending, submitted⟩ := h
    have longer : ∀ (ps : List (Parcel α)) (p : Parcel α) (n : Nat),
        ps.length + (n + 1) = (ps ++ [p]).length + n := by
      intro ps p n
      rw [List.length_append, List.length_singleton]
      omega
    cases owner with
    | some owner => exact ⟨pending.trans (longer _ _ _), submitted⟩
    | none => exact ⟨pending.trans (longer _ _ _), submitted⟩
  taken {n _ q before p after} h whole := by
    refine ⟨p.job.each_true, ?_, h.submitted⟩
    change q.pending = (before ++ after).length + (n + 1)
    rw [h.pending, whole, List.length_append, List.length_append, List.length_cons]
    omega
  turns _ h := ⟨h.pending, h.submitted⟩
  stopped h := ⟨h.pending, h.submitted⟩

theorem Counted.askAll {q : WorkQueue α} {n : Nat} (h : q.Counted n)
    (requests : List (Request α)) : (q.askAll requests).Counted n :=
  upkeep_counted.askAll (r := []) (fun _ _ j _ => j.each_true) h

/-! ## The checked run -/

/-- Gives up where the counter of pending jobs would go below zero. -/
def finish? (q : WorkQueue α) (fails : Bool) : Option (WorkQueue α) :=
  if q.pending = 0 then none else some (q.finish fails)

def handIn? : Script α → WorkQueue α → Option (WorkQueue α)
  | .done, q => some q
  | .job owner effect followUps fails rest, q =>
    let q := q.account
    (if q.runsAtOnce owner then (handIn? followUps (q.start effect)).bind (·.finish? fails)
      else some (q.enqueue owner ⟨effect, followUps, fails⟩)).bind (handIn? rest)

def run? (q : WorkQueue α) (j : Job α) : Option (WorkQueue α) :=
  (handIn? j.followUps (q.start j.effect)).bind (·.finish? j.fails)

def runLane? (lane : Nat) : Nat → WorkQueue α → Option (WorkQueue α)
  | 0, q => some q
  | limit + 1, q =>
    match takeFirst lane q.waiting with
    | none => some q
    | some (p, rest) => ((q.holding rest).run? p.job).bind (runLane? lane limit)

def drain? : List (Parcel α) → WorkQueue α → Option (WorkQueue α)
  | [], q => some q
  | p :: ps, q => (q.run? p.job).bind (drain? ps)

def ask? (q : WorkQueue α) : Request α → Option (WorkQueue α)
  | .submit owner j =>
    (handIn? (.job (some owner) j.effect j.followUps j.fails .done) q).map (·.tick)
  | .spawn j => (handIn? (.job none j.effect j.followUps j.fails .done) q).map (·.tick)
  | .flush owner => runLane? (q.laneOf owner) q.weight q
  | .stop => if q.stopped then some q else drain? q.drained (q.halted.holding [])

def askAll? (q : WorkQueue α) (requests : List (Request α)) : Option (WorkQueue α) :=
  requests.foldlM ask? q

namespace Counted
variable {q : WorkQueue α} {n : Nat}

theorem finish? (h : q.Counted (n + 1)) (fails : Bool) :
    q.finish? fails = some (q.finish fails) :=
  if_neg (Nat.ne_of_gt (h.finish fails).1)

theorem handIn (h : q.Counted n) (script : Script α) :
    (WorkQueue.handIn script q).Counted n :=
  upkeep_counted.handIn (r := []) script.each_true h

theorem run (h : q.Counted (n + 1)) (j : Job α) : (q.run j).Counted n :=
  upkeep_counted.run (r := []) j.each_true h

theorem handIn? (script : Script α) (h : q.Counted n) :
    WorkQueue.handIn? script q = some (WorkQueue.handIn script q) := by
  induction script generalizing q n with
  | done => rfl
  | job owner effect followUps fails rest ihFollowUps ihRest =>
    rw [WorkQueue.handIn?, WorkQueue.handIn]
    -- the job is in hand until it is done, whatever it hands in, and so the counter is not zero
    have account : q.account.Counted (n + 1) := upkeep_counted.account (r := []) h
    by_cases now : q.account.runsAtOnce owner = true
    · have own : (q.account.start effect).Counted (n + 1) := ⟨account.pending, account.submitted⟩
      have done := own.handIn followUps
      rw [if_pos now, if_pos now, ihFollowUps own, Option.bind_some, done.finish? fails,
        Option.bind_some]
      exact ihRest (done.finish fails).2
    · rw [if_neg now, if_neg now, Option.bind_some]
      exact ihRest (upkeep_counted.enqueue (r := []) owner
        (Job.each_true ⟨effect, followUps, fails⟩) account)

theorem run? (h : q.Counted (n + 1)) (j : Job α) : q.run? j = some (q.run j) := by
  have own : (q.start j.effect).Counted (n + 1) := ⟨h.pending, h.submitted⟩
  rw [WorkQueue.run?, own.handIn? j.followUps, Option.bind_some]
  exact (own.handIn j.followUps).finish? j.fails

theorem runLane? (lane limit : Nat) (h : q.Counted n) :
    WorkQueue.runLane? lane limit q = some (WorkQueue.runLane lane limit q) := by
  induction limit generalizing q with
  | zero => rfl
  | succ limit ih =>
    rw [WorkQueue.runLane?, WorkQueue.runLane, WorkQueue.step?]
    cases found : takeFirst lane q.waiting with
    | none => rfl
    | some pair =>
      have taken := (upkeep_counted.takeFirst (r := []) h found).2
      dsimp only
      rw [taken.run? pair.1.job, Option.bind_some]
      exact ih (taken.run pair.1.job)

theorem drain? (ps : List (Parcel α)) (h : q.Counted (n + ps.length)) :
    WorkQueue.drain? ps q = some (ps.foldl (fun q p => q.run p.job) q) := by
  induction ps generalizing q with
  | nil => rfl
  | cons p ps ih =>
    rw [WorkQueue.drain?, run? (n := n + ps.length) h p.job, Option.bind_some]
    exact ih (run h p.job)

theorem ask? (h : q.Counted n) (alone : q.workers = 0) (request : Request α) :
    q.ask? request = some (q.ask request) := by
  cases request with
  | submit owner job => exact congrArg (Option.map (·.tick)) (h.handIn? _)
  | spawn job => exact congrArg (Option.map (·.tick)) (h.handIn? _)
  | flush owner =>
    have flush : q.ask (.flush owner) = WorkQueue.runLane (q.laneOf owner) q.weight q :=
      if_pos alone
    rw [flush]
    exact h.runLane? _ _
  | stop =>
    change (if q.stopped then some q else WorkQueue.drain? q.drained (q.halted.holding [])) =
      some q.stop
    unfold WorkQueue.stop
    split
    · rfl
    · exact drain? q.drained (upkeep_counted.halted (r := []) h).2

end Counted

end WorkQueue

end SpanWeave
