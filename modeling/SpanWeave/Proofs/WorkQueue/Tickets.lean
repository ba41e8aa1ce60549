import SpanWeave.Proofs.WorkQueue.Conservation
import SpanWeave.Proofs.WorkQueue.Upkeep

set_option autoImplicit false

/-!
# Tickets

Jobs that are told apart. Every job of a list of requests, those that jobs hand in included, gets a
ticket with a number of its own. A queue does not look at what jobs do, so it runs the jobs with
tickets as it runs the jobs themselves.
-/
namespace SpanWeave
variable {α β : Type}

structure Ticket (α : Type) where
  number : Nat
  fails : Bool
  effect : α
  deriving DecidableEq, Repr

def Job.Told (j : Job (Ticket α)) : Prop := j.effect.fails = j.fails

namespace Script

def map (f : α → β) : Script α → Script β
  | .done => .done
  | .job owner effect followUps fails rest =>
    .job owner (f effect) (followUps.map f) fails (rest.map f)

/-- The same jobs with tickets, numbered from `n` on; a job comes before those that it hands in. -/
def number : Script α → Nat → Script (Ticket α)
  | .done, _ => .done
  | .job owner effect followUps fails rest, n =>
    .job owner ⟨n, fails, effect⟩ (followUps.number (n + 1)) fails
      (rest.number (n + 1 + followUps.size))

theorem size_map (f : α → β) (s : Script α) : (s.map f).size = s.size := by
  induction s with
  | done => rfl
  | job owner effect followUps fails rest ihFollowUps ihRest =>
    simp [map, size, ihFollowUps, ihRest]

theorem map_number (s : Script α) (n : Nat) : (s.number n).map (·.effect) = s := by
  induction s generalizing n with
  | done => rfl
  | job owner effect followUps fails rest ihFollowUps ihRest =>
    simp [map, number, ihFollowUps, ihRest]

theorem numbers_effects (s : Script α) (n : Nat) :
    (s.number n).effects.map (·.number) = List.range' n s.size := by
  induction s generalizing n with
  | done => rfl
  | job owner effect followUps fails rest ihFollowUps ihRest =>
    rw [number, effects, List.map_cons, List.map_append, ihFollowUps, ihRest, List.range'_append_1,
      size, Nat.add_assoc, Nat.add_comm 1, List.range'_succ]

theorem told_number (s : Script α) (n : Nat) : (s.number n).Each Job.Told := by
  induction s generalizing n with
  | done => trivial
  | job owner effect followUps fails rest ihFollowUps ihRest =>
    exact ⟨rfl, ihFollowUps _, ihRest _⟩

end Script

namespace Job

def map (f : α → β) (j : Job α) : Job β := ⟨f j.effect, j.followUps.map f, j.fails⟩

def size (j : Job α) : Nat := 1 + j.followUps.size

def number (j : Job α) (n : Nat) : Job (Ticket α) :=
  ⟨⟨n, j.fails, j.effect⟩, j.followUps.number (n + 1), j.fails⟩

theorem map_number (j : Job α) (n : Nat) : (j.number n).map (·.effect) = j := by
  simp [map, number, Script.map_number]

theorem numbers_effects (j : Job α) (n : Nat) :
    (j.number n).effects.map (·.number) = List.range' n j.size := by
  rw [effects, List.map_cons, size, Nat.add_comm, List.range'_succ]
  exact congrArg _ (j.followUps.numbers_effects (n + 1))

theorem told_number (j : Job α) (n : Nat) : (j.number n).Each Job.Told :=
  ⟨rfl, j.followUps.told_number _⟩

end Job

def Parcel.map (f : α → β) (p : Parcel α) : Parcel β := ⟨p.owner, p.lane, p.job.map f⟩

namespace Request

def map (f : α → β) : Request α → Request β
  | .submit owner j => .submit owner (j.map f)
  | .spawn j => .spawn (j.map f)
  | .flush owner => .flush owner
  | .stop => .stop

def number (n : Nat) : Request α → Request (Ticket α)
  | .submit owner j => .submit owner (j.number n)
  | .spawn j => .spawn (j.number n)
  | .flush owner => .flush owner
  | .stop => .stop

def numberAll : Nat → List (Request α) → List (Request (Ticket α))
  | _, [] => []
  | n, r :: rs => r.number n :: numberAll (n + (r.job?.map Job.size).getD 0) rs

def effects (rs : List (Request α)) : List α := rs.flatMap fun r => (r.job?.map Job.effects).getD []

theorem map_number (r : Request α) (n : Nat) : (r.number n).map (·.effect) = r := by
  cases r <;> simp [map, number, Job.map_number]

theorem map_numberAll (n : Nat) (rs : List (Request α)) :
    (numberAll n rs).map (map (·.effect)) = rs := by
  induction rs generalizing n with
  | nil => rfl
  | cons r rs ih => rw [numberAll, List.map_cons, map_number, ih]

theorem numbers_effects_number (r : Request α) (n : Nat) :
    (((r.number n).job?.map Job.effects).getD []).map (·.number) =
      List.range' n ((r.job?.map Job.size).getD 0) := by
  cases r with
  | submit owner j => exact j.numbers_effects n
  | spawn j => exact j.numbers_effects n
  | flush | stop => rfl

theorem nodup_numberAll (n : Nat) (rs : List (Request α)) :
    ((effects (numberAll n rs)).map (·.number)).Nodup := by
  have whole : ∀ (rs : List (Request α)) (n : Nat), ∃ size,
      (effects (numberAll n rs)).map (·.number) = List.range' n size := by
    intro rs
    induction rs with
    | nil => exact fun n => ⟨0, rfl⟩
    | cons r rs ih =>
      intro n
      obtain ⟨size, eq⟩ := ih (n + (r.job?.map Job.size).getD 0)
      refine ⟨(r.job?.map Job.size).getD 0 + size, ?_⟩
      rw [numberAll, effects, List.flatMap_cons, List.map_append, numbers_effects_number,
        ← List.range'_append_1]
      exact congrArg _ eq
  obtain ⟨size, eq⟩ := whole rs n
  rw [eq]
  exact List.nodup_range'

theorem told_number (r : Request α) (n : Nat) :
    ∀ j ∈ (r.number n).job?, j.Each Job.Told := by
  intro j member
  cases r with
  | submit owner k | spawn k =>
    cases member
    exact k.told_number n
  | flush | stop => cases member

theorem told_numberAll (n : Nat) (rs : List (Request α)) :
    ∀ r ∈ numberAll n rs, ∀ j ∈ r.job?, j.Each Job.Told := by
  induction rs generalizing n with
  | nil => exact List.forall_mem_nil _
  | cons r rs ih => exact List.forall_mem_cons.mpr ⟨r.told_number n, ih _⟩

end Request

namespace WorkQueue

def map (f : α → β) (q : WorkQueue α) : WorkQueue β where
  workers := q.workers
  warnAbove := q.warnAbove
  turns := q.turns
  waiting := q.waiting.map (·.map f)
  spawned := q.spawned
  warned := q.warned
  stopped := q.stopped
  submitted := q.submitted
  executed := q.executed
  failed := q.failed
  pending := q.pending
  started := q.started.map f
  warnings := q.warnings

variable (f : α → β) (q : WorkQueue α)

theorem map_start (effect : α) : (q.map f).start (f effect) = (q.start effect).map f := by
  simp [map, start]

theorem map_enqueue (owner : Option ThreadId) (j : Job α) :
    (q.map f).enqueue owner (j.map f) = (q.enqueue owner j).map f := by
  have added : ∀ p : Parcel α,
      q.waiting.map (·.map f) ++ [p.map f] = (q.waiting ++ [p]).map (·.map f) := by
    intro p
    simp
  cases owner with
  | some owner => exact congrArg (q.map f).holding (added ⟨some owner, q.laneOf owner, j⟩)
  | none =>
    exact congrArg (fun ps => { (q.map f).holding ps with spawned := q.spawned + 1 })
      (added ⟨none, q.spawned % q.workers, j⟩)

theorem map_handIn (script : Script α) (q : WorkQueue α) :
    handIn (script.map f) (q.map f) = (handIn script q).map f := by
  induction script generalizing q with
  | done => rfl
  | job owner effect followUps fails rest ihFollowUps ihRest =>
    rw [Script.map, handIn, handIn]
    have account : (q.map f).account = q.account.map f := rfl
    have same : (q.account.map f).runsAtOnce owner = q.account.runsAtOnce owner := rfl
    rw [account, same, ← ihRest]
    split
    · rw [map_start, ihFollowUps]
      rfl
    · rw [← map_enqueue]
      rfl

theorem map_run (j : Job α) : (q.map f).run (j.map f) = (q.run j).map f := by
  change (handIn (j.followUps.map f) ((q.map f).start (f j.effect))).finish j.fails = _
  rw [map_start, map_handIn]
  rfl

theorem map_takeFirst (lane : Nat) (ps : List (Parcel α)) :
    takeFirst lane (ps.map (·.map f)) =
      (takeFirst lane ps).map fun x => (x.1.map f, x.2.map (·.map f)) := by
  induction ps with
  | nil => rfl
  | cons p ps ih =>
    rw [List.map_cons, takeFirst, takeFirst, ih]
    change (if p.lane = lane then _ else _) = _
    split
    · rfl
    · rw [Option.map_map, Option.map_map]
      rfl

theorem map_step? (lane : Nat) : (q.map f).step? lane = (q.step? lane).map (·.map f) := by
  change (takeFirst lane (q.waiting.map (·.map f))).map _ = _
  rw [map_takeFirst, step?, Option.map_map, Option.map_map]
  refine congrArg (fun g => Option.map g _) (funext fun x => ?_)
  exact map_run f { q with waiting := x.2 } x.1.job

theorem map_runLane (lane limit : Nat) (q : WorkQueue α) :
    runLane lane limit (q.map f) = (runLane lane limit q).map f := by
  induction limit generalizing q with
  | zero => rfl
  | succ limit ih =>
    rw [runLane, runLane, map_step?]
    cases q.step? lane with
    | none => rfl
    | some q' => exact ih q'

theorem map_tick : (q.map f).tick = q.tick.map f := by
  have turns : ∀ (lanes : List Nat) (q : WorkQueue α),
      lanes.foldl (fun q lane => (q.step? lane).getD q) (q.map f) =
        (lanes.foldl (fun q lane => (q.step? lane).getD q) q).map f := by
    intro lanes
    induction lanes with
    | nil => exact fun _ => rfl
    | cons lane lanes ih =>
      intro q
      rw [List.foldl_cons, List.foldl_cons, map_step?, ← ih]
      cases q.step? lane <;> rfl
  exact turns q.turn { q with turns := q.turns.tail }

theorem map_flush (owner : ThreadId) : (q.map f).flush owner = (q.flush owner).map f := by
  have weight : (q.map f).weight = q.weight := by
    change ((q.waiting.map (·.map f)).map fun p : Parcel β => 1 + p.job.followUps.size).foldr
      (· + ·) 0 = _
    rw [List.map_map]
    refine congrArg (fun sizes => List.foldr (· + ·) 0 sizes) (List.map_congr_left fun p _ => ?_)
    exact congrArg (1 + ·) (p.job.followUps.size_map f)
  have owed : ∀ lane, (q.map f).owed lane = q.owed lane := fun lane => List.countP_map
  change (if q.workers = 0 then runLane (q.laneOf owner) (q.map f).weight (q.map f)
    else runLane (q.laneOf owner) ((q.map f).owed (q.laneOf owner) - q.turn.count (q.laneOf owner))
      (q.map f).tick) = _
  rw [weight, owed, map_tick, map_runLane, map_runLane, flush]
  split <;> rfl

theorem map_stop : (q.map f).stop = q.stop.map f := by
  have runs : ∀ (ps : List (Parcel α)) (q : WorkQueue α),
      (ps.map (·.map f)).foldl (fun q p => q.run p.job) (q.map f) =
        (ps.foldl (fun q p => q.run p.job) q).map f := by
    intro ps
    induction ps with
    | nil => exact fun _ => rfl
    | cons p ps ih =>
      intro q
      rw [List.map_cons, List.foldl_cons, List.foldl_cons, ← ih, ← map_run]
      rfl
  have halted : ({ q.map f with stopped := true } : WorkQueue β).tick = q.halted.map f :=
    map_tick f { q with stopped := true }
  have sorted : (q.halted.waiting.map (·.map f)).mergeSort (·.lane ≤ ·.lane) =
      q.drained.map (·.map f) :=
    (List.map_mergeSort (f := Parcel.map f) fun _ _ _ _ => rfl).symm
  have whole : ((q.map f).stop : WorkQueue β) = if q.stopped then q.map f else
      ((q.halted.waiting.map (·.map f)).mergeSort (·.lane ≤ ·.lane)).foldl
        (fun q p => q.run p.job) ((q.halted.holding []).map f) := by
    rw [stop, halted]
    rfl
  rw [whole, sorted, runs, stop]
  split <;> rfl

theorem map_ask (request : Request α) : (q.map f).ask (request.map f) = (q.ask request).map f := by
  cases request with
  | submit owner j =>
    let script := Script.job (some owner) j.effect j.followUps j.fails .done
    exact (congrArg tick (map_handIn f script q)).trans (map_tick f _)
  | spawn j =>
    let script := Script.job none j.effect j.followUps j.fails .done
    exact (congrArg tick (map_handIn f script q)).trans (map_tick f _)
  | flush owner => exact map_flush f q owner
  | stop => exact map_stop f q

/-- A queue does not look at what jobs do. -/
theorem map_askAll (requests : List (Request α)) :
    (q.map f).askAll (requests.map (·.map f)) = (q.askAll requests).map f := by
  induction requests generalizing q with
  | nil => rfl
  | cons request requests ih =>
    change ((q.map f).ask (request.map f)).askAll _ = _
    rw [map_ask, ih]
    rfl

end WorkQueue

end SpanWeave
