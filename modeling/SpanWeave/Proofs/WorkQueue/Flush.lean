import SpanWeave.Proofs.WorkQueue.Rounds

set_option autoImplicit false

/-!
# Flushing without workers

A flush runs one job after the other, the first one in the lane of the owner, up to a limit that is
known beforehand. The limit is never met: it ends as the rounds do.
-/
namespace SpanWeave
variable {α : Type}

namespace WorkQueue

theorem takeFirst_append {lane : Nat} {before : List (Parcel α)} {p : Parcel α}
    (others : ∀ b ∈ before, b.lane ≠ lane) (here : p.lane = lane) (after : List (Parcel α)) :
    takeFirst lane (before ++ p :: after) = some (p, before ++ after) := by
  induction before with
  | nil => exact if_pos here
  | cons b before ih =>
    obtain ⟨differs, others⟩ := List.forall_mem_cons.mp others
    rw [List.cons_append, takeFirst, if_neg differs, ih others]
    rfl

theorem InLanes.lane_ne {owner : ThreadId} {ps : List (Parcel α)} (lanes : InLanes ps)
    (none : jobsOf owner ps = []) : ∀ p ∈ ps, p.lane ≠ owner.toNat := by
  intro p member same
  obtain ⟨other, isOwner, lane⟩ := lanes p member
  have eq : other = owner := UInt64.toNat_inj.mp (lane.symm.trans same)
  exact jobsOf_eq_nil.mp none p member (eq ▸ isOwner)

theorem runLane_of_empty {lane : Nat} {q : WorkQueue α} (stuck : q.step? lane = none)
    (limit : Nat) : runLane lane limit q = q := by
  cases limit with
  | zero => rfl
  | succ limit => rw [runLane, stuck]

theorem runLane_add (lane m n : Nat) (q : WorkQueue α) :
    runLane lane (m + n) q = runLane lane n (runLane lane m q) := by
  induction m generalizing q with
  | zero => rw [Nat.zero_add, runLane]
  | succ m ih =>
    rw [Nat.add_right_comm, runLane, runLane]
    cases stepped : q.step? lane with
    | none => exact (runLane_of_empty stepped n).symm
    | some q' => exact ih q'

/-- As many steps as jobs of the owner wait are one round: what they hand in comes behind. -/
theorem Solo.runLane_batch {q : WorkQueue α} (solo : q.Solo) (owner : ThreadId)
    {ps : List (Parcel α)} (lanes : InLanes ps) (new : List (Parcel α)) :
    runLane owner.toNat (jobsOf owner ps).length (q.holding (ps ++ new)) =
      (jobsOf owner ps).foldl WorkQueue.run (q.holding (besides owner ps ++ new)) := by
  generalize found : jobsOf owner ps = js
  induction js generalizing q ps new with
  | nil =>
    rw [besides_of_jobsOf_eq_nil found]
    rfl
  | cons j js ih =>
    obtain ⟨before, p, after, rfl, none, own, rfl⟩ := split_of_jobsOf found
    have lanesBefore : InLanes before := fun b member => lanes b (List.mem_append_left _ member)
    have lanesAfter : InLanes after := fun b member =>
      lanes b (List.mem_append_right _ (List.mem_cons_of_mem _ member))
    have here : p.lane = owner.toNat := by
      obtain ⟨other, isOwner, lane⟩ := lanes p (List.mem_append_right _ List.mem_cons_self)
      rw [lane, Option.some.inj (isOwner.symm.trans own)]
    have others : jobsOf owner (before ++ after) = js := by
      rw [jobsOf_append, none, jobsOf_cons_self own] at found
      rw [jobsOf_append, none]
      exact (List.cons.inj found).2
    have rest : besides owner (before ++ p :: after) = besides owner (before ++ after) := by
      have skip : besides owner (p :: after) = besides owner after := by simp [besides, own]
      rw [besides_append, besides_append, skip]
    -- the step passes over the jobs of others, and what the job hands in is behind `new`
    have first : (q.holding (before ++ p :: after ++ new)).step? owner.toNat =
        some ((q.run p.job).holding (before ++ after ++ (new ++ p.job.followUps.left))) := by
      have taken := takeFirst_append (lanesBefore.lane_ne none) here (after ++ new)
      change (takeFirst owner.toNat (before ++ p :: after ++ new)).map _ = _
      rw [List.append_assoc, List.cons_append, taken, Option.map_some]
      change some ((q.holding (before ++ (after ++ new))).run p.job) = _
      rw [solo.run_holding, ← List.append_assoc, List.append_assoc (before ++ after)]
    have later := ih (solo.run p.job) (List.forall_mem_append.mpr ⟨lanesBefore, lanesAfter⟩)
      (new ++ p.job.followUps.left) others
    rw [List.length_cons, runLane, first, List.foldl_cons, solo.run_holding, rest,
      List.append_assoc (besides owner _), ← later]

theorem Laned.runLane_round {q : WorkQueue α} (laned : q.Laned) (solo : q.Solo)
    (owner : ThreadId) :
    runLane owner.toNat (jobsOf owner q.waiting).length q = q.round owner := by
  have batch := solo.runLane_batch owner laned.lanes []
  rw [List.append_nil, List.append_nil] at batch
  exact batch

/-- Each job of a round takes at least itself away from what will run. -/
theorem Solo.weight_round {q : WorkQueue α} (solo : q.Solo) (owner : ThreadId) :
    (q.round owner).weight + (jobsOf owner q.waiting).length ≤ q.weight := by
  have weight : ∀ q : WorkQueue α, q.weight = load (q.waiting.map (·.job)) := by
    intro q
    rw [WorkQueue.weight, load, List.foldr_map, List.foldr_map]
  have left := load_flatMap_left (jobsOf owner q.waiting)
  have split := load_split owner q.waiting
  rw [weight, weight, solo.round_eq]
  change load (List.map _ (_ ++ _)) + _ ≤ _
  rw [List.map_append, load_append]
  omega

/-- With enough steps the flush ends as the rounds do. -/
theorem Laned.rounds {q : WorkQueue α} (laned : q.Laned) (solo : q.Solo) (owner : ThreadId)
    {limit : Nat} (enough : q.weight ≤ limit) :
    Rounds owner q (runLane owner.toNat limit q) := by
  induction limit using Nat.strongRecOn generalizing q with
  | ind limit ih =>
    by_cases none : jobsOf owner q.waiting = []
    · have stuck : q.step? owner.toNat = Option.none := by
        rw [step?, takeFirst_eq_none_iff.mpr (InLanes.lane_ne laned.lanes none)]
        rfl
      rw [runLane_of_empty stuck]
      exact .empty none
    · have lighter := solo.weight_round owner
      have some : 0 < (jobsOf owner q.waiting).length := List.length_pos_iff.mpr none
      have whole : limit =
          (jobsOf owner q.waiting).length + (limit - (jobsOf owner q.waiting).length) := by
        omega
      rw [whole, runLane_add, laned.runLane_round solo]
      apply Rounds.again none
      apply ih _ (by omega) (laned.round solo owner) (solo.round owner)
      omega

/-- A flush of a queue without workers ends, as rounds without any bound do, when the jobs of the
one possible line have run. -/
theorem flush_inLine {q : WorkQueue α} (laned : q.Laned) (running : q.stopped = false)
    (owner : ThreadId) :
    Rounds owner q (q.flush owner) ∧ (∀ q', Rounds owner q q' → q' = q.flush owner) ∧
      ∃ line, InLine owner (jobsOf owner q.waiting) line ∧
        (∀ other, InLine owner (jobsOf owner q.waiting) other → other = line) ∧
        Flushed owner line q (q.flush owner) := by
  have solo : q.Solo := ⟨laned.workers, running⟩
  have lane : q.laneOf owner = owner.toNat := if_pos laned.workers
  have flush : q.flush owner = runLane owner.toNat q.weight q := by
    rw [WorkQueue.flush, if_pos laned.workers, lane]
  have rounds := laned.rounds solo owner (Nat.le_refl q.weight)
  rw [← flush] at rounds
  obtain ⟨line, inLine, flushed⟩ := rounds.flushed laned solo
  exact ⟨rounds, fun q' h => h.unique rounds, line, inLine, fun _ h => h.unique inLine, flushed⟩

/-- A job that fails hands in another one for its owner and one of nobody, which runs inside it and
hands in one for its owner and one for another one; behind it waits a job of each of the two. -/
theorem flush_inLine_of_nested_jobs :
    let inside : Script Nat := .job (some 1) 12 .done false (.job (some 2) 21 .done false .done)
    let first : Job Nat := ⟨10, .job (some 1) 11 .done false (.job none 30 inside true .done), true⟩
    let q : WorkQueue Nat :=
      { waiting := [⟨some 1, 1, first⟩, ⟨some 2, 2, ⟨20, .done, false⟩⟩,
          ⟨some 1, 1, ⟨13, .done, false⟩⟩] }
    q.Laned ∧ q.stopped = false ∧ (q.flush 1).started.toList = [10, 30, 13, 11, 12] ∧
      (q.flush 1).failed = 2 ∧ jobsOf 1 (q.flush 1).waiting = [] ∧
      (jobsOf 2 (q.flush 1).waiting).map (·.effect) = [20, 21] := by
  intro inside first q
  have laned : q.Laned := by
    refine ⟨rfl, ?_⟩
    simp only [q, List.forall_mem_cons]
    exact ⟨⟨1, rfl, rfl⟩, ⟨2, rfl, rfl⟩, ⟨1, rfl, rfl⟩, nofun⟩
  obtain ⟨-, -, line, -, only, flushed⟩ := flush_inLine laned rfl 1
  have known : [first, ⟨13, .done, false⟩, ⟨11, .done, false⟩, ⟨12, .done, false⟩] = line :=
    only _ rfl
  refine ⟨laned, rfl, ?_, ?_, flushed.own, ?_⟩
  · rw [flushed.ran.started, ← known]
    rfl
  · rw [flushed.ran.failed, ← known]
    rfl
  · rw [flushed.others 2 (by decide), ← known]
    rfl

end WorkQueue

end SpanWeave
