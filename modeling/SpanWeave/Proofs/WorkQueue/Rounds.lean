import SpanWeave.Proofs.WorkQueue.Order

set_option autoImplicit false

/-!
# Flushing in rounds

Without workers a flush takes the owner's jobs away, runs them, and starts over while there are new
ones. What a job hands in is behind all that waits already, so the jobs run in one line, the only
one in which all that the jobs in it hand in for the owner comes behind what waited, in the order of
the jobs. The line ends, since a job is larger than all that it hands in together, and a job that
fails does not change it.
-/
namespace SpanWeave
variable {α : Type}

/-- What a script leaves behind in a queue without workers that still runs. A job of nobody runs at
once, so it leaves what it hands in itself. -/
def Script.left : Script α → List (Parcel α)
  | .done => []
  | .job (some owner) effect followUps fails rest =>
    ⟨some owner, owner.toNat, ⟨effect, followUps, fails⟩⟩ :: rest.left
  | .job none _ followUps _ rest => followUps.left ++ rest.left

/-- The jobs of a script that run where they are handed in. -/
def Script.inside : Script α → List (Job α)
  | .done => []
  | .job (some _) _ _ _ rest => rest.inside
  | .job none effect followUps fails rest =>
    ⟨effect, followUps, fails⟩ :: (followUps.inside ++ rest.inside)

def Job.whole (j : Job α) : List (Job α) := j :: j.followUps.inside

namespace WorkQueue

def jobsOf (owner : ThreadId) (ps : List (Parcel α)) : List (Job α) :=
  (ps.filter (·.owner == some owner)).map (·.job)

def besides (owner : ThreadId) (ps : List (Parcel α)) : List (Parcel α) :=
  ps.filter (·.owner != some owner)

def handsIn (owner : ThreadId) (j : Job α) : List (Job α) := jobsOf owner j.followUps.left

section Lists
variable (owner : ThreadId) (ps more : List (Parcel α))

theorem jobsOf_append : jobsOf owner (ps ++ more) = jobsOf owner ps ++ jobsOf owner more := by
  simp only [jobsOf, List.filter_append, List.map_append]

theorem besides_append : besides owner (ps ++ more) = besides owner ps ++ besides owner more := by
  simp only [besides, List.filter_append]

variable {owner ps}

theorem jobsOf_cons_self {p : Parcel α} (own : p.owner = some owner) :
    jobsOf owner (p :: ps) = p.job :: jobsOf owner ps := by
  simp [jobsOf, own]

theorem jobsOf_cons_of_ne {p : Parcel α} (other : p.owner ≠ some owner) :
    jobsOf owner (p :: ps) = jobsOf owner ps := by
  simp [jobsOf, other]

theorem jobsOf_eq_nil : jobsOf owner ps = [] ↔ ∀ p ∈ ps, p.owner ≠ some owner := by
  simp [jobsOf]

theorem besides_of_jobsOf_eq_nil (none : jobsOf owner ps = []) : besides owner ps = ps := by
  simpa [besides] using jobsOf_eq_nil.mp none

theorem split_of_jobsOf {j : Job α} {js : List (Job α)} (found : jobsOf owner ps = j :: js) :
    ∃ before p after, ps = before ++ p :: after ∧ jobsOf owner before = [] ∧
      p.owner = some owner ∧ p.job = j := by
  induction ps with
  | nil => cases found
  | cons first ps ih =>
    by_cases own : first.owner = some owner
    · rw [jobsOf_cons_self own] at found
      exact ⟨[], first, ps, rfl, rfl, own, (List.cons.inj found).1⟩
    · rw [jobsOf_cons_of_ne own] at found
      obtain ⟨before, p, after, rfl, none, isOwner, job⟩ := ih found
      exact ⟨first :: before, p, after, rfl, (jobsOf_cons_of_ne own).trans none, isOwner, job⟩

end Lists

/-! ## One job -/

structure Solo (q : WorkQueue α) : Prop where
  workers : q.workers = 0
  stopped : q.stopped = false

structure Ran (q q' : WorkQueue α) (jobs : List (Job α)) : Prop where
  started : q'.started.toList = q.started.toList ++ jobs.map (·.effect)
  executed : q'.executed = q.executed + jobs.length
  failed : q'.failed = q.failed + jobs.countP (·.fails)

theorem Ran.refl (q : WorkQueue α) : q.Ran q [] := ⟨(List.append_nil _).symm, rfl, rfl⟩

theorem Ran.account (q : WorkQueue α) : q.Ran q.account [] := ⟨(List.append_nil _).symm, rfl, rfl⟩

theorem Ran.enqueue (q : WorkQueue α) (owner : ThreadId) (j : Job α) :
    q.Ran (q.enqueue (some owner) j) [] := ⟨(List.append_nil _).symm, rfl, rfl⟩

theorem Ran.trans {q q' q'' : WorkQueue α} {jobs more : List (Job α)} (h : q.Ran q' jobs)
    (k : q'.Ran q'' more) : q.Ran q'' (jobs ++ more) where
  started := by rw [k.started, h.started, List.map_append, List.append_assoc]
  executed := by rw [k.executed, h.executed, List.length_append, Nat.add_assoc]
  failed := by rw [k.failed, h.failed, List.countP_append, Nat.add_assoc]

theorem Ran.around {q q' : WorkQueue α} (j : Job α) {inside : List (Job α)}
    (h : (q.start j.effect).Ran q' inside) : q.Ran (q'.finish j.fails) (j :: inside) where
  started := by
    change q'.started.toList = _
    rw [h.started]
    simp [start]
  executed := by
    change q'.executed + 1 = q.executed + (inside.length + 1)
    rw [h.executed]
    exact Nat.add_assoc ..
  failed := by
    change q'.failed + (if j.fails then 1 else 0) = _
    rw [h.failed, List.countP_cons]
    exact Nat.add_assoc ..

namespace Solo
variable {q : WorkQueue α} (solo : q.Solo)
include solo

theorem handIn_some (owner : ThreadId) (effect : α) (followUps : Script α) (fails : Bool)
    (rest : Script α) : handIn (.job (some owner) effect followUps fails rest) q =
      handIn rest (q.account.enqueue (some owner) ⟨effect, followUps, fails⟩) :=
  handIn_of_later (by simp [runsAtOnce, solo.stopped])

theorem handIn_none (effect : α) (followUps : Script α) (fails : Bool) (rest : Script α) :
    handIn (.job none effect followUps fails rest) q =
      handIn rest ((handIn followUps (q.account.start effect)).finish fails) :=
  handIn_of_now (by simp [runsAtOnce, solo.workers])

theorem account : q.account.Solo := ⟨solo.workers, solo.stopped⟩

theorem start (effect : α) : (q.start effect).Solo := ⟨solo.workers, solo.stopped⟩

theorem enqueue (owner : ThreadId) (j : Job α) : (q.enqueue (some owner) j).Solo :=
  ⟨solo.workers, solo.stopped⟩

theorem finish (fails : Bool) : (q.finish fails).Solo := ⟨solo.workers, solo.stopped⟩

theorem handIn (script : Script α) : (WorkQueue.handIn script q).Solo := by
  induction script generalizing q with
  | done => exact solo
  | job owner effect followUps fails rest ihFollowUps ihRest =>
    cases owner with
    | some owner =>
      rw [solo.handIn_some]
      exact ihRest (solo.account.enqueue owner _)
    | none =>
      rw [solo.handIn_none]
      exact ihRest ((ihFollowUps (solo.account.start effect)).finish fails)

theorem ran_handIn (script : Script α) : q.Ran (WorkQueue.handIn script q) script.inside := by
  induction script generalizing q with
  | done => exact .refl q
  | job owner effect followUps fails rest ihFollowUps ihRest =>
    cases owner with
    | some owner =>
      rw [solo.handIn_some]
      have waits := (Ran.account q).trans (.enqueue q.account owner ⟨effect, followUps, fails⟩)
      exact waits.trans (ihRest (solo.account.enqueue owner _))
    | none =>
      rw [solo.handIn_none]
      have begun := solo.account.start effect
      have own := Ran.around ⟨effect, followUps, fails⟩ (ihFollowUps begun)
      exact ((Ran.account q).trans own).trans (ihRest ((begun.handIn followUps).finish fails))

/-- What is handed in does not depend on what waits, and comes behind it. -/
theorem handIn_holding (script : Script α) (ps : List (Parcel α)) :
    WorkQueue.handIn script (q.holding ps) =
      (WorkQueue.handIn script q).holding (ps ++ script.left) := by
  induction script generalizing q ps with
  | done => exact congrArg q.holding (List.append_nil ps).symm
  | job owner effect followUps fails rest ihFollowUps ihRest =>
    have solo' : (q.holding ps).Solo := ⟨solo.workers, solo.stopped⟩
    cases owner with
    | some owner =>
      have lane : q.account.laneOf owner = owner.toNat := if_pos solo.workers
      have enqueue : ∀ ps, (q.holding ps).account.enqueue (some owner) ⟨effect, followUps, fails⟩ =
          q.account.holding (ps ++ [⟨some owner, owner.toNat, ⟨effect, followUps, fails⟩⟩]) := by
        intro ps
        rw [← lane]
        rfl
      rw [solo.handIn_some, solo'.handIn_some, enqueue]
      change _ = (WorkQueue.handIn rest
        ((q.holding q.waiting).account.enqueue _ _)).holding _
      rw [enqueue, ihRest solo.account, ihRest solo.account, Script.left, List.append_assoc]
      rfl
    | none =>
      have begun := solo.account.start effect
      have finished := (begun.handIn followUps).finish fails
      have inside := ihFollowUps begun ps
      have others := ihRest finished (ps ++ followUps.left)
      rw [solo.handIn_none, solo'.handIn_none, Script.left, ← List.append_assoc, ← others]
      exact congrArg (fun q : WorkQueue α => WorkQueue.handIn rest (q.finish fails)) inside

theorem run_holding (j : Job α) (ps : List (Parcel α)) :
    (q.holding ps).run j = (q.run j).holding (ps ++ j.followUps.left) :=
  congrArg (·.finish j.fails) ((solo.start j.effect).handIn_holding j.followUps ps)

theorem run (j : Job α) : (q.run j).Solo :=
  ((solo.start j.effect).handIn j.followUps).finish j.fails

theorem ran_run (j : Job α) : q.Ran (q.run j) j.whole :=
  Ran.around j ((solo.start j.effect).ran_handIn j.followUps)

end Solo

/-! ## One round -/

def round (owner : ThreadId) (q : WorkQueue α) : WorkQueue α :=
  (jobsOf owner q.waiting).foldl run (q.holding (besides owner q.waiting))

theorem Solo.foldl_run {q : WorkQueue α} (solo : q.Solo) (js : List (Job α)) :
    (js.foldl WorkQueue.run q).Solo ∧ q.Ran (js.foldl WorkQueue.run q) (js.flatMap Job.whole) ∧
      ∀ ps, js.foldl WorkQueue.run (q.holding ps) =
        (js.foldl WorkQueue.run q).holding (ps ++ js.flatMap (·.followUps.left)) := by
  induction js generalizing q with
  | nil => exact ⟨solo, .refl q, fun ps => congrArg q.holding (List.append_nil ps).symm⟩
  | cons j js ih =>
    obtain ⟨still, ran, behind⟩ := ih (solo.run j)
    refine ⟨still, (solo.ran_run j).trans ran, fun ps => ?_⟩
    rw [List.foldl_cons, List.foldl_cons, solo.run_holding, behind, List.append_assoc]
    rfl

/-- After a round there waits what waited for the others, and behind it what was handed in. -/
theorem Solo.round_eq {q : WorkQueue α} (solo : q.Solo) (owner : ThreadId) :
    q.round owner = ((jobsOf owner q.waiting).foldl WorkQueue.run q).holding
      (besides owner q.waiting ++ (jobsOf owner q.waiting).flatMap (·.followUps.left)) :=
  (solo.foldl_run (jobsOf owner q.waiting)).2.2 _

theorem Solo.round {q : WorkQueue α} (solo : q.Solo) (owner : ThreadId) :
    (q.round owner).Solo := by
  obtain ⟨still, -, -⟩ := solo.foldl_run (jobsOf owner q.waiting)
  rw [solo.round_eq]
  exact ⟨still.workers, still.stopped⟩

theorem Solo.ran_round {q : WorkQueue α} (solo : q.Solo) (owner : ThreadId) :
    q.Ran (q.round owner) ((jobsOf owner q.waiting).flatMap Job.whole) := by
  obtain ⟨-, ran, -⟩ := solo.foldl_run (jobsOf owner q.waiting)
  rw [solo.round_eq]
  exact ⟨ran.started, ran.executed, ran.failed⟩

def InLanes (ps : List (Parcel α)) : Prop :=
  ∀ p ∈ ps, ∃ owner, p.owner = some owner ∧ p.lane = owner.toNat

theorem inLanes_left (script : Script α) : InLanes script.left := by
  induction script with
  | done => exact List.forall_mem_nil _
  | job owner effect followUps fails rest ihFollowUps ihRest =>
    cases owner with
    | some owner => exact List.forall_mem_cons.mpr ⟨⟨owner, rfl, rfl⟩, ihRest⟩
    | none => exact List.forall_mem_append.mpr ⟨ihFollowUps, ihRest⟩

theorem Laned.round {q : WorkQueue α} (laned : q.Laned) (solo : q.Solo) (owner : ThreadId) :
    (q.round owner).Laned := by
  refine ⟨(solo.round owner).workers, ?_⟩
  rw [solo.round_eq]
  intro p member
  rcases List.mem_append.mp member with old | new
  · exact laned.lanes p (List.mem_filter.mp old).1
  · obtain ⟨j, -, new⟩ := List.mem_flatMap.mp new
    exact inLanes_left j.followUps p new

theorem jobsOf_flatMap_left (owner : ThreadId) (js : List (Job α)) :
    jobsOf owner (js.flatMap (·.followUps.left)) = js.flatMap (handsIn owner) := by
  induction js with
  | nil => rfl
  | cons j js ih =>
    rw [List.flatMap_cons, List.flatMap_cons, jobsOf_append, ih]
    rfl

theorem Solo.jobsOf_round_self {q : WorkQueue α} (solo : q.Solo) (owner : ThreadId) :
    jobsOf owner (q.round owner).waiting = (jobsOf owner q.waiting).flatMap (handsIn owner) := by
  have none : jobsOf owner (besides owner q.waiting) = [] := by
    apply jobsOf_eq_nil.mpr
    intro p member
    exact bne_iff_ne.mp (List.mem_filter.mp member).2
  rw [solo.round_eq]
  change jobsOf owner (_ ++ _) = _
  rw [jobsOf_append, none, List.nil_append, jobsOf_flatMap_left]

theorem Solo.jobsOf_round {q : WorkQueue α} (solo : q.Solo) {owner other : ThreadId}
    (differ : other ≠ owner) : jobsOf other (q.round owner).waiting =
      jobsOf other q.waiting ++ (jobsOf owner q.waiting).flatMap (handsIn other) := by
  have same : jobsOf other (besides owner q.waiting) = jobsOf other q.waiting := by
    unfold jobsOf besides
    rw [List.filter_filter]
    congr 1
    apply List.filter_congr
    intro p _
    by_cases own : p.owner = some other <;> simp [own, differ]
  rw [solo.round_eq]
  change jobsOf other (_ ++ _) = _
  rw [jobsOf_append, same, jobsOf_flatMap_left]

/-! ## The line -/

/-- The line in which jobs run: those that wait, and behind them all that the jobs in the line hand
in for the owner, in the order of the line. -/
def InLine (owner : ThreadId) (js line : List (Job α)) : Prop :=
  line = js ++ line.flatMap (handsIn owner)

def load (js : List (Job α)) : Nat := js.foldr (fun j n => 1 + j.followUps.size + n) 0

theorem load_append (js more : List (Job α)) : load (js ++ more) = load js + load more := by
  induction js with
  | nil => exact (Nat.zero_add _).symm
  | cons j js ih =>
    change 1 + j.followUps.size + load (js ++ more) = 1 + j.followUps.size + load js + load more
    omega

theorem load_split (owner : ThreadId) (ps : List (Parcel α)) :
    load (ps.map (·.job)) = load (jobsOf owner ps) + load ((besides owner ps).map (·.job)) := by
  induction ps with
  | nil => rfl
  | cons p ps ih =>
    change 1 + p.job.followUps.size + load (ps.map (·.job)) = _
    by_cases own : p.owner = some owner
    · have skip : besides owner (p :: ps) = besides owner ps := by simp [besides, own]
      rw [jobsOf_cons_self own, skip]
      change _ = 1 + p.job.followUps.size + load (jobsOf owner ps) + _
      omega
    · have keep : besides owner (p :: ps) = p :: besides owner ps := by simp [besides, own]
      rw [jobsOf_cons_of_ne own, keep]
      change _ = _ + (1 + p.job.followUps.size + load ((besides owner ps).map (·.job)))
      omega

theorem load_left (script : Script α) : load (script.left.map (·.job)) ≤ script.size := by
  induction script with
  | done => exact Nat.le_refl _
  | job owner effect followUps fails rest ihFollowUps ihRest =>
    cases owner with
    | some owner =>
      change 1 + followUps.size + load (rest.left.map (·.job)) ≤ 1 + followUps.size + rest.size
      omega
    | none =>
      rw [Script.left, List.map_append, load_append]
      change _ ≤ 1 + followUps.size + rest.size
      omega

theorem load_flatMap_left (js : List (Job α)) :
    load ((js.flatMap (·.followUps.left)).map (·.job)) + js.length ≤ load js := by
  induction js with
  | nil => exact Nat.le_refl _
  | cons j js ih =>
    have own := load_left j.followUps
    rw [List.flatMap_cons, List.map_append, load_append]
    change _ + (js.length + 1) ≤ 1 + j.followUps.size + load js
    omega

theorem load_flatMap_handsIn (owner : ThreadId) (js : List (Job α)) :
    load (js.flatMap (handsIn owner)) + js.length ≤ load js := by
  have all := load_flatMap_left js
  rw [load_split owner, jobsOf_flatMap_left] at all
  omega

theorem InLine.tail {owner : ThreadId} {j : Job α} {js line : List (Job α)}
    (h : InLine owner (j :: js) line) :
    ∃ others, line = j :: others ∧ InLine owner (js ++ handsIn owner j) others := by
  unfold InLine at h
  cases line with
  | nil => cases h
  | cons first others =>
    obtain ⟨rfl, same⟩ := List.cons.inj h
    refine ⟨others, rfl, ?_⟩
    rw [InLine, List.append_assoc]
    exact same

/-- There is only one line: each next job in it is settled by those before it. -/
theorem InLine.unique {owner : ThreadId} {js line other : List (Job α)} (h : InLine owner js line)
    (k : InLine owner js other) : line = other := by
  generalize size : load js = n
  induction n using Nat.strongRecOn generalizing js line other with
  | ind n ih =>
    cases js with
    | nil =>
      -- a line that waits for itself to begin has no first job: it would be larger than itself
      have empty : ∀ line : List (Job α), InLine owner [] line → line = [] := by
        intro line h
        have smaller := load_flatMap_handsIn owner line
        rw [← List.nil_append (line.flatMap _), ← h] at smaller
        exact List.eq_nil_of_length_eq_zero (by omega)
      rw [empty line h, empty other k]
    | cons j js =>
      obtain ⟨rest, rfl, first⟩ := h.tail
      obtain ⟨rest', rfl, second⟩ := k.tail
      have one := load_flatMap_handsIn owner [j]
      have smaller : load (js ++ handsIn owner j) < n := by
        rw [List.flatMap_singleton] at one
        change _ + 1 ≤ load [j] at one
        have whole : load (j :: js) = load [j] + load js := load_append [j] js
        rw [load_append]
        omega
      rw [ih _ smaller first second rfl]

theorem InLine.round {owner : ThreadId} {js line : List (Job α)}
    (h : InLine owner (js.flatMap (handsIn owner)) line) : InLine owner js (js ++ line) := by
  rw [InLine, List.flatMap_append]
  exact congrArg (js ++ ·) h

/-! ## All rounds -/

/-- Rounds until nothing of the owner waits, from the first state to the last one. There is no bound
on their number. -/
inductive Rounds (owner : ThreadId) : WorkQueue α → WorkQueue α → Prop
  | empty {q : WorkQueue α} : jobsOf owner q.waiting = [] → Rounds owner q q
  | again {q q' : WorkQueue α} : jobsOf owner q.waiting ≠ [] → Rounds owner (q.round owner) q' →
    Rounds owner q q'

theorem Rounds.unique {owner : ThreadId} {q q' q'' : WorkQueue α} (h : Rounds owner q q')
    (k : Rounds owner q q'') : q' = q'' := by
  induction h with
  | empty none =>
    cases k with
    | empty _ => rfl
    | again some _ => exact absurd none some
  | again some _ ih =>
    cases k with
    | empty none => exact absurd none some
    | again _ k => exact ih k

/-- What a flush of `q` has done when it ends in `q'`: the jobs in the line ran, one behind the
other, each with those inside it, and what else they handed in waits behind what waited before. -/
structure Flushed (owner : ThreadId) (line : List (Job α)) (q q' : WorkQueue α) : Prop where
  laned : q'.Laned
  solo : q'.Solo
  ran : q.Ran q' (line.flatMap Job.whole)
  own : jobsOf owner q'.waiting = []
  others : ∀ other, other ≠ owner →
    jobsOf other q'.waiting = jobsOf other q.waiting ++ line.flatMap (handsIn other)

theorem Rounds.flushed {owner : ThreadId} {q q' : WorkQueue α} (h : Rounds owner q q')
    (laned : q.Laned) (solo : q.Solo) :
    ∃ line, InLine owner (jobsOf owner q.waiting) line ∧ Flushed owner line q q' := by
  induction h with
  | empty none =>
    refine ⟨[], ?_, laned, solo, .refl _, none, fun other _ => (List.append_nil _).symm⟩
    rw [none]
    rfl
  | @again q q' _ _ ih =>
    obtain ⟨line, inLine, flushed⟩ := ih (laned.round solo owner) (solo.round owner)
    rw [solo.jobsOf_round_self] at inLine
    refine ⟨_, inLine.round, flushed.laned, flushed.solo, ?_, flushed.own, ?_⟩
    · rw [List.flatMap_append]
      exact (solo.ran_round owner).trans flushed.ran
    · intro other differ
      rw [flushed.others other differ, solo.jobsOf_round differ, List.flatMap_append,
        List.append_assoc]

end WorkQueue

end SpanWeave
