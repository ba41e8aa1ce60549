import SpanWeave.Proofs.WorkQueue.Order

set_option autoImplicit false

/-!
# Upkeep

A property of queues that is kept by all that happens to one job — it is handed in, waits, is taken
from the queue, starts, is done — is kept by all that a queue can be asked for, whatever the number
of workers and their turns. The property may speak of the jobs in hand, those that were handed in
but neither wait nor are done.
-/
namespace SpanWeave
variable {α : Type}

def Script.Each (T : Job α → Prop) : Script α → Prop
  | .done => True
  | .job _ effect followUps fails rest =>
    T ⟨effect, followUps, fails⟩ ∧ followUps.Each T ∧ rest.Each T

def Job.Each (T : Job α → Prop) (j : Job α) : Prop := T j ∧ j.followUps.Each T

theorem Script.each_true (script : Script α) : script.Each fun _ => True := by
  induction script with
  | done => trivial
  | job _ _ _ _ _ ihFollowUps ihRest => exact ⟨trivial, ihFollowUps, ihRest⟩

theorem Job.each_true (j : Job α) : j.Each fun _ => True := ⟨trivial, j.followUps.each_true⟩

def Request.job? : Request α → Option (Job α)
  | .submit _ j | .spawn j => some j
  | .flush _ | .stop => none

namespace WorkQueue

/-- `P n r` is kept by what happens to one job. There are `n` jobs in n; those that have started
are in `r`, which says whether they fail. -/
structure Upkeep (T : Job α → Prop) (P : Nat → List Bool → WorkQueue α → Prop) : Prop where
  account : ∀ {n r q}, P n r q → P (n + 1) r q.account
  start : ∀ {n r q} {j : Job α}, T j → P n r q → P n (j.fails :: r) (q.start j.effect)
  finish : ∀ {n r q fails}, P (n + 1) (fails :: r) q →
    P n r (q.finish fails)
  enqueue : ∀ {n r q} owner {j : Job α}, j.Each T → P (n + 1) r q →
    P n r (q.enqueue owner j)
  taken : ∀ {n r q before p after}, P n r q →
    q.waiting = before ++ p :: after →
    p.job.Each T ∧ P (n + 1) r (q.holding (before ++ after))
  turns : ∀ {n r q} turns, P n r q → P n r { q with turns := turns }
  stopped : ∀ {n r q}, P n r q → P n r { q with stopped := true }

namespace Upkeep
variable {T : Job α → Prop} {P : Nat → List Bool → WorkQueue α → Prop} (u : Upkeep T P)
  {n : Nat} {r : List Bool} {q q' : WorkQueue α}
include u

theorem handIn {s : Script α} (each : s.Each T) (h : P n r q) :
    P n r (WorkQueue.handIn s q) := by
  induction s generalizing q n r with
  | done => exact h
  | job owner effect followUps fails rest ihFollowUps ihRest =>
    obtain ⟨own, eachFollowUp, others⟩ := each
    rw [WorkQueue.handIn]
    apply ihRest others
    split
    · exact u.finish (ihFollowUps eachFollowUp (u.start (j := ⟨effect, followUps, fails⟩) own
        (u.account h)))
    · exact u.enqueue owner ⟨own, eachFollowUp⟩ (u.account h)

theorem run {j : Job α} (each : j.Each T) (h : P (n + 1) r q) :
    P n r (q.run j) :=
  u.finish (u.handIn each.2 (u.start each.1 h))

theorem takeFirst {lane : Nat} {p : Parcel α} {rest : List (Parcel α)} (h : P n r q)
    (found : WorkQueue.takeFirst lane q.waiting = some (p, rest)) :
    p.job.Each T ∧ P (n + 1) r (q.holding rest) := by
  obtain ⟨_, before, after, whole, rfl, _⟩ := takeFirst_split found
  exact u.taken h whole

theorem step? {lane : Nat} (h : P n r q) (stepped : q.step? lane = some q') :
    P n r q' := by
  obtain ⟨⟨p, rest⟩, found, rfl⟩ := Option.map_eq_some_iff.mp stepped
  obtain ⟨each, inHand⟩ := u.takeFirst h found
  exact u.run each inHand

theorem runLane (lane limit : Nat) (h : P n r q) :
    P n r (WorkQueue.runLane lane limit q) := by
  induction limit generalizing q with
  | zero => exact h
  | succ limit ih =>
    rw [WorkQueue.runLane]
    split
    · exact h
    · rename_i q' stepped
      exact ih (u.step? h stepped)

theorem tick (h : P n r q) : P n r q.tick := by
  refine List.foldlRecOn (motive := P n r) q.turn _ (u.turns _ h) fun q h lane _ => ?_
  cases stepped : q.step? lane with
  | none => exact h
  | some q' => exact u.step? h stepped

theorem drain {ps : List (Parcel α)} (each : ∀ p ∈ ps, p.job.Each T)
    (h : P (n + ps.length) r q) :
    P n r (ps.foldl (fun q p => q.run p.job) q) := by
  induction ps generalizing q with
  | nil => exact h
  | cons p ps ih =>
    obtain ⟨first, others⟩ := List.forall_mem_cons.mp each
    exact ih others (u.run first h)

/-- All that waits can be taken in n. -/
theorem emptied (h : P n r q) :
    (∀ p ∈ q.waiting, p.job.Each T) ∧ P (n + q.waiting.length) r (q.holding []) := by
  have all : ∀ (ps : List (Parcel α)) {n : Nat}, P n r (q.holding ps) →
      (∀ p ∈ ps, p.job.Each T) ∧ P (n + ps.length) r (q.holding []) := by
    intro ps
    -- one by one, since the property is kept by what happens to one job; `n` grows on the way
    induction ps with
    | nil => exact fun h => ⟨List.forall_mem_nil _, h⟩
    | cons p ps ih =>
      intro n h
      obtain ⟨first, inHand⟩ := u.taken (q := q.holding ([] ++ p :: ps)) h rfl
      obtain ⟨others, emptied⟩ := ih inHand
      refine ⟨List.forall_mem_cons.mpr ⟨first, others⟩, ?_⟩
      rw [List.length_cons, Nat.add_comm ps.length, ← Nat.add_assoc]
      exact emptied
  exact all q.waiting h

theorem halted (h : P n r q) :
    (∀ p ∈ q.drained, p.job.Each T) ∧
      P (n + q.drained.length) r (q.halted.holding []) := by
  obtain ⟨each, inHand⟩ := u.emptied (u.tick (u.stopped h))
  refine ⟨fun p member => each p (List.mem_mergeSort.mp member), ?_⟩
  rw [drained, List.length_mergeSort]
  exact inHand

theorem stop (h : P n r q) : P n r q.stop := by
  unfold WorkQueue.stop
  split
  · exact h
  · obtain ⟨each, inHand⟩ := u.halted h
    exact u.drain each inHand

theorem ask {request : Request α} (each : ∀ j ∈ request.job?, j.Each T) (h : P n r q) :
    P n r (q.ask request) := by
  cases request with
  | submit owner j =>
    obtain ⟨own, followUps⟩ := each j rfl
    exact u.tick (u.handIn (s := .job _ _ _ _ .done) ⟨own, followUps, trivial⟩ h)
  | spawn j =>
    obtain ⟨own, followUps⟩ := each j rfl
    exact u.tick (u.handIn (s := .job _ _ _ _ .done) ⟨own, followUps, trivial⟩ h)
  | flush owner =>
    change P n r (q.flush owner)
    unfold WorkQueue.flush
    split
    · exact u.runLane _ _ h
    · exact u.runLane _ _ (u.tick h)
  | stop => exact u.stop h

theorem askAll {requests : List (Request α)} (each : ∀ r ∈ requests, ∀ j ∈ r.job?, j.Each T)
    (h : P n r q) : P n r (q.askAll requests) :=
  List.foldlRecOn (motive := P n r) requests WorkQueue.ask h
    fun _ h request member => u.ask (each request member) h

end Upkeep

end WorkQueue

end SpanWeave
