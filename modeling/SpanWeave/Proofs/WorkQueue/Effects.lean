import SpanWeave.WorkQueue

set_option autoImplicit false

/-!
# What a queue can run

A property that all jobs have when they are handed in, those that jobs hand in included, is one of
every effect that the queue ever starts, whatever the number of workers and their turns.
-/
namespace SpanWeave
variable {α : Type} {P : α → Prop}

def Script.All (P : α → Prop) : Script α → Prop
  | .done => True
  | .job _ effect followUps _ rest => P effect ∧ followUps.All P ∧ rest.All P

def Job.All (P : α → Prop) (j : Job α) : Prop := P j.effect ∧ j.followUps.All P

namespace WorkQueue

structure All (P : α → Prop) (q : WorkQueue α) : Prop where
  waiting : ∀ p ∈ q.waiting, p.job.All P
  started : ∀ effect ∈ q.started, P effect

namespace All

theorem account {q : WorkQueue α} (h : q.All P) : q.account.All P := ⟨h.waiting, h.started⟩

theorem finish {q : WorkQueue α} (h : q.All P) (fails : Bool) : (q.finish fails).All P :=
  ⟨h.waiting, h.started⟩

theorem start {q : WorkQueue α} (h : q.All P) {effect : α} (he : P effect) :
    (q.start effect).All P := by
  refine ⟨h.waiting, fun a ha => ?_⟩
  rcases Array.mem_push.mp ha with old | rfl
  · exact h.started a old
  · exact he

theorem enqueue {q : WorkQueue α} (h : q.All P) (owner : Option ThreadId) {j : Job α}
    (hj : j.All P) : (q.enqueue owner j).All P := by
  cases owner with
  | none =>
    refine ⟨fun p hp => ?_, h.started⟩
    rcases List.mem_append.mp hp with old | new
    · exact h.waiting p old
    · rw [List.mem_singleton.mp new]
      exact hj
  | some owner =>
    refine ⟨fun p hp => ?_, h.started⟩
    rcases List.mem_append.mp hp with old | new
    · exact h.waiting p old
    · rw [List.mem_singleton.mp new]
      exact hj

theorem handIn {script : Script α} {q : WorkQueue α} (hs : script.All P) (h : q.All P) :
    (WorkQueue.handIn script q).All P := by
  induction script generalizing q with
  | done => exact h
  | job owner effect followUps fails rest ihFollowUps ihRest =>
    obtain ⟨hEffect, hFollowUps, hRest⟩ := hs
    rw [WorkQueue.handIn]
    apply ihRest hRest
    split
    · exact (ihFollowUps hFollowUps (h.account.start hEffect)).finish fails
    · exact h.account.enqueue owner ⟨hEffect, hFollowUps⟩

theorem run {q : WorkQueue α} (h : q.All P) {j : Job α} (hj : j.All P) : (q.run j).All P :=
  (handIn hj.2 (h.start hj.1)).finish j.fails

end All

theorem mem_of_takeFirst {lane : Nat} {ps rest : List (Parcel α)} {p : Parcel α}
    (h : takeFirst lane ps = some (p, rest)) : p ∈ ps ∧ rest ⊆ ps := by
  induction ps generalizing rest with
  | nil => cases h
  | cons q ps ih =>
    rw [takeFirst] at h
    split at h
    · cases h
      exact ⟨List.mem_cons_self, List.subset_cons_self _ _⟩
    · obtain ⟨⟨first, others⟩, found, eq⟩ := Option.map_eq_some_iff.mp h
      cases eq
      obtain ⟨member, subset⟩ := ih found
      exact ⟨List.mem_cons_of_mem _ member, List.cons_subset_cons _ subset⟩

namespace All

theorem step? {q q' : WorkQueue α} {lane : Nat} (h : q.All P) (hs : q.step? lane = some q') :
    q'.All P := by
  obtain ⟨⟨p, rest⟩, found, rfl⟩ := Option.map_eq_some_iff.mp hs
  obtain ⟨member, subset⟩ := mem_of_takeFirst found
  have others : ({ q with waiting := rest } : WorkQueue α).All P :=
    ⟨fun p hp => h.waiting p (subset hp), h.started⟩
  exact others.run (h.waiting p member)

theorem runLane {q : WorkQueue α} (lane limit : Nat) (h : q.All P) :
    (WorkQueue.runLane lane limit q).All P := by
  induction limit generalizing q with
  | zero => exact h
  | succ limit ih =>
    rw [WorkQueue.runLane]
    split
    · exact h
    · rename_i q' hs
      exact ih (h.step? hs)

theorem tick {q : WorkQueue α} (h : q.All P) : q.tick.All P := by
  have ready : ({ q with turns := q.turns.tail } : WorkQueue α).All P := ⟨h.waiting, h.started⟩
  refine List.foldlRecOn q.turn _ ready fun q h lane _ => ?_
  cases hs : q.step? lane with
  | none => exact h
  | some q' => exact h.step? hs

theorem submit {q : WorkQueue α} (h : q.All P) (owner : ThreadId) {j : Job α} (hj : j.All P) :
    (q.submit owner j).All P := by
  have script : (Script.job (some owner) j.effect j.followUps j.fails .done).All P :=
    ⟨hj.1, hj.2, trivial⟩
  exact (handIn script h).tick

theorem spawn {q : WorkQueue α} (h : q.All P) {j : Job α} (hj : j.All P) : (q.spawn j).All P := by
  have script : (Script.job none j.effect j.followUps j.fails .done).All P :=
    ⟨hj.1, hj.2, trivial⟩
  exact (handIn script h).tick

theorem flush {q : WorkQueue α} (h : q.All P) (owner : ThreadId) : (q.flush owner).All P := by
  unfold WorkQueue.flush
  split
  · exact h.runLane _ _
  · exact h.tick.runLane _ _

theorem stop {q : WorkQueue α} (h : q.All P) : q.stop.All P := by
  unfold WorkQueue.stop
  split
  · exact h
  · have stopped : ({ q with stopped := true } : WorkQueue α).tick.All P :=
      tick ⟨h.waiting, h.started⟩
    generalize ({ q with stopped := true } : WorkQueue α).tick = q' at stopped
    have emptied : ({ q' with waiting := [] } : WorkQueue α).All P :=
      ⟨fun p hp => absurd hp List.not_mem_nil, stopped.started⟩
    refine List.foldlRecOn _ _ emptied fun q h p hp => h.run ?_
    exact stopped.waiting p (List.mem_mergeSort.mp hp)

end All

end WorkQueue

end SpanWeave
