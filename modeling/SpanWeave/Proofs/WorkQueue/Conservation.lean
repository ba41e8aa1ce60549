import SpanWeave.Proofs.WorkQueue.Order

set_option autoImplicit false

/-!
# Conservation

A queue loses no job and starts none twice, whatever the number of workers and their turns. What it
has started and what the jobs that wait will lead to are together, in whatever order, what they were
before and what was handed in since. When the queue is stopped, nothing waits any more.
-/
namespace SpanWeave
variable {α : Type}

def Script.effects : Script α → List α
  | .done => []
  | .job _ effect followUps _ rest => effect :: (followUps.effects ++ rest.effects)

def Job.effects (j : Job α) : List α := j.effect :: j.followUps.effects

namespace WorkQueue

def outstanding (q : WorkQueue α) : List α := q.waiting.flatMap (·.job.effects)

def ledger (q : WorkQueue α) : List α := q.started.toList ++ q.outstanding

/-- Between the two states the effects `given` came in and nothing got lost. -/
structure Conserves (q q' : WorkQueue α) (given : List α) : Prop where
  stopped : q'.stopped = q.stopped
  ledger : q'.ledger.Perm (q.ledger ++ given)

namespace Conserves
variable {q q' q'' : WorkQueue α} {given more : List α}

theorem of_eq (stopped : q'.stopped = q.stopped) (ledger : q'.ledger = q.ledger) :
    q.Conserves q' [] := ⟨stopped, by rw [ledger, List.append_nil]⟩

theorem refl (q : WorkQueue α) : q.Conserves q [] := of_eq rfl rfl

theorem trans (h : q.Conserves q' given) (k : q'.Conserves q'' more) :
    q.Conserves q'' (given ++ more) := by
  refine ⟨k.stopped.trans h.stopped, k.ledger.trans ?_⟩
  rw [← List.append_assoc]
  exact h.ledger.append_right more

theorem account (q : WorkQueue α) : q.Conserves q.account [] := of_eq rfl rfl

theorem finish (q : WorkQueue α) (fails : Bool) : q.Conserves (q.finish fails) [] := of_eq rfl rfl

theorem start (q : WorkQueue α) (effect : α) : q.Conserves (q.start effect) [effect] := by
  refine ⟨rfl, ?_⟩
  change ((q.started.push effect).toList ++ q.outstanding).Perm _
  rw [Array.toList_push, WorkQueue.ledger, List.append_assoc, List.append_assoc]
  exact List.perm_append_comm.append_left _

theorem enqueue (q : WorkQueue α) (owner : Option ThreadId) (j : Job α) :
    q.Conserves (q.enqueue owner j) j.effects := by
  have added : ∀ p : Parcel α, q.started.toList ++ (q.waiting ++ [p]).flatMap (·.job.effects) =
      q.ledger ++ p.job.effects := by
    intro p
    rw [List.flatMap_append, List.flatMap_singleton, ← List.append_assoc]
    rfl
  cases owner with
  | some owner => exact ⟨rfl, .of_eq (added _)⟩
  | none => exact ⟨rfl, .of_eq (added _)⟩

theorem handIn (script : Script α) (q : WorkQueue α) :
    q.Conserves (WorkQueue.handIn script q) script.effects := by
  induction script generalizing q with
  | done => exact refl q
  | job owner effect followUps fails rest ihFollowUps ihRest =>
    rw [WorkQueue.handIn, Script.effects]
    refine (account q).trans ?_
    split
    · have own := ((start q.account effect).trans (ihFollowUps _)).trans (finish _ fails)
      rw [List.append_nil] at own
      exact own.trans (ihRest _)
    · exact (enqueue q.account owner ⟨effect, followUps, fails⟩).trans (ihRest _)

theorem run (q : WorkQueue α) (j : Job α) : q.Conserves (q.run j) j.effects := by
  have ran := ((start q j.effect).trans (handIn j.followUps _)).trans (finish _ j.fails)
  rw [List.append_nil] at ran
  exact ran

/-- What is taken from the queue is started. -/
theorem step? {lane : Nat} (h : q.step? lane = some q') : q.Conserves q' [] := by
  obtain ⟨⟨p, rest⟩, found, rfl⟩ := Option.map_eq_some_iff.mp h
  obtain ⟨_, before, after, whole, rfl, _⟩ := takeFirst_split found
  have ran := run (q.holding (before ++ after)) p.job
  refine ⟨ran.stopped, ran.ledger.trans ?_⟩
  have taken : (q.holding (before ++ after)).outstanding ++ p.job.effects =
      before.flatMap (·.job.effects) ++ (after.flatMap (·.job.effects) ++ p.job.effects) := by
    change (before ++ after).flatMap _ ++ _ = _
    rw [List.flatMap_append, List.append_assoc]
  have waited : q.outstanding =
      before.flatMap (·.job.effects) ++ (p.job.effects ++ after.flatMap (·.job.effects)) := by
    rw [outstanding, whole, List.flatMap_append, List.flatMap_cons]
  change (q.started.toList ++ _ ++ _).Perm (q.started.toList ++ q.outstanding ++ [])
  rw [List.append_nil, List.append_assoc, taken, waited]
  exact (List.perm_append_comm.append_left _).append_left _

theorem runLane (lane limit : Nat) (q : WorkQueue α) :
    q.Conserves (WorkQueue.runLane lane limit q) [] := by
  induction limit generalizing q with
  | zero => exact refl q
  | succ limit ih =>
    rw [WorkQueue.runLane]
    split
    · exact refl q
    · rename_i q' taken
      exact (step? taken).trans (ih q')

theorem tick (q : WorkQueue α) : q.Conserves q.tick [] := by
  refine List.foldlRecOn (motive := fun q' => q.Conserves q' []) q.turn _ (of_eq rfl rfl) ?_
  intro q' kept lane _
  cases taken : q'.step? lane with
  | none => exact kept
  | some q'' => exact kept.trans (step? taken)

/-- One job is handed in, on its own. -/
theorem one (q : WorkQueue α) (owner : Option ThreadId) (j : Job α) :
    q.Conserves (WorkQueue.handIn (.job owner j.effect j.followUps j.fails .done) q).tick
      j.effects := by
  have handed := (handIn (.job owner j.effect j.followUps j.fails .done) q).trans (tick _)
  rw [Script.effects, Script.effects, List.append_nil, List.append_nil] at handed
  exact handed

theorem submit (q : WorkQueue α) (owner : ThreadId) (j : Job α) :
    q.Conserves (q.submit owner j) j.effects := one q (some owner) j

theorem spawn (q : WorkQueue α) (j : Job α) : q.Conserves (q.spawn j) j.effects := one q none j

theorem flush (q : WorkQueue α) (owner : ThreadId) : q.Conserves (q.flush owner) [] := by
  unfold WorkQueue.flush
  split
  · exact runLane _ _ q
  · exact (tick q).trans (runLane _ _ _)

theorem drain (ps : List (Parcel α)) (q : WorkQueue α) :
    q.Conserves (ps.foldl (fun q p => q.run p.job) q) (ps.flatMap (·.job.effects)) := by
  induction ps generalizing q with
  | nil => exact refl q
  | cons p ps ih => exact (run q p.job).trans (ih _)

end Conserves

/-- When the queue is stopped, all that was outstanding has been started. -/
theorem started_stop {q : WorkQueue α} (running : q.stopped = false) :
    q.stop.started.toList.Perm q.ledger ∧ q.stop.waiting = [] := by
  have ticked := Conserves.tick ({ q with stopped := true } : WorkQueue α)
  have stopped : (q.halted.holding []).stopped = true := ticked.stopped
  have drained := (Conserves.drain q.drained (q.halted.holding [])).ledger
  have nothing : q.stop.waiting = [] := by
    rw [stop_of_running running]
    exact (waiting_drain q.drained stopped).2
  refine ⟨?_, nothing⟩
  have all : q.stop.started.toList = q.stop.ledger := by
    rw [ledger, outstanding, nothing]
    exact (List.append_nil _).symm
  have sorted : (q.drained.flatMap (·.job.effects)).Perm q.halted.outstanding :=
    (List.mergeSort_perm _ _).flatMap_right _
  rw [all, stop_of_running running]
  refine drained.trans ((sorted.append_left _).trans ?_)
  have kept := ticked.ledger
  rw [List.append_nil] at kept
  have empty : (q.halted.holding []).ledger = q.halted.started.toList := List.append_nil _
  rw [empty]
  exact kept

end WorkQueue

end SpanWeave
