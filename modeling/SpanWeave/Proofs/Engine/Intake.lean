import SpanWeave.Proofs.Engine.Deeds
import SpanWeave.Proofs.WorkQueue.Conservation
import SpanWeave.Proofs.WorkQueue.Counters

set_option autoImplicit false

/-!
# Intake

As long as the queue of deferred work is open, the jobs that are pending are those that wait. Events
leave it open, whatever they defer and whatever workers take in the meantime; when it is stopped, no
job is left.
-/
namespace SpanWeave

namespace WorkQueue
variable {α : Type}

/-- The queue takes work and has none in hand. -/
structure Open (q : WorkQueue α) : Prop where
  counted : q.Counted 0
  running : q.stopped = false

structure Empty (q : WorkQueue α) : Prop where
  waiting : q.waiting = []
  pending : q.pending = 0

namespace Open
variable {q : WorkQueue α} (h : q.Open)
include h

theorem submit (owner : ThreadId) (j : Job α) : (q.submit owner j).Open :=
  ⟨h.counted.askAll [.submit owner j], (Conserves.submit q owner j).stopped.trans h.running⟩

theorem spawn (j : Job α) : (q.spawn j).Open :=
  ⟨h.counted.askAll [.spawn j], (Conserves.spawn q j).stopped.trans h.running⟩

theorem flush (owner : ThreadId) : (q.flush owner).Open :=
  ⟨h.counted.askAll [.flush owner], (Conserves.flush q owner).stopped.trans h.running⟩

theorem stop : q.stop.Empty := by
  have waiting := (started_stop h.running).2
  have counted : q.stop.Counted 0 := h.counted.askAll [.stop]
  exact ⟨waiting, counted.pending.trans (congrArg List.length waiting)⟩

end Open

end WorkQueue

namespace Engine

def Accepts (e : Engine) : Prop := e.work.Open

namespace Accepts

theorem settle (e : Engine) {work : WorkQueue Deferred} (opened : work.Open) :
    (e.settle work).Accepts :=
  ⟨⟨opened.counted.pending, opened.counted.submitted⟩, opened.running⟩

variable {e : Engine} (h : e.Accepts)
include h

theorem act (d : Deed) : (e.act d).Accepts := by
  cases d with
  | notice n => exact h
  | flush owner => exact settle e (WorkQueue.Open.flush h owner)
  | submit owner work => exact settle e (WorkQueue.Open.submit h owner { effect := work })
  | spawn work => exact settle e (WorkQueue.Open.spawn h { effect := work })

theorem actAll (deeds : List Deed) : (e.actAll deeds).Accepts :=
  List.foldlRecOn (motive := Accepts) deeds Engine.act h fun _ h d _ => h.act d

theorem onCall (t : ThreadState) (c : HostCall) (now : Nanos) :
    (e.onCall t c now).2.2.Accepts := by
  have carried : ∀ m : Move, (e.carry c.correlation m).Accepts := fun _ => h
  rw [onCall_decided]
  exact (carried _).actAll _

theorem emit (launch : Option CallRecord) (start : SpanStart) (c : Completion) (endsAt : Nanos)
    (lap : Nat) : (e.emit launch start c endsAt lap).Accepts := by
  rw [emit_decided]
  exact h.actAll _

theorem drainOne (t : ThreadState) (offset : Int) (c : Completion) :
    (e.drainOne t offset c).2.2.Accepts := by
  unfold Engine.drainOne
  split
  · exact h
  · dsimp only
    split
    · exact h
    · have looked : ∀ registry, { e with registry }.Accepts := fun _ => h
      split
      · exact looked _
      · exact (looked _).emit _ _ _ _ _

theorem drain (clocks : Clocks) (t : ThreadState) (batch : List Completion) :
    (e.drain clocks t batch).2.2.Accepts := by
  have asked : (e.askOffset clocks).2.Accepts := h
  exact List.foldlRecOn (motive := fun x : DrainReport × ThreadState × Engine => x.2.2.Accepts)
    batch
    (fun x c =>
      let y := x.2.2.drainOne x.2.1 (e.askOffset clocks).1 c
      (x.1.add y.1, y.2.1, y.2.2))
    (b := ({}, t, (e.askOffset clocks).2)) asked fun x h c _ => h.drainOne _ _ c

theorem drainOneUntracked (thread : ThreadId) (offset : Int) (c : Completion) :
    (e.drainOneUntracked thread offset c).2.Accepts := by
  unfold Engine.drainOneUntracked
  split
  · exact h
  · dsimp only
    split
    · exact h
    · split
      · exact h
      · exact h.act (.spawn _)

theorem drainUntracked (clocks : Clocks) (thread : ThreadId) (batch : List Completion) :
    (e.drainUntracked clocks thread batch).2.Accepts := by
  have asked : (e.askOffset clocks).2.Accepts := h
  exact List.foldlRecOn (motive := fun x : DrainReport × Engine => x.2.Accepts) batch
    (fun x c =>
      let y := x.2.drainOneUntracked thread (e.askOffset clocks).1 c
      (x.1.add y.1, y.2))
    (b := ({}, (e.askOffset clocks).2)) asked fun x h c _ => h.drainOneUntracked thread _ c

end Accepts

end Engine

end SpanWeave
