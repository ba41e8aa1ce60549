import SpanWeave.Proofs.Engine.Background
import SpanWeave.Proofs.Engine.Bench

set_option autoImplicit false

/-!
# Gains

What completions add to the sinks and to the queue of deferred work. Workers may take what waits in
between; the spans that they leave stand among those of the completions, which keep their order.
-/
namespace SpanWeave

def Deferred.span? : Deferred → Option Span
  | .sample _ _ => none
  | .leaf start endsAt => some (start.finish endsAt)

def MarkLog.pushAll (log : MarkLog) (marks : List (String × Mark)) : MarkLog :=
  marks.foldl (fun log m => log.push m.1 m.2) log

structure Gain where
  spans : List Span := []
  marks : List (String × Mark) := []
  /-- Each one with its owner. -/
  jobs : List (ThreadId × Deferred) := []

namespace Gain

def add (x y : Gain) : Gain where
  spans := x.spans ++ y.spans
  marks := x.marks ++ y.marks
  jobs := x.jobs ++ y.jobs

def work (x : Gain) : List Deferred := x.jobs.map (·.2)

def parcels (x : Gain) : List (Parcel Deferred) :=
  x.jobs.map fun j => ⟨some j.1, j.1.toNat, { effect := j.2 }⟩

theorem work_add (x y : Gain) : (x.add y).work = x.work ++ y.work := List.map_append

theorem parcels_add (x y : Gain) : (x.add y).parcels = x.parcels ++ y.parcels := List.map_append

end Gain

/-! ## Queues without workers -/

namespace WorkQueue
variable {α : Type} {q : WorkQueue α}

/-- Jobs of owners wait until their owner asks for them. -/
structure Quiet (q : WorkQueue α) : Prop where
  workers : q.workers = 0
  running : q.stopped = false
  settled : q.started = #[]

theorem Quiet.submit (h : q.Quiet) (owner : ThreadId) (j : Job α) :
    (q.submit owner j).Quiet ∧
      (q.submit owner j).waiting = q.waiting ++ [⟨some owner, owner.toNat, j⟩] := by
  have waits : q.account.runsAtOnce (some owner) = false := by
    change (q.stopped || false) = false
    rw [h.running]
    rfl
  have lane : q.account.laneOf owner = owner.toNat := if_pos h.workers
  have idle : (q.account.enqueue (some owner) j).turn = [] := if_pos h.workers
  have handed : q.submit owner j = { q.account.enqueue (some owner) j with
      turns := (q.account.enqueue (some owner) j).turns.tail } := by
    unfold WorkQueue.submit
    rw [handIn, waits, if_neg Bool.false_ne_true, handIn, tick, idle]
    rfl
  rw [handed]
  refine ⟨⟨h.workers, h.running, h.settled⟩, ?_⟩
  change q.waiting ++ [⟨some owner, q.account.laneOf owner, j⟩] = _
  rw [lane]

end WorkQueue

/-! ## Sinks -/

theorem map_keep_nil (r : Option Recorder) : r.map (·.keep (List.toArray [])) = r := by
  cases r with
  | none => rfl
  | some r => exact congrArg some r.keep_empty

theorem map_keep_keep (r : Option Recorder) (xs ys : List Span) :
    (r.map (·.keep xs.toArray)).map (·.keep ys.toArray) = r.map (·.keep (xs ++ ys).toArray) := by
  cases r with
  | none => rfl
  | some r =>
    rw [Option.map_some, Option.map_some, Recorder.keep_keep, List.append_toArray]
    rfl

theorem map_pushAll_append (log : Option MarkLog) (xs ys : List (String × Mark)) :
    (log.map (·.pushAll xs)).map (·.pushAll ys) = log.map (·.pushAll (xs ++ ys)) := by
  cases log with
  | none => rfl
  | some log => exact congrArg some List.foldl_append.symm

namespace Sinks

/-- Work that was started leaves its spans and no marks. -/
theorem foldl_perform (ds : List Deferred) (s : Sinks) :
    (ds.foldl perform s).spans = s.spans.map (·.keep (ds.filterMap Deferred.span?).toArray) ∧
      (ds.foldl perform s).marks = s.marks := by
  induction ds generalizing s with
  | nil => exact ⟨(map_keep_nil s.spans).symm, rfl⟩
  | cons d ds ih =>
    obtain ⟨spans, marks⟩ := ih (s.perform d)
    cases d with
    | sample name duration => exact ⟨spans, marks⟩
    | leaf start endsAt =>
      refine ⟨spans.trans ?_, marks⟩
      exact map_keep_keep s.spans [start.finish endsAt] (ds.filterMap Deferred.span?)

end Sinks

/-! ## What is gained -/

theorem perm_append_cross {α : Type} (as bs cs ds : List α) :
    ((as ++ bs) ++ (cs ++ ds)).Perm ((as ++ cs) ++ (bs ++ ds)) := by
  rw [List.append_assoc, List.append_assoc, ← List.append_assoc bs, ← List.append_assoc cs]
  exact (List.perm_append_comm.append_right ds).append_left as

namespace Bench

/-- Of the work that was due, `performed` was done, and what it left stands among the new spans. -/
structure Among (b b' : Bench) (x : Gain) (performed : List Deferred) (added : List Span) :
    Prop where
  recorder : b'.sinks.spans = b.sinks.spans.map (·.keep added.toArray)
  inOrder : x.spans.Sublist added
  all : added.Perm (x.spans ++ performed.filterMap Deferred.span?)
  ledger : (performed ++ b'.work.ledger).Perm (b.work.ledger ++ x.work)

structure Gains (b b' : Bench) (x : Gain) : Prop where
  among : ∃ performed added, b.Among b' x performed added
  marks : b'.sinks.marks = b.sinks.marks.map (·.pushAll x.marks)
  quiet : b.work.Quiet → b'.work.Quiet ∧ b'.work.waiting = b.work.waiting ++ x.parcels ∧
    b'.sinks.spans = b.sinks.spans.map (·.keep x.spans.toArray)

namespace Gains
variable {b b' b'' : Bench} {x y : Gain}

theorem refl (b : Bench) : b.Gains b {} := by
  refine ⟨⟨[], [], (map_keep_nil _).symm, .refl _, .refl _, ?_⟩, ?_, fun quiet => ?_⟩
  · exact .of_eq (List.append_nil _).symm
  · cases b.sinks.marks <;> rfl
  · exact ⟨quiet, (List.append_nil _).symm, (map_keep_nil _).symm⟩

theorem trans (h : b.Gains b' x) (h' : b'.Gains b'' y) : b.Gains b'' (x.add y) := by
  obtain ⟨performed, added, recorder, inOrder, all, ledger⟩ := h.among
  obtain ⟨performed', added', recorder', inOrder', all', ledger'⟩ := h'.among
  refine ⟨⟨performed ++ performed', added ++ added', ?_, inOrder.append inOrder', ?_, ?_⟩, ?_,
    fun quiet => ?_⟩
  · rw [recorder', recorder, map_keep_keep]
  · rw [List.filterMap_append]
    exact (all.append all').trans (perm_append_cross ..)
  · rw [List.append_assoc, Gain.work_add]
    refine (ledger'.append_left performed).trans ?_
    rw [← List.append_assoc, ← List.append_assoc]
    exact ledger.append_right y.work
  · rw [h'.marks, h.marks, map_pushAll_append]
    rfl
  · obtain ⟨quiet, waiting, spans⟩ := h.quiet quiet
    obtain ⟨quiet, waiting', spans'⟩ := h'.quiet quiet
    refine ⟨quiet, ?_, ?_⟩
    · rw [waiting', waiting, Gain.parcels_add, List.append_assoc]
    · rw [spans', spans, map_keep_keep]
      rfl

/-- No work leaves a span. -/
theorem alone (h : b.Gains b' x) (due : ∀ d ∈ b.work.ledger, d.span? = none)
    (own : ∀ d ∈ x.work, d.span? = none) :
    b'.sinks.spans = b.sinks.spans.map (·.keep x.spans.toArray) := by
  obtain ⟨performed, added, recorder, inOrder, all, ledger⟩ := h.among
  have silent : performed.filterMap Deferred.span? = [] := by
    refine List.filterMap_eq_nil_iff.mpr fun d done => ?_
    have given := ledger.subset (List.mem_append_left _ done)
    exact (List.mem_append.mp given).elim (due d) (own d)
  rw [silent, List.append_nil] at all
  rw [recorder, inOrder.eq_of_length all.length_eq.symm]

/-- A notice that completes a span. -/
theorem completes (b : Bench) (start : SpanStart) (endsAt : Nanos) :
    b.Gains (b.act (.notice (.completes start endsAt))) { spans := [start.finish endsAt] } := by
  refine ⟨⟨[], [start.finish endsAt], rfl, .refl _, .refl _, ?_⟩, ?_, fun quiet => ?_⟩
  · exact .of_eq (List.append_nil _).symm
  · change b.sinks.marks = _
    cases b.sinks.marks <;> rfl
  · exact ⟨quiet, (List.append_nil _).symm, rfl⟩

theorem marked (b : Bench) (name : String) (m : Mark) :
    b.Gains (b.act (.notice (.marks name m))) { marks := [(name, m)] } := by
  refine ⟨⟨[], [], (map_keep_nil _).symm, .refl _, .refl _, ?_⟩, rfl, fun quiet => ?_⟩
  · exact .of_eq (List.append_nil _).symm
  · exact ⟨quiet, (List.append_nil _).symm, (map_keep_nil _).symm⟩

theorem submitted (b : Bench) (owner : ThreadId) (d : Deferred) :
    b.Gains (b.act (.submit owner d)) { jobs := [(owner, d)] } := by
  let work := b.work.submit owner { effect := d }
  have performed : (work.started.foldl Sinks.perform b.sinks).spans =
        b.sinks.spans.map (·.keep (work.started.toList.filterMap Deferred.span?).toArray) ∧
      (work.started.foldl Sinks.perform b.sinks).marks = b.sinks.marks := by
    rw [← Array.foldl_toList]
    exact Sinks.foldl_perform work.started.toList b.sinks
  obtain ⟨spans, marks⟩ := performed
  refine ⟨⟨work.started.toList, work.started.toList.filterMap Deferred.span?, spans,
    List.nil_sublist _, .refl _, ?_⟩, ?_, fun quiet => ?_⟩
  · exact (WorkQueue.Conserves.submit b.work owner { effect := d }).ledger
  · refine marks.trans ?_
    cases b.sinks.marks <;> rfl
  · obtain ⟨still, waiting⟩ := quiet.submit owner { effect := d }
    have nothing : work.started = #[] := still.settled
    refine ⟨⟨still.workers, still.running, rfl⟩, waiting, spans.trans ?_⟩
    rw [nothing]
    rfl

end Gains

end Bench

end SpanWeave
