import SpanWeave.Proofs.Engine.Bench
import SpanWeave.Proofs.Engine.Sides
import SpanWeave.Proofs.Forest.Delay
import SpanWeave.Proofs.WorkQueue.Tickets

set_option autoImplicit false

/-!
# Delays

An offset of device times that is greater by some number makes all intervals on devices so much
later and changes nothing else of what is decided. Sinks that are told of the later intervals hold
the same as before, but for these intervals, whenever deferred work is done.
-/
namespace SpanWeave

/-! ## Data -/

def Span.delay (n : Nat) (s : Span) : Span :=
  { s with beginsAt := s.kind.delay n s.beginsAt, endsAt := s.kind.delay n s.endsAt }

def SpanStart.delay (n : Nat) (s : SpanStart) : SpanStart :=
  { s with time := s.kind.delay n s.time }

theorem Span.delay_of_host {s : Span} (host : s.kind = .cpu) (n : Nat) : s.delay n = s := by
  cases s
  cases host
  rfl

theorem SpanStart.finish_delay (n : Nat) (s : SpanStart) (endsAt : Nanos) :
    (s.delay n).finish (s.kind.delay n endsAt) = (s.finish endsAt).delay n := by
  have duration := s.kind.delay_sub n s.time endsAt
  unfold finish Span.cpu
  dsimp only
  change Span.mk _ _ _ _ (s.kind.delay n endsAt - s.kind.delay n s.time) _ _ _ _ _ _ _ _ _ = _
  rw [duration]
  rfl

namespace Notice

def delay (n : Nat) : Notice → Notice
  | .completes start endsAt => .completes (start.delay n) (start.kind.delay n endsAt)
  | .marks name m => .marks name (m.delay n)
  | .begins start => .begins start
  | .ends track time => .ends track time
  | .discards track => .discards track
  | .records name duration => .records name duration

def OpensHost : Notice → Prop
  | .begins start => start.kind = .cpu
  | _ => True

end Notice

def Deferred.delay (n : Nat) : Deferred → Deferred
  | .sample name duration => .sample name duration
  | .leaf start endsAt => .leaf (start.delay n) (start.kind.delay n endsAt)

namespace Deed

def delay (n : Nat) : Deed → Deed
  | .notice x => .notice (x.delay n)
  | .flush owner => .flush owner
  | .submit owner work => .submit owner (work.delay n)
  | .spawn work => .spawn (work.delay n)

def OpensHost : Deed → Prop
  | .notice x => x.OpensHost
  | _ => True

theorem OfHost.opensHost {thread : ThreadId} {d : Deed} (h : d.OfHost thread) : d.OpensHost := by
  cases h with
  | begins host => exact host
  | ends | discards | marks | records | flush | sample => trivial

theorem OfHost.delay {thread : ThreadId} {d : Deed} (h : d.OfHost thread) (n : Nat) :
    d.delay n = d := by
  cases h with
  | marks name host =>
    exact congrArg (fun m => Deed.notice (.marks name m)) (Mark.delay_of_host host n)
  | begins | ends | discards | records | flush | sample => rfl

theorem OfDevice.opensHost {d : Deed} (h : d.OfDevice) : d.OpensHost := by
  cases h <;> trivial

end Deed

/-! ## Sinks -/

namespace Recorder

def delay (n : Nat) (r : Recorder) : Recorder :=
  { r with finished := r.finished.map (Span.delay n) }

def OpensHost (r : Recorder) : Prop := ∀ track, ∀ start ∈ r.openOn track, start.kind = .cpu

theorem delay_setOpen (n : Nat) (r : Recorder) (track : Track) (starts : List SpanStart) :
    (r.delay n).setOpen track starts = (r.setOpen track starts).delay n := by
  cases starts <;> rfl

theorem delay_endSpan (n : Nat) {r : Recorder} (host : r.OpensHost) (track : Track) (time : Nanos) :
    (r.delay n).endSpan track time = (r.endSpan track time).delay n := by
  cases starts : r.openOn track with
  | nil =>
    have opened : (r.delay n).openOn track = [] := starts
    unfold endSpan
    rw [opened, starts]
    rfl
  | cons start rest =>
    have own : start.kind = .cpu := host track start (starts ▸ List.mem_cons_self)
    have still := Span.delay_of_host (s := start.finish time) own n
    have opened : (r.delay n).openOn track = start :: rest := starts
    rw [endSpan_eq opened, endSpan_eq starts, delay_setOpen]
    unfold delay
    dsimp only
    rw [Array.map_push, still]

theorem delay_discardSpan (n : Nat) (r : Recorder) (track : Track) :
    (r.delay n).discardSpan track = (r.discardSpan track).delay n := by
  have opened : (r.delay n).openOn track = r.openOn track := rfl
  unfold discardSpan
  rw [opened]
  cases r.openOn track with
  | nil => rfl
  | cons start rest =>
    dsimp only
    rw [delay_setOpen]
    rfl

theorem delay_completeSpan (n : Nat) (r : Recorder) (start : SpanStart) (endsAt : Nanos) :
    (r.delay n).completeSpan (start.delay n) (start.kind.delay n endsAt) =
      (r.completeSpan start endsAt).delay n := by
  unfold completeSpan delay
  dsimp only
  rw [SpanStart.finish_delay, Array.map_push]

theorem OpensHost.change {r r' : Recorder} (h : r.OpensHost) {track : Track}
    (here : ∀ start ∈ r'.openOn track, start.kind = .cpu)
    (others : ∀ other, track ≠ other → r'.openOn other = r.openOn other) : r'.OpensHost := by
  intro other
  by_cases same : track = other
  · rw [← same]
    exact here
  · rw [others other same]
    exact h other

end Recorder

namespace Sinks

def delay (n : Nat) (s : Sinks) : Sinks :=
  { s with spans := s.spans.map (Recorder.delay n), marks := s.marks.map (MarkLog.delay n) }

def OpensHost (s : Sinks) : Prop := ∀ r, s.spans = some r → r.OpensHost

theorem delay_spans (n : Nat) (s : Sinks) {f g : Recorder → Recorder}
    (same : ∀ r, s.spans = some r → f (r.delay n) = (g r).delay n) :
    ({ s.delay n with spans := (s.delay n).spans.map f } : Sinks) =
      Sinks.delay n { s with spans := s.spans.map g } := by
  unfold delay
  dsimp only
  cases spans : s.spans with
  | none => rfl
  | some r => rw [Option.map_some, Option.map_some, Option.map_some, Option.map_some, same r spans]

theorem take_delay (n : Nat) {s : Sinks} (host : s.OpensHost) (x : Notice) :
    (s.delay n).take (x.delay n) = (s.take x).delay n := by
  cases x with
  | begins start => exact s.delay_spans n fun r _ => r.delay_setOpen n start.track _
  -- the time of an end is one of the host, so the span that it ends has to be one as well
  | ends track time =>
    exact s.delay_spans n fun r held => Recorder.delay_endSpan n (host r held) _ _
  | discards track => exact s.delay_spans n fun r _ => r.delay_discardSpan n track
  | completes start endsAt => exact s.delay_spans n fun r _ => r.delay_completeSpan n start endsAt
  | marks name m =>
    have pushed : (s.marks.map (MarkLog.delay n)).map (·.push name (m.delay n)) =
        (s.marks.map (·.push name m)).map (MarkLog.delay n) := by
      rw [Option.map_map, Option.map_map]
      exact congrArg (Option.map · s.marks) (funext fun l => l.delay_push n name m)
    exact congrArg (fun marks => { s.delay n with marks }) pushed
  | records name duration => rfl

theorem opensHost_take {s : Sinks} (h : s.OpensHost) {x : Notice} (host : x.OpensHost) :
    (s.take x).OpensHost := by
  have mapped : ∀ f : Recorder → Recorder, (∀ r : Recorder, r.OpensHost → (f r).OpensHost) →
      ∀ r', s.spans.map f = some r' → r'.OpensHost := by
    intro f kept r' eq
    obtain ⟨r, held, rfl⟩ := Option.map_eq_some_iff.mp eq
    exact kept r (h r held)
  cases x with
  | begins start =>
    refine mapped _ fun r own => own.change ?_ fun _ => r.openOn_beginSpan_of_ne start
    rw [Recorder.openOn_beginSpan]
    exact List.forall_mem_cons.mpr ⟨host, own start.track⟩
  | ends track time =>
    refine mapped _ fun r own => own.change ?_ fun _ other => r.openOn_endSpan_of_ne other time
    rw [Recorder.openOn_endSpan]
    exact fun start member => own track start (List.mem_of_mem_tail member)
  | discards track =>
    refine mapped _ fun r own => own.change ?_ fun _ other => r.openOn_discardSpan_of_ne other
    rw [Recorder.openOn_discardSpan]
    exact fun start member => own track start (List.mem_of_mem_tail member)
  | completes start endsAt => exact mapped _ fun r own => own
  | marks | records => exact h

theorem perform_delay (n : Nat) (s : Sinks) (d : Deferred) :
    (s.delay n).perform (d.delay n) = (s.perform d).delay n := by
  cases d with
  | sample name duration => rfl
  | leaf start endsAt =>
    have completed : (s.delay n).completeSpan (start.delay n) (start.kind.delay n endsAt) =
        (s.completeSpan start endsAt).delay n :=
      s.delay_spans n fun r _ => r.delay_completeSpan n start endsAt
    change ((s.delay n).completeSpan _ _).recordDuration start.name
      (start.kind.delay n endsAt - start.kind.delay n start.time) = _
    rw [completed, SpanKind.delay_sub]
    rfl

end Sinks

/-! ## The bench -/

namespace Bench

def delay (n : Nat) (b : Bench) : Bench := ⟨b.work.map (Deferred.delay n), b.sinks.delay n⟩

theorem delay_settle (n : Nat) (b : Bench) (work : WorkQueue Deferred) :
    (b.delay n).settle (work.map (Deferred.delay n)) = (b.settle work).delay n := by
  have performed : ∀ (ds : List Deferred) (s : Sinks),
      (ds.map (Deferred.delay n)).foldl Sinks.perform (s.delay n) =
        (ds.foldl Sinks.perform s).delay n := by
    intro ds
    induction ds with
    | nil => exact fun s => rfl
    | cons d ds ih =>
      intro s
      rw [List.map_cons, List.foldl_cons, List.foldl_cons, s.perform_delay, ih]
  unfold settle delay
  dsimp only [WorkQueue.map]
  rw [← Array.foldl_toList, ← Array.foldl_toList, Array.toList_map, performed, Array.map_empty]

/-- Deferred work begins no span. -/
theorem opensHost_settle {b : Bench} (h : b.sinks.OpensHost) (work : WorkQueue Deferred) :
    (b.settle work).sinks.OpensHost := by
  refine kept_settle (P := Sinks.OpensHost) (fun s x free own => s.opensHost_take own ?_) h work
  cases x with
  | begins => cases free
  | ends | discards | completes | marks | records => trivial

theorem delay_act (n : Nat) {b : Bench} (h : b.sinks.OpensHost) (d : Deed) :
    (b.delay n).act (d.delay n) = (b.act d).delay n := by
  let f := Deferred.delay n
  cases d with
  | notice x => exact congrArg (Bench.mk _) (Sinks.take_delay n h x)
  | flush owner =>
    refine Eq.trans ?_ (b.delay_settle n (b.work.flush owner))
    exact congrArg (b.delay n).settle (WorkQueue.map_flush f b.work owner)
  | submit owner work =>
    refine Eq.trans ?_ (b.delay_settle n (b.work.submit owner { effect := work }))
    exact congrArg (b.delay n).settle
      (WorkQueue.map_ask f b.work (.submit owner { effect := work }))
  | spawn work =>
    refine Eq.trans ?_ (b.delay_settle n (b.work.spawn { effect := work }))
    exact congrArg (b.delay n).settle (WorkQueue.map_ask f b.work (.spawn { effect := work }))

theorem delay_stop (n : Nat) (b : Bench) :
    (b.delay n).settle (b.delay n).work.stop = (b.settle b.work.stop).delay n := by
  refine Eq.trans ?_ (b.delay_settle n b.work.stop)
  exact congrArg (b.delay n).settle (WorkQueue.map_stop (Deferred.delay n) b.work)

theorem opensHost_act {b : Bench} (h : b.sinks.OpensHost) {d : Deed} (host : d.OpensHost) :
    (b.act d).sinks.OpensHost := by
  cases d with
  | notice x => exact Sinks.opensHost_take h host
  | flush | submit | spawn => exact opensHost_settle h _

/-- On the later deeds the bench shows the later intervals. -/
theorem delay_actAll (n : Nat) {b : Bench} (h : b.sinks.OpensHost) {deeds : List Deed}
    (host : ∀ d ∈ deeds, d.OpensHost) :
    (b.delay n).actAll (deeds.map (Deed.delay n)) = (b.actAll deeds).delay n := by
  induction deeds generalizing b with
  | nil => rfl
  | cons d deeds ih =>
    obtain ⟨first, others⟩ := List.forall_mem_cons.mp host
    have later := ih (opensHost_act h first) others
    rw [← delay_act n h d] at later
    exact later

end Bench

/-! ## What is decided -/

/-- Under the offset `b` the completion is so much later than under `a`. -/
def Completion.Delays (a b : Int) (n : Nat) (c : Completion) : Prop :=
  shiftTime c.beginsAt.toNat b = shiftTime c.beginsAt.toNat a + n ∧
    shiftTime c.endsAt.toNat b = shiftTime c.endsAt.toNat a + n

def Move.delay (n : Nat) (m : Move) : Move := { m with deeds := m.deeds.map (Deed.delay n) }

namespace Setting
variable (k : Setting) {offset : Int} {n : Nat} (t : ThreadState) (x : Entry) (c : Completion)

theorem call_delay (fresh : SpanId) (c : HostCall) (now : Nanos) :
    ({ k with offset } : Setting).call t x fresh c now =
      ((k.call t x fresh c now).1, (k.call t x fresh c now).2.delay n) := by
  have same : (k.call t x fresh c now).2.deeds.map (Deed.delay n) =
      (k.call t x fresh c now).2.deeds := by
    refine (List.map_congr_left fun d member => ?_).trans (List.map_id _)
    exact (k.deeds_call t x fresh c now d member).delay n
  unfold Move.delay
  rw [same]
  rfl

theorem emission_delay (launch : Option CallRecord) {start : SpanStart}
    (device : start.kind = .device) (endsAt : Nanos) (lap : Nat) :
    ({ k with offset } : Setting).emission launch (start.delay n) c (endsAt + n) lap =
      (k.emission launch start c endsAt lap).map (Deed.delay n) := by
  have later : start.delay n = { start with time := start.time + n } := by
    unfold SpanStart.delay
    rw [device]
    rfl
  have completed : Deed.notice (.completes (start.delay n) (endsAt + n)) =
      Deed.delay n (.notice (.completes start endsAt)) := by
    change _ = Deed.notice (.completes (start.delay n) (start.kind.delay n endsAt))
    rw [device]
    rfl
  have duration : endsAt + n - (start.delay n).time = endsAt - start.time := by
    rw [later]
    exact Nat.add_sub_add_right _ _ _
  unfold emission
  rw [List.map_cons, ← completed, duration, later]
  cases launch with
  | none => rfl
  | some call => cases k.listens <;> rfl

theorem completion_delay (delays : c.Delays k.offset offset n) :
    ({ k with offset } : Setting).completion t x c =
      ((k.completion t x c).1, (k.completion t x c).2.delay n) := by
  unfold completion
  cases c.op? with
  | none => rfl
  | some op =>
    dsimp only
    rw [delays.1, delays.2]
    split
    · rfl
    · by_cases late : shiftTime c.endsAt.toNat k.offset ≤ shiftTime c.beginsAt.toNat k.offset
      · rw [if_pos late, if_pos (Nat.add_le_add_right late n)]
        rfl
      · rw [if_neg late, if_neg fun later => late (Nat.le_of_add_le_add_right later)]
        unfold Move.delay
        dsimp only
        rw [← emission_delay k c _ rfl]
        rfl

theorem loose_delay (delays : c.Delays k.offset offset n) :
    ({ k with offset } : Setting).loose t c = ((k.loose t c).1, (k.loose t c).2.delay n) := by
  unfold loose
  cases c.op? with
  | none => rfl
  | some op =>
    dsimp only
    rw [delays.1, delays.2]
    split
    · rfl
    · by_cases late : shiftTime c.endsAt.toNat k.offset ≤ shiftTime c.beginsAt.toNat k.offset
      · rw [if_pos late, if_pos (Nat.add_le_add_right late n)]
        rfl
      · rw [if_neg late, if_neg fun later => late (Nat.le_of_add_le_add_right later)]
        rfl

end Setting

end SpanWeave
