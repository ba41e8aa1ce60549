import SpanWeave.Proofs.Engine.Fates
import SpanWeave.Proofs.Engine.Sides
import SpanWeave.Proofs.Replay.Runs

set_option autoImplicit false

/-!
# The desk

The books of a replay: its threads, the registry, the span ids and what is counted. Each call and
each completion of a batch turns them over on its own; the queue of deferred work and the sinks have
no say in it, and only get the deeds that come of it.
-/
namespace SpanWeave

def Counts.add (a b : Counts) : Counts where
  calls := a.calls.add b.calls
  registry := a.registry.add b.registry
  drains := a.drains.merge b.drains

theorem Counts.add_right_comm (c a b : Counts) : (c.add a).add b = (c.add b).add a := by
  simp only [Counts.add, CallCounts.add, RegistryCounts.add, DrainReport.merge, Nat.add_right_comm]

def HostCall.id? (c : HostCall) : Option CorrelationId :=
  match c.domain with
  | .correlated => some c.correlation
  | .untracked => none

inductive Part where
  | call (time : Nanos) (call : HostCall)
  | completion (completion : Completion)
  | loose (completion : Completion)

namespace Part

def id? : Part → Option CorrelationId
  | .call _ c => c.id?
  | .completion c => some c.correlation
  | .loose _ => none

def move (k : Setting) (t : ThreadState) (x : Entry) (fresh : SpanId) : Part → Move
  | .call now c => (k.call t x fresh c now).2
  | .completion c =>
    let y := k.completion t x c
    { y.2 with counts := { y.2.counts with drains := ({} : DrainReport).add y.1 } }
  | .loose c =>
    let y := k.loose t c
    { y.2 with counts := { y.2.counts with drains := ({} : DrainReport).add y.1 } }

end Part

def RecordedEvent.parts : RecordedEvent → List Part
  | .call _ time c => [.call time.toNat c]
  | .batch _ cs => cs.map .completion
  | .untracked _ cs => cs.map .loose

def RecordedEvent.steps (event : RecordedEvent) : List (ThreadId × Part) :=
  event.parts.map fun p => (event.thread, p)

def RecordedEvent.completions : RecordedEvent → List Completion
  | .call _ _ _ => []
  | .batch _ cs | .untracked _ cs => cs

/-- The map with another entry under the id, if there is an id and the entry changes. -/
def put {β : Type} (m : Std.ExtTreeMap CorrelationId β) :
    Option CorrelationId → Option (Option β) → Std.ExtTreeMap CorrelationId β
  | some id, some (some value) => m.insert id value
  | some id, some none => m.erase id
  | some _, none | none, _ => m

structure Desk where
  threads : ThreadId → ThreadState
  owners : Std.ExtTreeMap CorrelationId (String × ThreadId)
  identities : Std.ExtTreeMap CorrelationId Identity
  allocated : Nat
  counts : Counts

namespace Desk

def entry (d : Desk) : Option CorrelationId → Entry
  | some id => ⟨d.owners[id]?, d.identities[id]?⟩
  | none => ⟨none, none⟩

def move (k : Setting) (d : Desk) (x : ThreadId × Part) : Move :=
  x.2.move k (d.threads x.1) (d.entry x.2.id?) (d.allocated + 1)

def after (d : Desk) (thread : ThreadId) (id? : Option CorrelationId) (m : Move) : Desk where
  threads := Function.update d.threads thread m.thread
  owners := put d.owners id? (m.record.map (·.map fun record => (record.name, record.thread)))
  identities := put d.identities id? (m.record.map (·.map (·.identity)))
  allocated := d.allocated + if m.draws then 1 else 0
  counts := d.counts.add m.counts

def next (k : Setting) (d : Desk) (x : ThreadId × Part) : Desk := d.after x.1 x.2.id? (d.move k x)

def run (k : Setting) (d : Desk) (xs : List (ThreadId × Part)) : Desk := xs.foldl (next k) d

def deeds (k : Setting) : Desk → List (ThreadId × Part) → List Deed
  | _, [] => []
  | d, x :: xs => (d.move k x).deeds ++ deeds k (d.next k x) xs

theorem run_append (k : Setting) (d : Desk) (xs ys : List (ThreadId × Part)) :
    d.run k (xs ++ ys) = (d.run k xs).run k ys := List.foldl_append

theorem deeds_append (k : Setting) (d : Desk) (xs ys : List (ThreadId × Part)) :
    d.deeds k (xs ++ ys) = d.deeds k xs ++ (d.run k xs).deeds k ys := by
  induction xs generalizing d with
  | nil => rfl
  | cons x xs ih =>
    rw [List.cons_append, deeds, deeds, ih, List.append_assoc]
    rfl

end Desk

/-! ## The desk of a replay -/

namespace Part

/-- The id that the part carries, whether it is asked for or not. -/
def key : Part → CorrelationId
  | .call _ c => c.correlation
  | .completion c | .loose c => c.correlation

theorem id?_eq (p : Part) : p.id? = some p.key ∨ p.id? = none := by
  cases p with
  | call now c =>
    change c.id? = some c.correlation ∨ c.id? = none
    unfold HostCall.id?
    cases c.domain with
    | correlated => exact .inl rfl
    | untracked => exact .inr rfl
  | completion c => exact .inl rfl
  | loose c => exact .inr rfl

/-- A part without an id neither asks nor changes the registry. -/
theorem move_of_none {p : Part} (none : p.id? = none) (k : Setting) (t : ThreadState)
    (x y : Entry) (fresh : SpanId) :
    p.move k t x fresh = p.move k t y fresh ∧ (p.move k t x fresh).record = .none := by
  cases p with
  | completion c => cases none
  | loose c =>
    refine ⟨rfl, ?_⟩
    change (k.loose t c).2.record = .none
    unfold Setting.loose
    cases c.op? with
    | none => rfl
    | some op =>
      dsimp only
      split
      · rfl
      · split <;> rfl
  | call now c =>
    change c.id? = .none at none
    unfold HostCall.id? at none
    change (k.call t x fresh c now).2 = (k.call t y fresh c now).2 ∧
      (k.call t x fresh c now).2.record = .none
    unfold Setting.call
    cases domain : c.domain with
    | correlated =>
      rw [domain] at none
      cases none
    | untracked =>
      split
      · exact ⟨rfl, rfl⟩
      · cases c.phase with
        | enter => exact ⟨rfl, rfl⟩
        | exit =>
          refine ⟨rfl, ?_⟩
          exact k.exitUntracked_cases (P := fun m => m.record = .none) t fresh c now rfl
            (fun _ _ => rfl) fun _ _ _ _ => rfl

theorem thread_move (p : Part) (k : Setting) (t : ThreadState) (x : Entry) (fresh : SpanId) :
    (p.move k t x fresh).thread.thread = t.thread := by
  cases p with
  | loose c =>
    change (k.loose t c).2.thread.thread = t.thread
    unfold Setting.loose
    cases c.op? with
    | none => rfl
    | some op =>
      dsimp only
      split
      · rfl
      · split <;> rfl
  | completion c =>
    change (k.completion t x c).2.thread.thread = t.thread
    unfold Setting.completion
    cases c.op? with
    | none => rfl
    | some op =>
      dsimp only
      split
      · rfl
      · split <;> rfl
  | call now c => exact ThreadState.thread_of_base (k.base_call t x fresh c now)

end Part

namespace Replay

def desk (r : Replay) : Desk where
  threads := r.threadState
  owners := r.session.engine.registry.owners
  identities := r.session.engine.registry.identities
  allocated := r.session.engine.ids.allocated
  counts := ⟨r.session.engine.calls, r.session.engine.registry.counts, r.drains⟩

/-- An active session whose threads are known under their own numbers, and whose offset is known. -/
structure Live (r : Replay) : Prop where
  active : r.session.state = .active
  thread : ∀ thread, (r.threadState thread).thread = thread
  measured : r.session.engine.skew.measured.isSome = true

theorem desk_moved (r : Replay) {t : ThreadState} {thread : ThreadId} (known : t.thread = thread)
    (e : Engine) (drains : DrainReport) : (r.moved t e drains).desk =
      { threads := Function.update r.threadState thread t
        owners := e.registry.owners
        identities := e.registry.identities
        allocated := e.ids.allocated
        counts := ⟨e.calls, e.registry.counts, drains⟩ } := by
  unfold desk
  rw [threadState_moved r known]
  rfl

/-- A part does at the desk what it decides there, and its deeds besides. -/
theorem desk_part (r : Replay) {t : ThreadState} {thread : ThreadId} (known : t.thread = thread)
    (e : Engine) (drains : DrainReport) (p : Part) :
    let m := p.move e.setting t (e.entry p.key) (e.ids.allocated + 1)
    (r.moved t e drains).desk.move e.setting (thread, p) = m ∧
      (r.moved m.thread ((e.carry p.key m).actAll m.deeds) (drains.merge m.counts.drains)).desk =
        (r.moved t e drains).desk.next e.setting (thread, p) ∧
      m.thread.thread = thread ∧ ((e.carry p.key m).actAll m.deeds).bench =
        e.bench.actAll m.deeds ∧ ((e.carry p.key m).actAll m.deeds).setting = e.setting ∧
      ((e.carry p.key m).actAll m.deeds).skew = e.skew := by
  intro m
  have still : m.thread.thread = thread := (p.thread_move _ t _ _).trans known
  obtain ⟨registry, ids, calls, setting, skew⟩ := (e.carry p.key m).books_actAll m.deeds
  have decided : (r.moved t e drains).desk.move e.setting (thread, p) = m := by
    rw [desk_moved r known]
    change p.move e.setting (Function.update r.threadState thread t thread) _ _ = m
    rw [Function.update_self]
    rcases p.id?_eq with asked | silent
    · rw [asked]
      rfl
    · exact (p.move_of_none silent e.setting t _ _ _).1
  refine ⟨decided, ?_, still, ?_, setting, skew⟩
  · rw [Desk.next, decided, desk_moved r still, desk_moved r known, registry, ids, calls]
    unfold Desk.after
    dsimp only
    rw [Function.update_idem]
    rcases p.id?_eq with asked | silent
    · rw [asked]
      unfold Engine.carry Registry.put
      rcases m.record with _ | _ | record <;> rfl
    · have none : m.record = none := (p.move_of_none silent e.setting t (e.entry p.key)
        (e.entry p.key) _).2
      unfold Engine.carry Registry.put
      rw [none]
      rcases p.id? with _ | id <;> rfl
  · rw [Engine.bench_actAll]
    rfl

/-- What an event comes to: its parts go over the desk and leave their deeds to the bench. -/
structure Desked (k : Setting) (d : Desk) (b : Bench) (xs : List (ThreadId × Part)) (r : Replay) :
    Prop where
  desk : r.desk = d.run k xs
  bench : r.session.engine.bench = b.actAll (d.deeds k xs)
  setting : r.session.engine.setting = k

theorem Desked.cons {k : Setting} {d : Desk} {b : Bench} {x : ThreadId × Part}
    {xs : List (ThreadId × Part)} {r : Replay}
    (later : Desked k (d.next k x) (b.actAll (d.move k x).deeds) xs r) :
    Desked k d b (x :: xs) r where
  desk := later.desk
  bench := later.bench.trans List.foldl_append.symm
  setting := later.setting

theorem desked_completions (r : Replay) (thread : ThreadId) (cs : List Completion) {k : Setting}
    (t : ThreadState) (e : Engine) (report : DrainReport) (known : t.thread = thread)
    (setting : e.setting = k) :
    let y := Engine.drainEach e.skew.current cs (report, t, e)
    Desked k (r.moved t e (r.drains.merge report)).desk e.bench
        (cs.map fun c => (thread, .completion c)) (r.moved y.2.1 y.2.2 (r.drains.merge y.1)) ∧
      y.2.1.thread = thread ∧ y.2.2.skew = e.skew := by
  induction cs generalizing t e report with
  | nil => exact ⟨⟨rfl, rfl, setting⟩, known, rfl⟩
  | cons c cs ih =>
    subst setting
    let m := Part.move e.setting t (e.entry c.correlation) (e.ids.allocated + 1) (.completion c)
    let d := (e.setting.completion t (e.entry c.correlation) c).1
    have first : e.drainOne t e.skew.current c =
      (d, m.thread, (e.carry c.correlation m).actAll m.deeds) := e.drainOne_decided t c
    have unfolded : Engine.drainEach e.skew.current (c :: cs) (report, t, e) =
      let x := e.drainOne t e.skew.current c
      Engine.drainEach e.skew.current cs (report.add x.1, x.2.1, x.2.2) := rfl
    have counted : (r.drains.merge report).merge m.counts.drains = r.drains.merge (report.add d) :=
      (r.drains.merge_add report d).symm
    obtain ⟨decided, desk, still, bench, setting, skew⟩ :=
      r.desk_part known e (r.drains.merge report) (.completion c)
    obtain ⟨rest, still', skew'⟩ := ih m.thread _ (report.add d) still setting
    rw [unfolded, first]
    dsimp only
    rw [← skew]
    refine ⟨.cons ?_, still', skew'⟩
    rw [decided, ← desk, ← bench]
    change Desked _ (r.moved m.thread ((e.carry c.correlation m).actAll m.deeds)
      ((r.drains.merge report).merge m.counts.drains)).desk _ _ _
    rw [counted]
    exact rest

theorem desked_loose (r : Replay) (thread : ThreadId) (cs : List Completion) {k : Setting}
    (t : ThreadState) (e : Engine) (report : DrainReport) (known : t.thread = thread)
    (setting : e.setting = k) :
    let y := Engine.drainEachUntracked thread e.skew.current cs (report, e)
    Desked k (r.moved t e (r.drains.merge report)).desk e.bench
        (cs.map fun c => (thread, .loose c)) (r.moved t y.2 (r.drains.merge y.1)) ∧
      y.2.skew = e.skew := by
  induction cs generalizing e report with
  | nil => exact ⟨⟨rfl, rfl, setting⟩, rfl⟩
  | cons c cs ih =>
    subst setting
    let m := Part.move e.setting t (e.entry c.correlation) (e.ids.allocated + 1) (.loose c)
    let d := (e.setting.loose t c).1
    obtain ⟨taken, same⟩ := e.drainOneUntracked_decided t c
    rw [known] at taken
    have first : e.drainOneUntracked thread e.skew.current c =
      (d, (e.carry c.correlation m).actAll m.deeds) := taken
    have unmoved : m.thread = t := same
    have unfolded : Engine.drainEachUntracked thread e.skew.current (c :: cs) (report, e) =
      let x := e.drainOneUntracked thread e.skew.current c
      Engine.drainEachUntracked thread e.skew.current cs (report.add x.1, x.2) := rfl
    have counted : (r.drains.merge report).merge m.counts.drains = r.drains.merge (report.add d) :=
      (r.drains.merge_add report d).symm
    obtain ⟨decided, desk, _, bench, setting, skew⟩ :=
      r.desk_part known e (r.drains.merge report) (.loose c)
    obtain ⟨rest, skew'⟩ := ih ((e.carry c.correlation m).actAll m.deeds) (report.add d) setting
    rw [unfolded, first]
    dsimp only
    rw [← skew]
    refine ⟨.cons ?_, skew'⟩
    rw [decided, ← desk, ← bench]
    change Desked _ (r.moved m.thread ((e.carry c.correlation m).actAll m.deeds)
      ((r.drains.merge report).merge m.counts.drains)).desk _ _ _
    rw [counted, unmoved]
    exact rest

theorem desk_self (r : Replay) (live : r.Live) (thread : ThreadId) :
    (r.moved (r.threadState thread) r.session.engine r.drains).desk = r.desk := by
  rw [desk_moved r (live.thread thread), Function.update_eq_self]
  rfl

theorem Live.moved {r : Replay} (live : r.Live) {t : ThreadState} {thread : ThreadId}
    (known : t.thread = thread) {e : Engine} (skew : e.skew = r.session.engine.skew)
    (drains : DrainReport) : (r.moved t e drains).Live := by
  refine ⟨live.active, fun other => ?_, ?_⟩
  · rw [threadState_moved r known]
    by_cases same : other = thread
    · rw [same, Function.update_self, known]
    · rw [Function.update_of_ne same, live.thread]
  · change e.skew.measured.isSome = true
    rw [skew]
    exact live.measured

theorem Live.desked_call {r : Replay} (live : r.Live) (thread : ThreadId) (time : UInt64)
    (c : HostCall) :
    Desked r.session.engine.setting r.desk r.session.engine.bench
        (RecordedEvent.call thread time c).steps (r.apply (.call thread time c)) ∧
      (r.apply (.call thread time c)).Live := by
  rw [(apply_call live.active thread time c).1]
  have done := r.session.engine.onCall_decided (r.threadState thread) c time.toNat
  obtain ⟨decided, desk, still, bench, setting, skew⟩ :=
    r.desk_part (live.thread thread) r.session.engine r.drains (.call time.toNat c)
  dsimp only at done ⊢
  rw [r.desk_self live thread] at decided desk
  rw [done]
  refine ⟨.cons ⟨?_, ?_, setting⟩, live.moved still skew r.drains⟩
  · refine Eq.trans ?_ desk
    change _ = (r.moved _ _ (r.drains.merge (Setting.call _ _ _ _ _ _).2.counts.drains)).desk
    rw [Setting.drains_call]
    rfl
  · refine Eq.trans bench ?_
    rw [← decided]
    rfl

theorem Live.desked_batch {r : Replay} (live : r.Live) (thread : ThreadId) (cs : List Completion) :
    Desked r.session.engine.setting r.desk r.session.engine.bench
        (RecordedEvent.batch thread cs).steps (r.apply (.batch thread cs)) ∧
      (r.apply (.batch thread cs)).Live := by
  rw [(apply_batch live.active thread cs).1]
  obtain ⟨⟨desk, bench, setting⟩, still, skew⟩ :=
    r.desked_completions thread cs (r.threadState thread) r.session.engine {} (live.thread thread)
      rfl
  have drained : r.session.engine.drain r.session.clocks (r.threadState thread) cs =
      let x := Engine.drainEach r.session.engine.skew.current cs
        ({}, r.threadState thread, r.session.engine)
      (x.1, x.2.1, { x.2.2 with drains := { x.2.2.drains with
        batches := x.2.2.drains.batches + 1
        records := x.2.2.drains.records + x.1.advanced
        emitted := x.2.2.drains.emitted + x.1.emitted
        orphans := x.2.2.drains.orphans + x.1.orphans } }) := by
    unfold Engine.drain
    rw [Engine.askOffset_measured live.measured r.session.clocks]
    rfl
  have steps : (RecordedEvent.batch thread cs).steps =
    cs.map fun c => (thread, .completion c) := List.map_map
  have start :
      (r.moved (r.threadState thread) r.session.engine (r.drains.merge {})).desk = r.desk :=
    r.desk_self live thread
  rw [drained, steps]
  rw [start] at desk bench
  refine ⟨⟨desk, bench, setting⟩, live.moved (?_ : _ = thread) ?_ _⟩
  · exact still
  · exact skew

theorem Live.desked_untracked {r : Replay} (live : r.Live) (thread : ThreadId)
    (cs : List Completion) :
    Desked r.session.engine.setting r.desk r.session.engine.bench
        (RecordedEvent.untracked thread cs).steps (r.apply (.untracked thread cs)) ∧
      (r.apply (.untracked thread cs)).Live := by
  have known := live.thread thread
  rw [apply_untracked live.active known cs]
  obtain ⟨⟨desk, bench, setting⟩, skew⟩ :=
    r.desked_loose thread cs (r.threadState thread) r.session.engine {} known rfl
  have drained : r.session.engine.drainUntracked r.session.clocks thread cs =
      let x := Engine.drainEachUntracked thread r.session.engine.skew.current cs
        ({}, r.session.engine)
      (x.1, { x.2 with drains := { x.2.drains with
        untracked := x.2.drains.untracked + x.1.emitted } }) := by
    unfold Engine.drainUntracked
    rw [Engine.askOffset_measured live.measured r.session.clocks]
    rfl
  have steps : (RecordedEvent.untracked thread cs).steps =
    cs.map fun c => (thread, .loose c) := List.map_map
  have start :
      (r.moved (r.threadState thread) r.session.engine (r.drains.merge {})).desk = r.desk :=
    r.desk_self live thread
  rw [drained, steps]
  rw [start] at desk bench
  refine ⟨⟨desk, bench, setting⟩, live.moved known ?_ _⟩
  exact skew

/-- An event goes over the desk part by part. -/
theorem Live.desked {r : Replay} (live : r.Live) (event : RecordedEvent) :
    Desked r.session.engine.setting r.desk r.session.engine.bench event.steps (r.apply event) ∧
      (r.apply event).Live := by
  cases event with
  | call thread time c => exact live.desked_call thread time c
  | batch thread cs => exact live.desked_batch thread cs
  | untracked thread cs => exact live.desked_untracked thread cs

theorem Desked.append {k : Setting} {d : Desk} {b : Bench} {xs ys : List (ThreadId × Part)}
    {r r' : Replay} (first : Desked k d b xs r)
    (later : Desked k r.desk r.session.engine.bench ys r') : Desked k d b (xs ++ ys) r' := by
  obtain ⟨desk, bench, _⟩ := first
  rw [desk, bench] at later
  refine ⟨later.desk.trans (d.run_append k xs ys).symm, ?_, later.setting⟩
  rw [Desk.deeds_append]
  exact later.bench.trans List.foldl_append.symm

/-- So does a whole run. -/
theorem Live.desked_all {r : Replay} (live : r.Live) (events : List RecordedEvent) :
    Desked r.session.engine.setting r.desk r.session.engine.bench
        (events.flatMap RecordedEvent.steps) (r.all events) ∧ (r.all events).Live := by
  induction events generalizing r with
  | nil => exact ⟨⟨rfl, rfl, rfl⟩, live⟩
  | cons event events ih =>
    obtain ⟨first, live'⟩ := live.desked event
    obtain ⟨rest, live''⟩ := ih live'
    rw [first.setting] at rest
    exact ⟨first.append rest, live''⟩

end Replay

end SpanWeave
