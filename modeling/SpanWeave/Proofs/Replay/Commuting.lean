import SpanWeave.Proofs.Replay.Exchange
import SpanWeave.Proofs.Replay.Workers

set_option autoImplicit false

/-!
# Events that commute

Two events of different threads that have no correlation id in common can change places. Whatever
comes before them and after them, and without a timeline, the result of the replay is the same, but
for the names of the span ids.
-/
namespace SpanWeave

namespace Desk

def Known (d : Desk) : Prop := ∀ thread, (d.threads thread).thread = thread

theorem Known.next {k : Setting} {d : Desk} (known : d.Known) (x : ThreadId × Part) :
    (d.next k x).Known := by
  intro thread
  change (Function.update d.threads x.1 (d.move k x).thread thread).thread = thread
  by_cases same : thread = x.1
  · rw [same, Function.update_self]
    exact (Part.thread_move _ _ _ _ _).trans (known x.1)
  · rw [Function.update_of_ne same, known]

theorem Known.run {k : Setting} {d : Desk} (known : d.Known) (xs : List (ThreadId × Part)) :
    (d.run k xs).Known :=
  List.foldlRecOn (motive := Known) xs _ known fun _ known x _ => known.next x

def prompts (k : Setting) (d : Desk) (xs : List (ThreadId × Part)) : List Notice :=
  (d.deeds k xs).flatMap Deed.prompt

variable {k : Setting} {d : Desk}

theorem prompts_append (xs ys : List (ThreadId × Part)) :
    d.prompts k (xs ++ ys) = d.prompts k xs ++ (d.run k xs).prompts k ys := by
  rw [prompts, deeds_append, List.flatMap_append]
  rfl

theorem prompts_cons (x : ThreadId × Part) (xs : List (ThreadId × Part)) :
    d.prompts k (x :: xs) =
      (d.move k x).deeds.flatMap Deed.prompt ++ (d.next k x).prompts k xs := by
  rw [prompts, deeds, List.flatMap_append]
  rfl

theorem prompts_rename (deeds : List Deed) (σ : Renaming) :
    (deeds.map (Deed.rename σ)).flatMap Deed.prompt =
      (deeds.flatMap Deed.prompt).map (Notice.rename σ) := by
  rw [List.flatMap_map, List.map_flatMap]
  exact congrArg (List.flatMap · deeds) (funext fun d => d.prompt_rename σ)

theorem Known.on_track (known : d.Known) (x : ThreadId × Part) :
    ∀ n ∈ (d.move k x).deeds.flatMap Deed.prompt, n.On (.thread x.1) := by
  intro n member
  obtain ⟨deed, wanted, told⟩ := List.mem_flatMap.mp member
  have on := Part.on_move x.2 k (d.threads x.1) (d.entry x.2.id?) (d.allocated + 1) deed wanted n
    told
  rw [known] at on
  exact on

/-- The parts come to the same in either order, but for the names of the ids. -/
structure Alike (k : Setting) (d : Desk) (σ : Renaming) (xs ys : List (ThreadId × Part)) :
    Prop where
  owners : (d.run k ys).owners = (d.run k xs).owners
  counts : (d.run k ys).counts = (d.run k xs).counts
  spans : Recorder.View.blank.takeAll (d.prompts k ys) =
    (Recorder.View.blank.takeAll (d.prompts k xs)).rename σ
  durations : ∀ v : Sinks.View,
    (v.takeAll (d.prompts k ys)).durations = (v.takeAll (d.prompts k xs)).durations

theorem Alike.trans {σ τ : Renaming} {xs ys zs : List (ThreadId × Part)} (h : Alike k d σ xs ys)
    (h' : Alike k d τ ys zs) : Alike k d (σ.trans τ) xs zs where
  owners := h'.owners.trans h.owners
  counts := h'.counts.trans h.counts
  spans := by rw [h'.spans, h.spans, Recorder.View.rename_trans]
  durations v := (h'.durations v).trans (h.durations v)

/-- There is no span id at the desk. -/
def Unnumbered (d : Desk) : Prop := ∀ σ, d.rename σ = d

theorem Unnumbered.alike (unnumbered : d.Unnumbered) (xs : List (ThreadId × Part)) :
    Alike k d .refl xs xs := by
  have deeds := (run_rename k d .refl xs fun _ _ _ => rfl).2
  rw [unnumbered] at deeds
  have told : (d.prompts k xs).map (Notice.rename .refl) = d.prompts k xs := by
    rw [prompts, ← prompts_rename, ← deeds]
  refine ⟨rfl, rfl, ?_, fun _ => rfl⟩
  rw [Recorder.View.takeAll_rename, Recorder.View.blank_rename, told]

/-- What is told of two lists of parts if two neighbours change places: `first` and `second` are the
notices of the two, `early` those of the parts before them and `late` those of the parts after. -/
structure Crossing (k : Setting) (d : Desk) (σ : Renaming) (x y : ThreadId)
    (xs ys : List (ThreadId × Part)) (early first second late : List Notice) : Prop where
  run : d.run k ys = (d.run k xs).rename σ
  told : d.prompts k xs = early ++ (first ++ (second ++ late))
  crossed : d.prompts k ys = early ++ (second.map (Notice.rename σ) ++
    (first.map (Notice.rename σ) ++ late.map (Notice.rename σ)))
  kept : early.map (Notice.rename σ) = early
  first : ∀ n ∈ first.map (Notice.rename σ), n.On (.thread x)
  second : ∀ n ∈ second.map (Notice.rename σ), n.On (.thread y)

theorem Unnumbered.crossing (unnumbered : d.Unnumbered) (known : d.Known) {x y : ThreadId × Part}
    (apart : Apart x y) (before after : List (ThreadId × Part)) :
    ∃ σ early first second late, Crossing k d σ x.1 y.1 (before ++ x :: y :: after)
      (before ++ y :: x :: after) early first second late := by
  let e := d.run k before
  have here : e.Known := known.run before
  obtain ⟨σ, low, high, moved⟩ := moves_swapped (d := e) (k := k) apart
  -- the ids that the earlier parts are given stay, so the desk is the same under the other names
  obtain ⟨same, early⟩ := run_rename k d σ before fun id _ below => low id below
  rw [unnumbered] at same early
  obtain ⟨first, second⟩ := moved same.symm
  have swapped := next_swapped apart same.symm first second
  let f := (e.next k x).next k y
  obtain ⟨run, late⟩ := run_rename k f σ after fun id above _ => high id above
  have ofFirst : (((e.next k y).move k x).deeds).flatMap Deed.prompt =
      ((e.move k x).deeds.flatMap Deed.prompt).map (Notice.rename σ) := by
    rw [first, ← prompts_rename]
    rfl
  have ofSecond : ((e.move k y).deeds).flatMap Deed.prompt =
      (((e.next k x).move k y).deeds.flatMap Deed.prompt).map (Notice.rename σ) := by
    rw [second, ← prompts_rename]
    rfl
  have ofLater : ((e.next k y).next k x).prompts k after =
      (f.prompts k after).map (Notice.rename σ) := by
    rw [swapped, prompts, late, prompts_rename]
    rfl
  refine ⟨σ, d.prompts k before, (e.move k x).deeds.flatMap Deed.prompt,
    ((e.next k x).move k y).deeds.flatMap Deed.prompt, f.prompts k after, ?_, ?_, ?_, ?_, ?_, ?_⟩
  · rw [run_append, run_append]
    change ((e.next k y).next k x).run k after = _
    rw [swapped]
    exact run
  · rw [prompts_append, prompts_cons, prompts_cons]
  · rw [prompts_append, prompts_cons, prompts_cons, ← ofFirst, ← ofSecond, ← ofLater]
  · rw [prompts, ← prompts_rename, ← early]
  · rw [← ofFirst]
    exact (here.next y).on_track x
  · rw [← ofSecond]
    exact here.on_track y

theorem Crossing.alike {σ : Renaming} {x y : ThreadId} {xs ys : List (ThreadId × Part)}
    {early first second late : List Notice} (apart : x ≠ y)
    (h : Crossing k d σ x y xs ys early first second late) : Alike k d σ xs ys := by
  have renamed : (d.prompts k xs).map (Notice.rename σ) = early ++ (first.map (Notice.rename σ) ++
      (second.map (Notice.rename σ) ++ late.map (Notice.rename σ))) := by
    rw [h.told, List.map_append, List.map_append, List.map_append, h.kept]
  have tracks : Track.thread y ≠ .thread x := fun eq => apart (Track.thread.inj eq).symm
  have heard : ∀ (v : Recorder.View) (more : List Notice),
      v.takeAll (second.map (Notice.rename σ) ++ (first.map (Notice.rename σ) ++ more)) =
        v.takeAll (first.map (Notice.rename σ) ++ (second.map (Notice.rename σ) ++ more)) := by
    intro v more
    rw [← List.append_assoc, ← List.append_assoc, Recorder.View.takeAll_append,
      Recorder.View.takeAll_append _ (_ ++ _), v.takeAll_apart tracks h.second h.first]
  refine ⟨by rw [h.run]; rfl, by rw [h.run]; rfl, ?_, fun v => v.durations_rename σ ?_⟩
  · rw [Recorder.View.takeAll_rename, Recorder.View.blank_rename, renamed, h.crossed,
      Recorder.View.takeAll_append, heard, ← Recorder.View.takeAll_append]
  · rw [renamed, h.crossed]
    exact (List.perm_append_comm_assoc _ _ _).append_left early

/-- A part goes behind a block of parts of other threads. -/
theorem Unnumbered.pass (unnumbered : d.Unnumbered) (known : d.Known) {x : ThreadId × Part}
    {ys : List (ThreadId × Part)} (apart : ∀ y ∈ ys, Apart x y)
    (before after : List (ThreadId × Part)) :
    ∃ σ, Alike k d σ (before ++ x :: (ys ++ after)) (before ++ (ys ++ x :: after)) := by
  induction ys generalizing before with
  | nil => exact ⟨.refl, unnumbered.alike _⟩
  | cons y ys ih =>
    obtain ⟨first, others⟩ := List.forall_mem_cons.mp apart
    obtain ⟨σ, _, _, _, _, crossing⟩ :=
      unnumbered.crossing (k := k) known first before (ys ++ after)
    -- now `y` is one of those that come before
    obtain ⟨τ, rest⟩ := ih others (before ++ [y])
    rw [List.append_assoc, List.append_assoc] at rest
    exact ⟨σ.trans τ, (crossing.alike first.threads).trans rest⟩

/-- Two blocks of parts of different threads change places. -/
theorem Unnumbered.exchange (unnumbered : d.Unnumbered) (known : d.Known)
    {xs ys : List (ThreadId × Part)} (apart : ∀ x ∈ xs, ∀ y ∈ ys, Apart x y)
    (before after : List (ThreadId × Part)) :
    ∃ σ, Alike k d σ (before ++ (xs ++ (ys ++ after))) (before ++ (ys ++ (xs ++ after))) := by
  induction xs generalizing before with
  | nil => exact ⟨.refl, unnumbered.alike _⟩
  | cons x xs ih =>
    obtain ⟨first, others⟩ := List.forall_mem_cons.mp apart
    obtain ⟨σ, rest⟩ := ih others (before ++ [x])
    rw [List.append_assoc, List.append_assoc] at rest
    obtain ⟨τ, passed⟩ := unnumbered.pass (k := k) known first before (xs ++ after)
    exact ⟨σ.trans τ, rest.trans passed⟩

end Desk

/-! ## Events -/

def RecordedEvent.ids : RecordedEvent → List CorrelationId
  | .call _ _ c => c.id?.toList
  | .batch _ cs => cs.map (·.correlation)
  | .untracked _ _ => []

theorem RecordedEvent.mem_ids {event : RecordedEvent} {p : Part} (member : p ∈ event.parts)
    {id : CorrelationId} (asked : p.id? = some id) : id ∈ event.ids := by
  cases event with
  | call _ time c =>
    cases List.mem_singleton.mp member
    exact Option.mem_toList.mpr asked
  | batch _ cs =>
    obtain ⟨c, drained, rfl⟩ := List.mem_map.mp member
    exact List.mem_map.mpr ⟨c, drained, Option.some.inj asked⟩
  | untracked _ cs =>
    obtain ⟨c, _, rfl⟩ := List.mem_map.mp member
    cases asked

theorem RecordedEvent.steps_apart {a b : RecordedEvent} (threads : a.thread ≠ b.thread)
    (ids : ∀ id ∈ a.ids, id ∉ b.ids) : ∀ x ∈ a.steps, ∀ y ∈ b.steps, Apart x y := by
  intro x first y second
  obtain ⟨p, part, rfl⟩ := List.mem_map.mp first
  obtain ⟨q, part', rfl⟩ := List.mem_map.mp second
  exact ⟨threads, fun id asked asked' => ids id (mem_ids part asked) (mem_ids part' asked')⟩

namespace Replay

structure Renamed (σ : Renaming) (a b : ReplayResult) : Prop where
  spans : b.spans.Perm (a.spans.map (·.rename σ))
  durations : b.durations = a.durations
  drains : b.drains = a.drains
  discarded : b.shutdown.discarded = a.shutdown.discarded

theorem Started.unnumbered {s : Settings} {r : Replay} (started : r.Started s) :
    r.desk.Unnumbered := by
  intro σ
  have fresh := started.fresh
  have threads : (fun thread => (r.threadState thread).rename σ) = r.threadState := by
    funext thread
    rw [fresh.threadState]
    rfl
  have identities : (r.session.engine.registry.identities.map fun _ identity =>
      identity.rename σ) = r.session.engine.registry.identities := by
    rw [fresh.registry]
    exact Std.ExtTreeMap.map_eq_empty_iff.mpr rfl
  unfold desk Desk.rename
  dsimp only
  rw [threads, identities]

theorem Started.caughtUp_spans {s : Settings} {r : Replay} (started : r.Started s) :
    r.caughtUp.spans = if s.recordSpans then some Recorder.View.blank else none := by
  obtain ⟨offset, language, turns, fresh, start, rfl⟩ := started
  obtain ⟨⟨callFilter, activityFilter, engine⟩, _⟩ := start_eq start
  unfold scheduled caughtUp
  rw [engine]
  cases s.recordSpans <;> rfl

/-- Every run comes to a result, which shows what the parts of its events come to. -/
theorem Started.result {s : Settings} {r : Replay} (started : r.Started s)
    (untimed : s.timeline = false) (events : List RecordedEvent) : ∃ result given,
      (r.all events).finish = .ok result ∧ Closing (r.deskAfter events)
        (r.caughtUp.takeAll ((r.deeds events).flatMap Deed.prompt)) given result := by
  have comes := started.live.comes (started.tidy untimed) (started.live.runs_all events)
  obtain ⟨path, found⟩ := started.path_caughtUp comes.live comes.bench.tidy
  obtain ⟨result, finished, closing⟩ := comes.live.closing comes.bench.tidy found
  have view : (r.all events).caughtUp = r.caughtUp.takeAll ((r.deeds events).flatMap Deed.prompt) :=
    comes.bench.caughtUp
  rw [comes.desk, view] at closing
  exact ⟨result, _, finished, closing⟩

/-- Events of different threads with no id in common can change places. -/
theorem Started.events_commute {s : Settings} {r : Replay} (started : r.Started s)
    (untimed : s.timeline = false) {a b : RecordedEvent} (threads : a.thread ≠ b.thread)
    (ids : ∀ id ∈ a.ids, id ∉ b.ids) (before after : List RecordedEvent) :
    ∃ σ result result', (r.all (before ++ a :: b :: after)).finish = .ok result ∧
      (r.all (before ++ b :: a :: after)).finish = .ok result' ∧ Renamed σ result result' := by
  obtain ⟨σ, alike⟩ := started.unnumbered.exchange (k := r.session.engine.setting)
    started.live.thread (RecordedEvent.steps_apart threads ids)
    (before.flatMap RecordedEvent.steps) (after.flatMap RecordedEvent.steps)
  obtain ⟨result, _, finished, closing⟩ := started.result untimed (before ++ a :: b :: after)
  obtain ⟨result', _, finished', closing'⟩ := started.result untimed (before ++ b :: a :: after)
  rw [← List.flatMap_cons, ← List.flatMap_cons, ← List.flatMap_append, ← List.flatMap_cons,
    ← List.flatMap_cons, ← List.flatMap_append] at alike
  refine ⟨σ, result, result', finished, finished', ?_, ?_, ?_, ?_⟩
  · refine Multiset.coe_eq_coe.mp ?_
    rw [closing'.spans, ← Multiset.map_coe, closing.spans, Sinks.View.spans_takeAll,
      Sinks.View.spans_takeAll, started.caughtUp_spans]
    cases s.recordSpans with
    | false => rfl
    | true => exact congrArg Recorder.View.finished alike.spans
  · rw [closing'.durations, closing.durations]
    exact congrArg (·.getD {}) (alike.durations _)
  · rw [closing'.drains, closing.drains]
    exact congrArg Counts.drains alike.counts
  · rw [closing'.discarded, closing.discarded]
    exact congrArg (fun owners : Std.ExtTreeMap CorrelationId (String × ThreadId) =>
      owners.toList.length) alike.owners

/-- Two threads enter a call each. The one that comes first gets the lower id, and the call inside
one of them tells which. -/
theorem events_commute_of_enters : ∃ r : Replay, r.Started {} ∧ ({} : Settings).timeline = false ∧
    let a : RecordedEvent := .call 1 10 (.enter "hipMalloc" 7)
    let b : RecordedEvent := .call 2 20 (.enter "hipFree" 8)
    let after : List RecordedEvent :=
      [.call 1 30 (.enter "hipMemcpy" 9), .call 1 40 (.exit "hipMemcpy" 9),
        .call 2 50 (.exit "hipFree" 8)]
    let finished := fun events => (r.all events).session.shutdown.2.engine.sinks.spans.map fun x =>
      x.finished.toList.map fun s => (s.name, s.span, s.attributes["pcid"]?)
    a.thread ≠ b.thread ∧ (∀ id ∈ a.ids, id ∉ b.ids) ∧
      (∃ σ result result', (r.all (a :: b :: after)).finish = .ok result ∧
        (r.all (b :: a :: after)).finish = .ok result' ∧ Renamed σ result result') ∧
      finished (a :: b :: after) = some [("hipMemcpy", 3, some "1"), ("hipFree", 2, none)] ∧
      finished (b :: a :: after) = some [("hipMemcpy", 3, some "2"), ("hipFree", 1, none)] := by
  obtain ⟨r, start⟩ : ∃ r, Replay.start {} none = .ok r := ⟨_, rfl⟩
  have started := Started.of_start start
  refine ⟨r, started, rfl, ?_⟩
  intro a b after finished
  have threads : a.thread ≠ b.thread := by decide
  have ids : ∀ id ∈ a.ids, id ∉ b.ids := by
    intro id asked asked'
    have same := (List.mem_singleton.mp asked).symm.trans (List.mem_singleton.mp asked')
    exact absurd same (by decide)
  refine ⟨threads, ids, started.events_commute rfl threads ids [] after, ?_, ?_⟩
  all_goals
    cases start
    decide +kernel

end Replay

end SpanWeave
