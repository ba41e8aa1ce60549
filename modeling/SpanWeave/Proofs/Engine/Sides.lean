import SpanWeave.Proofs.Engine.Deeds

set_option autoImplicit false

/-!
# Sides

What the deeds of an event are about. A call on the host begins, ends and discards spans of the host
on the track of its thread; a completion tells of spans of devices that are complete.
-/
namespace SpanWeave

namespace ThreadState

/-- The number of the thread and its laps, which calls on the host leave alone. -/
def base (t : ThreadState) : ThreadId × Laps := (t.thread, t.laps)

theorem thread_of_base {t rest : ThreadState} (same : rest.base = t.base) :
    rest.thread = t.thread := congrArg Prod.fst same

theorem laps_of_base {t rest : ThreadState} (same : rest.base = t.base) : rest.laps = t.laps :=
  congrArg Prod.snd same

theorem base_pop? {t rest : ThreadState} {span : SpanId} {call : OpenCall}
    (popped : t.pop? span = some (call, rest)) : rest.base = t.base := by
  obtain ⟨_, _, eq, _⟩ := pop?_eq_some popped
  rw [eq]
  rfl

theorem base_popTop? {t rest : ThreadState} {call : OpenCall}
    (popped : t.popTop? = some (call, rest)) : rest.base = t.base := by
  unfold popTop? at popped
  split at popped
  · cases popped
  · cases popped
    rfl

theorem base_popUntracked? {t rest : ThreadState} {time : Nanos}
    (popped : t.popUntracked? = some (time, rest)) : rest.base = t.base := by
  unfold popUntracked? at popped
  split at popped
  · cases popped
  · cases popped
    rfl

end ThreadState

theorem Setting.exitUntracked_cases (k : Setting) (t : ThreadState) (fresh : SpanId) (c : HostCall)
    (now : Nanos) {P : Move → Prop} (none : P { thread := t })
    (late : ∀ rest : ThreadState, rest.base = t.base →
      P { thread := rest, counts := { calls := { clockAnomalies := 1 } } })
    (span : ∀ (rest : ThreadState) (beganAt endsAt : Nanos), rest.base = t.base →
      P { thread := rest
          draws := true
          counts := { calls := { untrackedSpans := 1 } }
          deeds :=
            .notice (.begins (Engine.untrackedStart rest c (rest.identityOf fresh) beganAt)) ::
            .notice (.ends (.thread rest.thread) endsAt) ::
            if k.listens then [.spawn (.sample c.name (endsAt - beganAt))] else [] }) :
    P (k.exitUntracked t fresh c now).2 := by
  unfold exitUntracked
  cases popped : t.popUntracked? with
  | none => exact none
  | some pair =>
    have same := ThreadState.base_popUntracked? popped
    dsimp only
    generalize (if c.name = Engine.shutdownCall then pair.1 else now) = endsAt
    split
    · exact late pair.2 same
    · exact span pair.2 pair.1 endsAt same

theorem Setting.base_ending (t : ThreadState) (x : Entry) (c : HostCall) (now : Nanos) :
    (ending t x c now).thread.base = t.base := by
  unfold ending
  dsimp only
  split
  · unfold endInnermost
    dsimp only
    split
    · rfl
    · rename_i popped
      exact ThreadState.base_popTop? popped
  · rename_i call rest found
    have popped : t.pop? (x.identity.getD Identity.degraded).span = some (call, rest) := by
      split at found
      · cases found
      · exact found
    unfold endRegistered
    dsimp only
    split
    · exact ThreadState.base_pop? popped
    · exact ThreadState.base_pop? popped

theorem Setting.base_call (k : Setting) (t : ThreadState) (x : Entry) (fresh : SpanId)
    (c : HostCall) (now : Nanos) : (k.call t x fresh c now).2.thread.base = t.base := by
  unfold call
  split
  · rfl
  · split
    · rfl
    · exact base_ending t x c now
    · rfl
    · exact k.exitUntracked_cases (P := fun m => m.thread.base = t.base) t fresh c now rfl
        (fun _ same => same) fun _ _ _ same => same

theorem Setting.drains_call (k : Setting) (t : ThreadState) (x : Entry) (fresh : SpanId)
    (c : HostCall) (now : Nanos) : (k.call t x fresh c now).2.counts.drains = {} := by
  unfold call
  split
  · rfl
  · split
    · rfl
    · rfl
    · rfl
    · exact k.exitUntracked_cases (P := fun m => m.counts.drains = {}) t fresh c now rfl
        (fun _ _ => rfl) fun _ _ _ _ => rfl

inductive Deed.OfHost (thread : ThreadId) : Deed → Prop
  | begins {start : SpanStart} (host : start.kind = .cpu) (own : start.track = .thread thread) :
      OfHost thread (.notice (.begins start))
  | ends (time : Nanos) : OfHost thread (.notice (.ends (.thread thread) time))
  | discards : OfHost thread (.notice (.discards (.thread thread)))
  | marks (name : String) {m : Mark} (host : m.side = .host) :
    OfHost thread (.notice (.marks name m))
  | records (name : String) (duration : Nanos) : OfHost thread (.notice (.records name duration))
  | flush : OfHost thread (.flush thread)
  | sample (name : String) (duration : Nanos) : OfHost thread (.spawn (.sample name duration))

inductive Deed.OfDevice : Deed → Prop
  | completes {start : SpanStart} (endsAt : Nanos) (device : start.kind = .device) :
      OfDevice (.notice (.completes start endsAt))
  | marks (name : String) {m : Mark} (device : m.side = .device) :
    OfDevice (.notice (.marks name m))
  | sample (owner : ThreadId) (name : String) (duration : Nanos) :
      OfDevice (.submit owner (.sample name duration))
  | leaf {start : SpanStart} (endsAt : Nanos) (device : start.kind = .device) :
      OfDevice (.spawn (.leaf start endsAt))

namespace Setting

theorem notices_ending (t : ThreadState) (x : Entry) (c : HostCall) (now : Nanos) :
    ∀ n ∈ (ending t x c now).notices, Deed.OfHost t.thread (.notice n) := by
  unfold ending
  dsimp only
  split
  · unfold endInnermost
    dsimp only
    split
    · exact List.forall_mem_nil _
    · refine List.forall_mem_singleton.mpr ?_
      split
      · exact .discards
      · exact .ends now
  · unfold endRegistered
    have inner : ∀ m, ∀ n ∈ List.replicate m (Notice.discards (.thread t.thread)),
        Deed.OfHost t.thread (.notice n) := by
      intro m n member
      rw [List.eq_of_mem_replicate member]
      exact .discards
    dsimp only
    split
    · exact List.forall_mem_append.mpr ⟨inner _, List.forall_mem_singleton.mpr .discards⟩
    · refine List.forall_mem_append.mpr ⟨inner _, List.forall_mem_cons.mpr ⟨.ends now, ?_⟩⟩
      exact List.forall_mem_cons.mpr
        ⟨.marks _ rfl, List.forall_mem_singleton.mpr (.records _ _)⟩

theorem deeds_exitUntracked (k : Setting) (t : ThreadState) (fresh : SpanId) (c : HostCall)
    (now : Nanos) : ∀ d ∈ (k.exitUntracked t fresh c now).2.deeds, d.OfHost t.thread := by
  refine k.exitUntracked_cases (P := fun m => ∀ d ∈ m.deeds, d.OfHost t.thread) t fresh c now
    (List.forall_mem_nil _) (fun _ _ => List.forall_mem_nil _) fun rest beganAt endsAt same => ?_
  rw [← ThreadState.thread_of_base same]
  refine List.forall_mem_cons.mpr ⟨.begins rfl rfl, List.forall_mem_cons.mpr ⟨.ends endsAt, ?_⟩⟩
  split
  · exact List.forall_mem_singleton.mpr (.sample _ _)
  · exact List.forall_mem_nil _

theorem deeds_call (k : Setting) (t : ThreadState) (x : Entry) (fresh : SpanId) (c : HostCall)
    (now : Nanos) : ∀ d ∈ (k.call t x fresh c now).2.deeds, d.OfHost t.thread := by
  unfold call
  split
  · exact List.forall_mem_nil _
  · split
    · refine List.forall_mem_cons.mpr ⟨.begins rfl rfl, ?_⟩
      exact List.forall_mem_cons.mpr ⟨.marks _ rfl, List.forall_mem_singleton.mpr .flush⟩
    · refine List.forall_mem_cons.mpr ⟨.flush, List.forall_mem_map.mpr fun n member => ?_⟩
      exact notices_ending t x c now n member
    · exact List.forall_mem_nil _
    · exact k.deeds_exitUntracked t fresh c now

theorem deeds_completion (k : Setting) (t : ThreadState) (x : Entry) (c : Completion) :
    ∀ d ∈ (k.completion t x c).2.deeds, d.OfDevice := by
  unfold completion
  cases c.op? with
  | none => exact List.forall_mem_nil _
  | some op =>
    dsimp only
    split
    · exact List.forall_mem_nil _
    · split
      · exact List.forall_mem_nil _
      · unfold emission
        refine List.forall_mem_cons.mpr ⟨.completes _ rfl, ?_⟩
        cases x.record? with
        | none => exact List.forall_mem_nil _
        | some call =>
          refine List.forall_mem_cons.mpr ⟨.marks _ rfl, ?_⟩
          split
          · exact List.forall_mem_singleton.mpr (.sample _ _ _)
          · exact List.forall_mem_nil _

theorem deeds_loose (k : Setting) (t : ThreadState) (c : Completion) :
    ∀ d ∈ (k.loose t c).2.deeds, d.OfDevice := by
  unfold loose
  cases c.op? with
  | none => exact List.forall_mem_nil _
  | some op =>
    dsimp only
    split
    · exact List.forall_mem_nil _
    · split
      · exact List.forall_mem_nil _
      · exact List.forall_mem_singleton.mpr (.leaf _ rfl)

end Setting

end SpanWeave
