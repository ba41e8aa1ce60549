import Mathlib.Data.List.Sort
import SpanWeave.Proofs.Forest.Pairing
import SpanWeave.Proofs.Replay.Trail
import SpanWeave.Proofs.Session.Shutdown

set_option autoImplicit false

/-!
# Soundness

The forest of a run has no other defects than those that the calls explain: begin marks of calls
that no exit has ended, and parents among these calls. It has no cycle, every node hangs under a
root, and so the critical path is always found.
-/
namespace SpanWeave

namespace Replay

structure SoundForest (filter : NameFilter) (history : List Happening) (forest : Forest) :
    Prop where
  /-- There is one host node for each call that an exit has ended, and one node for each completion
  that has a call behind it. -/
  hosts : (forest.nodes.toList.filter (·.kind == .cpu)).map Node.identity =
    exitedIdentities (answers history)
  devices : (forest.nodes.toList.filter (·.kind == .device)).map Node.identity =
    (launchIdentities filter history).map Identity.work
  distinct : (exitedSpans (answers history)).Nodup
  ascending : (enteredSpans (answers history)).Pairwise (· < ·)
  /-- First the calls that no exit has ended, then the nodes that lack a parent for that reason. -/
  defects : forest.defects =
    ((enteredSpans (answers history)).filter (· ∉ exitedSpans (answers history))).map
      .unmatchedBegin ++
    (exitedIdentities (answers history) ++ (launchIdentities filter history).map
      Identity.work).filterMap (·.missing? (exitedSpans (answers history)))
  acyclic : ∀ i, ¬ Relation.TransGen forest.ParentOf i i
  reached : ∀ i < forest.nodes.size, forest.Reaches i
  /-- Each sum that the search for the critical path takes is that of a chain. -/
  sums : ∀ order, forest.preorder = .ok order → ∀ i sum above,
    (order.foldl forest.addSum ∅)[i]? = some (sum, above) → forest.Chain i sum
  path : ∃ path, forest.criticalPath = .ok path

/-- No other defects are among these than calls without an end and nodes without a parent. -/
theorem SoundForest.defects_only {filter : NameFilter} {history : List Happening} {forest : Forest}
    (h : SoundForest filter history forest) {d : Defect} (member : d ∈ forest.defects) :
    (∃ span, d = .unmatchedBegin span) ∨ ∃ span parent, d = .missingParent span parent := by
  rw [h.defects] at member
  rcases List.mem_append.mp member with begun | missing
  · obtain ⟨span, _, rfl⟩ := List.mem_map.mp begun
    exact .inl ⟨span, rfl⟩
  · obtain ⟨i, _, found⟩ := List.mem_filterMap.mp missing
    obtain ⟨parent, _, found⟩ := Option.bind_eq_some_iff.mp found
    split at found
    · cases found
    · exact .inr ⟨i.span, parent, (Option.some.inj found).symm⟩

theorem Numbered.ascending {filter : NameFilter} {past : List Happening}
    {ts : ThreadId → ThreadState} {e : Engine} (h : Numbered filter past ts e) :
    (enteredSpans (answers past)).Pairwise (· < ·) := by
  rw [enteredSpans, List.pairwise_map, enteredIdentities, List.pairwise_filterMap]
  refine h.increasing.imp fun {a b} less i first j second => ?_
  have entered : ∀ {a : Answer} {i : Identity}, i ∈ enteredIdentities [a] → a.Numbers i.span := by
    intro a i member
    obtain ⟨_, only, outcome⟩ := mem_enteredIdentities.mp member
    cases List.mem_singleton.mp only
    exact ⟨i, outcome, rfl⟩
  exact less _ _ (entered (List.mem_filterMap.mpr ⟨a, List.mem_singleton_self a, first⟩))
    (entered (List.mem_filterMap.mpr ⟨b, List.mem_singleton_self b, second⟩))

namespace Trail
variable {filter : NameFilter} {past : List Happening} {p : Pairing} {names : HashNames}

theorem node (h : Trail filter past p) {n : Node} (member : n ∈ p.nodes names) :
    n.kind = .cpu ∧ n.identity ∈ exitedIdentities (answers past) ∨
      n.kind = .device ∧ ∃ launch ∈ launchIdentities filter past, n.identity = launch.work := by
  rcases Array.mem_append.mp member with host | device
  · refine .inl ⟨h.cpu n host, ?_⟩
    rw [← h.hosts]
    exact List.mem_map_of_mem (Array.mem_toList_iff.mpr host)
  · obtain ⟨m, marked, rfl⟩ := Array.mem_map.mp device
    have work : m.identity ∈ (launchIdentities filter past).map Identity.work := by
      rw [← h.devices]
      exact List.mem_map_of_mem (Array.mem_toList_iff.mpr marked)
    obtain ⟨launch, launched, eq⟩ := List.mem_map.mp work
    exact .inr ⟨rfl, launch, launched, eq.symm⟩

theorem hostSpans (h : Trail filter past p) :
    Forest.hostSpans (p.nodes names) = exitedSpans (answers past) := by
  rw [Forest.hostSpans, Pairing.nodes_host h.cpu, exitedSpans_eq, ← h.hosts, List.map_map]
  rfl

theorem identities (h : Trail filter past p) :
    (p.nodes names).toList.map Node.identity = exitedIdentities (answers past) ++
      (launchIdentities filter past).map Identity.work := by
  rw [Pairing.nodes, Array.toList_append, Array.toList_map, List.map_append, List.map_map,
    h.hosts, ← h.devices]
  rfl

/-- The begin marks that wait are those of the calls that no exit has ended, in ascending order. -/
theorem keys_opened (h : Trail filter past p)
    (ascending : (enteredSpans (answers past)).Pairwise (· < ·)) :
    p.opened.keys =
      (enteredSpans (answers past)).filter (· ∉ exitedSpans (answers past)) := by
  refine List.Pairwise.eq_of_mem_iff ?_ (ascending.filter _) fun span => ?_
  · exact Std.ExtTreeMap.ordered_keys.imp Nat.compare_eq_lt.mp
  · rw [Std.ExtTreeMap.mem_keys, Std.ExtTreeMap.mem_iff_isSome_getElem?,
      Option.isSome_iff_exists, h.waiting, List.mem_filter, decide_eq_true_iff]

end Trail

theorem Lineage.stepped {filter : NameFilter} {past : List Happening} {ts : ThreadId → ThreadState}
    {e : Engine} (h : Lineage filter past ts e) {p : Pairing} (trail : Trail filter past p)
    (names : HashNames) : Forest.Stepped (p.nodes names) := by
  intro n member m member' host below
  have entered : m.identity ∈ enteredIdentities (answers past) := by
    rcases trail.node member' with ⟨_, exited⟩ | ⟨device, _⟩
    · exact h.exited exited
    · rw [host] at device
      cases device
  have rank : m.rank = 2 * m.identity.span := by
    rw [Node.rank, host]
    rfl
  rcases trail.node member with ⟨kind, exited⟩ | ⟨kind, launch, launched, eq⟩
  · rcases h.rooted _ (h.exited exited) with root | ⟨j, above, parent, depth, less⟩
    · cases below.symm.trans root
    · have same : j = m.identity :=
        h.unique above entered (Option.some.inj (parent.symm.trans below))
      subst same
      refine ⟨depth, ?_⟩
      rw [rank, Node.rank, kind]
      exact Nat.mul_lt_mul_of_pos_left less (by decide)
  · have span : m.span = launch.span := by
      have parent : n.identity.parent = some launch.span := by rw [eq]; rfl
      exact Option.some.inj (below.symm.trans parent)
    have same : launch = m.identity := h.unique (h.launched launched) entered span.symm
    subst same
    have depth : n.depth = deeper m.depth := congrArg Identity.depth eq
    have own : n.span = m.span := congrArg Identity.span eq
    refine ⟨depth, ?_⟩
    rw [rank, Node.rank, kind]
    change 2 * m.span < 2 * n.span + 1
    rw [own]
    exact Nat.lt_succ_self _

theorem Trailed.sound {filter : NameFilter} {past : List Happening} {ts : ThreadId → ThreadState}
    {e : Engine} {log : MarkLog} (h : Trailed filter past ts e log) :
    SoundForest filter past log.forest := by
  have trail := h.trail log.names
  have stepped := h.lineage.stepped trail log.names
  have linked := Forest.linked_ofNodes
    ((Pairing.ofMarks log.names log.marks.toList).nodes log.names)
    (Pairing.ofMarks log.names log.marks.toList).defects
  have ranked := stepped.ranked (Pairing.ofMarks log.names log.marks.toList).defects
  have ascending := h.lineage.numbered.ascending
  refine ⟨?_, ?_, h.lineage.distinct, ascending, ?_, ranked.acyclic,
    fun i inside => ranked.reaches linked inside, fun order walked i sum above known => ?_,
    linked.criticalPath fun nonempty => ranked.rooted linked nonempty⟩
  · have bare : (log.forest.nodes.toList.filter (·.kind == .cpu)).map Node.bare =
        (Pairing.ofMarks log.names log.marks.toList).hosts.toList.map Node.bare :=
      Pairing.bare_hosts trail.cpu
    have identities := congrArg (List.map Node.identity) bare
    rw [List.map_map, List.map_map] at identities
    exact identities.trans trail.hosts
  · have bare : (log.forest.nodes.toList.filter (·.kind == .device)).map Node.bare =
        ((Pairing.ofMarks log.names log.marks.toList).devices.toList.map
          (Mark.toNode log.names .device)).map Node.bare := Pairing.bare_devices trail.cpu
    have identities := congrArg (List.map Node.identity) bare
    rw [List.map_map, List.map_map, List.map_map] at identities
    exact identities.trans trail.devices
  · refine (stepped.defects _).trans ?_
    rw [Pairing.defects, trail.strays, trail.keys_opened ascending, trail.hostSpans,
      trail.identities]
    rfl
  · obtain ⟨order', walked', descends⟩ := linked.preorder
    obtain rfl := Except.ok.inj (walked.symm.trans walked')
    exact (descends.first.summed.sound i sum above known).2

/-- A replay comes to a result as soon as the critical path of its forest is found. -/
theorem finish_eq {r : Replay} {path : Option CriticalPath}
    (found : (r.session.shutdown.2.engine.sinks.marks.map (·.forest)).mapM (·.criticalPath) =
      .ok path) :
    let sinks := r.session.shutdown.2.engine.sinks
    let defects := ((sinks.marks.map (·.forest)).map (·.defects)).getD []
    r.finish = .ok
      { spans := ((sinks.spans.map (·.finished.toList)).getD []).mergeSort comesBefore
        durations := sinks.durations.getD {}
        path
        defects
        drains := r.drains
        shutdown := r.session.shutdown.1
        session := defects.foldl (fun s _ => s.warn .forestDefect) r.session.shutdown.2 } := by
  unfold finish
  dsimp only
  rw [found]
  rfl

theorem finish_ok {r : Replay} {path : Option CriticalPath}
    (found : (r.session.shutdown.2.engine.sinks.marks.map (·.forest)).mapM (·.criticalPath) =
      .ok path) :
    ∃ result, r.finish = .ok result ∧ result.path = path ∧
      result.defects = ((r.session.shutdown.2.engine.sinks.marks.map (·.forest)).map
        (·.defects)).getD [] ∧
      result.durations = r.session.shutdown.2.engine.sinks.durations.getD {} :=
  ⟨_, finish_eq found, rfl, rfl, rfl⟩

theorem Trailed.shutdown {filter : NameFilter} {past : List Happening} {r : Replay} {log : MarkLog}
    (h : Trailed filter past r.threadState r.session.engine log) (running : r.Running) :
    r.session.shutdown.2.engine.sinks.marks = some log := by
  rw [Session.sinks_shutdown running.active]
  exact (Session.background_stopped running.ready).sinks.marks.trans h.marks

theorem Trailed.path {filter : NameFilter} {past : List Happening} {r : Replay} {log : MarkLog}
    (h : Trailed filter past r.threadState r.session.engine log) (running : r.Running) :
    ∃ path, log.forest.criticalPath = .ok path ∧
      (r.session.shutdown.2.engine.sinks.marks.map (·.forest)).mapM (·.criticalPath) =
        .ok (some path) := by
  obtain ⟨path, found⟩ := h.sound.path
  refine ⟨path, found, ?_⟩
  rw [h.shutdown running, Option.map_some, Option.mapM_some, found]
  rfl

theorem kept_unmarked : Kept fun _ _ e => e.sinks.marks = none where
  background none quiet := quiet.sinks.marks.trans none
  host none _ step := step.unmarked none
  completion none _ step := step.unmarked none

/-- The critical path is found at the end of every run, if there are marks at all. -/
theorem Started.path_found {s : Settings} {r : Replay} (started : r.Started s)
    (events : List RecordedEvent) : ∃ path,
      ((r.all events).session.shutdown.2.engine.sinks.marks.map (·.forest)).mapM
        (·.criticalPath) = .ok path := by
  have fresh := started.fresh
  cases marks : s.recordMarks with
  | true =>
    obtain ⟨⟨log, trailed⟩, running⟩ := (kept_trailed r.session.engine.callFilter).all
      fresh.running ⟨{}, fresh.trailed marks⟩ events
    obtain ⟨path, _, found⟩ := trailed.path running
    exact ⟨some path, found⟩
  | false =>
    have none : r.session.engine.sinks.marks = none := by rw [fresh.marks, marks]; rfl
    obtain ⟨still, running⟩ := kept_unmarked.all fresh.running none events
    refine ⟨Option.none, ?_⟩
    rw [Session.sinks_shutdown running.active,
      (Session.background_stopped running.ready).sinks.marks.trans still]
    rfl

/-- Over every list of events, a replay that writes marks comes to a result, with a forest that has
no defects but those that the calls explain. -/
theorem Started.forest_sound {s : Settings} {r : Replay} (started : r.Started s)
    (marks : s.recordMarks = true) (events : List RecordedEvent) :
    ∃ log result, (r.all events).session.shutdown.2.engine.sinks.marks = some log ∧
      SoundForest r.session.engine.callFilter (r.history events) log.forest ∧
      (r.all events).finish = .ok result ∧ result.defects = log.forest.defects ∧
      ∃ path, log.forest.criticalPath = .ok path ∧ result.path = some path := by
  have fresh := started.fresh
  obtain ⟨⟨log, trailed⟩, running⟩ := (kept_trailed r.session.engine.callFilter).all fresh.running
    ⟨{}, fresh.trailed marks⟩ events
  have kept := trailed.shutdown running
  obtain ⟨path, found, whole⟩ := trailed.path running
  obtain ⟨result, finished, isPath, defects, _⟩ := finish_ok whole
  rw [kept] at defects
  exact ⟨log, result, kept, trailed.sound, finished, defects, path, found, isPath⟩

/-- A call that launches work and never ends: its begin mark is left, and the node of the work has
no parent. The call beside it is a root. -/
theorem forest_sound_of_lost_exit : ∃ r : Replay, r.Started {} ∧
    ({} : Settings).recordMarks = true ∧
    let events : List RecordedEvent :=
      [.call 1 10 (.enter "hipLaunchKernel" 7), .batch 2 [.ofOp 7 .dispatch 100 200],
        .call 2 20 (.enter "hipFree" 8), .call 2 30 (.exit "hipFree" 8)]
    ∃ log result, (r.all events).session.shutdown.2.engine.sinks.marks = some log ∧
      SoundForest r.session.engine.callFilter (r.history events) log.forest ∧
      (r.all events).finish = .ok result ∧
      result.defects = [.unmatchedBegin 1, .missingParent 1 1] := by
  obtain ⟨r, start⟩ : ∃ r, Replay.start {} none = .ok r := ⟨_, rfl⟩
  have started := Started.of_start start
  obtain ⟨log, result, marks, sound, finished, defects, _⟩ := started.forest_sound rfl
    [.call 1 10 (.enter "hipLaunchKernel" 7), .batch 2 [.ofOp 7 .dispatch 100 200],
      .call 2 20 (.enter "hipFree" 8), .call 2 30 (.exit "hipFree" 8)]
  refine ⟨r, started, rfl, log, result, marks, sound, finished, ?_⟩
  rw [defects, sound.defects]
  cases start
  decide

end Replay

end SpanWeave
