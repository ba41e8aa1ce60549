import SpanWeave.Proofs.Engine.Marking
import SpanWeave.Proofs.Forest.Depths
import SpanWeave.Proofs.Replay.Lineage

set_option autoImplicit false

/-!
# Trail

What a run leaves in the log of marks, told by its history alone. The begin marks that wait for an
end are those of the calls that were entered and that no exit has ended, no end mark comes without
its begin mark, and there is a host node for every call that was ended and a mark for every
completion with a call behind it.
-/
namespace SpanWeave

def Mark.identity (m : Mark) : Identity := ⟨m.span, m.parent, m.depth⟩

/-- Who work on a device is: it shares the span of the call that launched it. -/
def Identity.work (launch : Identity) : Identity :=
  ⟨launch.span, some launch.span, deeper launch.depth⟩

def enteredSpans (past : List Answer) : List SpanId := (enteredIdentities past).map (·.span)

theorem Engine.DrainStep.orphan_eq {e e' : Engine} {t t' : ThreadState} {offset : Int}
    {c : Completion} {orphan : Bool} (h : DrainStep e t offset c (.emitted orphan) t' e') :
    (e.registry.lookupRecord? c.correlation).1.isNone = orphan := by
  cases h with
  | orphaned _ _ _ unknown =>
    rw [unknown]
    rfl
  | launched _ _ _ known =>
    rw [known]
    rfl

namespace Replay

/-- How the pairing of the marks stands to the history, whatever names hashes stand for. -/
structure Trail (filter : NameFilter) (past : List Happening) (p : Pairing) : Prop where
  strays : p.strays = #[]
  waiting : ∀ span, (∃ m, p.opened[span]? = some m) ↔
    span ∈ enteredSpans (answers past) ∧ span ∉ exitedSpans (answers past)
  begun : ∀ (span : SpanId) (m : Mark), p.opened[span]? = some m →
    m.span = span ∧ m.identity ∈ enteredIdentities (answers past)
  hosts : p.hosts.toList.map Node.identity = exitedIdentities (answers past)
  cpu : ∀ n ∈ p.hosts, n.kind = .cpu
  devices : p.devices.toList.map Mark.identity = (launchIdentities filter past).map Identity.work

namespace Trail
variable {filter : NameFilter} {past past' : List Happening} {p : Pairing} {names : HashNames}

theorem keep (h : Trail filter past p)
    (entered : enteredIdentities (answers past') = enteredIdentities (answers past))
    (exited : exitedIdentities (answers past') = exitedIdentities (answers past))
    (launched : launchIdentities filter past' = launchIdentities filter past) :
    Trail filter past' p := by
  refine ⟨h.strays, fun span => ?_, fun span m found => ?_, h.hosts.trans exited.symm, h.cpu, ?_⟩
  · rw [exitedSpans_eq, exited, ← exitedSpans_eq, enteredSpans, entered]
    exact h.waiting span
  · rw [entered]
    exact h.begun span m found
  · rw [launched]
    exact h.devices

theorem enter (h : Trail filter past p) {identity : Identity}
    (entered : enteredIdentities (answers past') =
      enteredIdentities (answers past) ++ [identity])
    (exited : exitedIdentities (answers past') = exitedIdentities (answers past))
    (launched : launchIdentities filter past' = launchIdentities filter past)
    (unended : identity.span ∉ exitedSpans (answers past)) (name : String) (thread : ThreadId)
    (correlation : Option CorrelationId) (time : Nanos) (queue : Option QueueId) :
    Trail filter past' (p.add names (.hostBegin name thread identity correlation time queue)) := by
  rw [Pairing.add_hostBegin]
  refine ⟨h.strays, fun span => ?_, fun span m found => ?_, h.hosts.trans exited.symm, h.cpu, ?_⟩
  · rw [exitedSpans_eq, exited, ← exitedSpans_eq, enteredSpans, entered, List.map_append,
      List.mem_append, Std.ExtTreeMap.getElem?_insert]
    split
    · rename_i same
      obtain rfl := Std.LawfulEqCmp.eq_of_compare same
      exact ⟨fun _ => ⟨.inr (List.mem_singleton_self _), unended⟩, fun _ => ⟨_, rfl⟩⟩
    · rename_i other
      have differs : span ∉ [identity].map (·.span) := by
        intro new
        rw [List.mem_singleton.mp new] at other
        exact other Std.ReflCmp.compare_self
      rw [or_iff_left differs]
      exact h.waiting span
  · rw [entered]
    rw [Std.ExtTreeMap.getElem?_insert] at found
    split at found
    · rename_i same
      cases found
      exact ⟨Std.LawfulEqCmp.eq_of_compare same,
        List.mem_append_right _ (List.mem_singleton_self _)⟩
    · exact ⟨(h.begun span m found).1, List.mem_append_left _ (h.begun span m found).2⟩
  · rw [launched]
    exact h.devices

theorem exit (h : Trail filter past p) {identity : Identity}
    (entered : enteredIdentities (answers past') = enteredIdentities (answers past))
    (exited : exitedIdentities (answers past') = exitedIdentities (answers past) ++ [identity])
    (launched : launchIdentities filter past' = launchIdentities filter past)
    (member : identity ∈ enteredIdentities (answers past))
    (unended : identity.span ∉ exitedSpans (answers past))
    (unique : ∀ i ∈ enteredIdentities (answers past), i.span = identity.span → i = identity)
    (name : String) (thread : ThreadId) (time : Nanos) :
    Trail filter past' (p.add names (.hostEnd name thread identity time)) := by
  obtain ⟨start, found⟩ := (h.waiting identity.span).mpr ⟨List.mem_map_of_mem member, unended⟩
  obtain ⟨span, begun⟩ := h.begun _ start found
  have same : start.identity = identity := unique _ begun span
  have spans : exitedSpans (answers past') = exitedSpans (answers past) ++ [identity.span] := by
    rw [exitedSpans_eq, exited, List.map_append, ← exitedSpans_eq]
    rfl
  rw [Pairing.add_hostEnd found]
  refine ⟨h.strays, fun span => ?_, fun span m waits => ?_, ?_, fun n made => ?_, ?_⟩
  · rw [spans, enteredSpans, entered, List.mem_append, List.mem_singleton, not_or, ← and_assoc,
      Std.ExtTreeMap.getElem?_erase]
    split
    · rename_i same
      obtain rfl := Std.LawfulEqCmp.eq_of_compare same
      exact ⟨nofun, fun both => absurd rfl both.2⟩
    · rename_i other
      have differs : span ≠ identity.span := fun eq => other (eq ▸ Std.ReflCmp.compare_self)
      rw [and_iff_left differs]
      exact h.waiting span
  · rw [entered]
    rw [Std.ExtTreeMap.getElem?_erase] at waits
    split at waits
    · cases waits
    · exact h.begun span m waits
  · rw [exited, Array.toList_push, List.map_append, h.hosts]
    exact congrArg (fun i => exitedIdentities (answers past) ++ [i]) same
  · rcases Array.mem_push.mp made with old | rfl
    · exact h.cpu n old
    · rfl
  · rw [launched]
    exact h.devices

theorem launch (h : Trail filter past p) {identity : Identity}
    (history : answers past' = answers past)
    (launched : launchIdentities filter past' = launchIdentities filter past ++ [identity])
    {m : Mark} (work : m.identity = identity.work) :
    Trail filter past' { p with devices := p.devices.push m } := by
  refine ⟨h.strays, ?_, ?_, ?_, h.cpu, ?_⟩
  · rw [history]
    exact h.waiting
  · rw [history]
    exact h.begun
  · rw [history]
    exact h.hosts
  · rw [launched, Array.toList_push, List.map_append, List.map_append, h.devices]
    exact congrArg (fun i => (launchIdentities filter past).map Identity.work ++ [i]) work

end Trail

structure Trailed (filter : NameFilter) (past : List Happening) (ts : ThreadId → ThreadState)
    (e : Engine) (log : MarkLog) : Prop where
  lineage : Lineage filter past ts e
  marks : e.sinks.marks = some log
  trail : ∀ names, Trail filter past (Pairing.ofMarks names log.marks.toList)

namespace Trailed
variable {filter : NameFilter} {past : List Happening} {ts : ThreadId → ThreadState}
  {e e' : Engine} {log : MarkLog}

theorem host (h : Trailed filter past ts e log) {a : Answer} {t : ThreadState}
    (known : (ts a.thread).thread = a.thread)
    (step : Engine.HostStep e (ts a.thread) a.call a.time a.outcome t e') :
    ∃ log', Trailed filter (past ++ [.call a]) (Function.update ts a.thread t) e' log' := by
  have lineage := h.lineage.host known step
  obtain ⟨log', marks, noted⟩ := step.noted h.marks
  refine ⟨log', lineage, marks, fun names => ?_⟩
  have trail := h.trail names
  have history : answers (past ++ [.call a]) = answers past ++ [a] := answers_append _ _
  have launched := launchIdentities_call filter past a
  generalize outcome : a.outcome = result at noted
  cases noted with
  | nothing entered exited =>
    obtain ⟨noEnter, noExit⟩ := Answer.identities_silent (outcome ▸ entered) (outcome ▸ exited)
    refine trail.keep ?_ ?_ launched
    · rw [history, enteredIdentities_append, noEnter, List.append_nil]
    · rw [history, exitedIdentities_append, noExit, List.append_nil]
  | entered =>
    obtain ⟨new, none⟩ := Answer.identities_entered outcome
    rw [MarkLog.push, Array.toList_push, Pairing.ofMarks_append]
    refine trail.enter ?_ ?_ launched (fun ended => ?_) _ _ _ _ _
    · rw [history, enteredIdentities_append, new]
    · rw [history, exitedIdentities_append, none, List.append_nil]
    · have less := h.lineage.exited_le ended
      rw [ThreadState.span_nextIdentity] at less
      exact absurd less (Nat.not_succ_le_self _)
  | @exited identity =>
    obtain ⟨none, new⟩ := Answer.identities_exited outcome
    have entered : enteredIdentities (answers (past ++ [.call a])) =
        enteredIdentities (answers past) := by
      rw [history, enteredIdentities_append, none, List.append_nil]
    have exited : exitedIdentities (answers (past ++ [.call a])) =
        exitedIdentities (answers past) ++ [identity] := by
      rw [history, exitedIdentities_append, new]
    have member : identity ∈ enteredIdentities (answers past) := by
      rw [← entered]
      apply lineage.exited
      rw [exited]
      exact List.mem_append_right _ (List.mem_singleton_self _)
    have unended : identity.span ∉ exitedSpans (answers past) := by
      have distinct := lineage.distinct
      rw [exitedSpans_eq, exited, List.map_append, ← exitedSpans_eq, List.nodup_append] at distinct
      exact fun ended => distinct.2.2 _ ended _ (List.mem_singleton_self _) rfl
    rw [MarkLog.push, Array.toList_push, Pairing.ofMarks_append]
    exact trail.exit entered exited launched member unended
      (fun i other same => h.lineage.unique other member same) _ _ _

theorem completion (h : Trailed filter past ts e log) {thread : ThreadId} {offset : Int}
    {c : Completion} {d : Disposition} {t : ThreadState} (known : (ts thread).thread = thread)
    (step : Engine.DrainStep e (ts thread) offset c d t e') :
    ∃ log', Trailed filter (past ++ [.completion thread c d]) (Function.update ts thread t) e'
      log' := by
  have lineage := h.lineage.completion known step
  obtain ⟨log', marks, tagged⟩ := step.tagged h.marks
  refine ⟨log', lineage, marks, fun names => ?_⟩
  have trail := h.trail names
  have history := answers_append_completion past thread c d
  have looked := h.lineage.registered.holds.lookupRecord c.correlation
  cases tagged with
  | nothing other =>
    refine trail.keep (congrArg _ history) (congrArg _ history) ?_
    cases d with
    | emitted orphan =>
      cases orphan with
      | false => exact absurd rfl other
      | true =>
        have none := step.orphan_eq
        rw [looked, Option.isNone_iff_eq_none] at none
        rw [launchIdentities_emitted, none]
        exact List.append_nil _
    | unsupported | filtered | anomaly =>
      exact launchIdentities_silent filter past thread c fun _ eq => by cases eq
  | @launch op launch supported found =>
    rw [MarkLog.push, Array.toList_push, Pairing.ofMarks_append, Engine.deviceMark,
      Pairing.add_onDevice]
    have one : launchIdentities filter (past ++ [.completion thread c (.emitted false)]) =
        launchIdentities filter past ++ [launch.identity] := by
      rw [launchIdentities_emitted, ← looked, found]
      rfl
    exact trail.launch history one rfl

end Trailed

theorem kept_trailed (filter : NameFilter) :
    Kept fun past ts e => ∃ log, Trailed filter past ts e log where
  background := by
    rintro past ts e e' ⟨log, h⟩ quiet
    exact ⟨log, (kept_lineage filter).background h.lineage quiet,
      quiet.sinks.marks.trans h.marks, h.trail⟩
  host := by
    rintro past ts e thread now c outcome t e' ⟨log, h⟩ known step
    exact h.host (a := ⟨thread, now, c, outcome⟩) known step
  completion := by
    rintro past ts e thread offset c d t e' ⟨log, h⟩ known step
    exact h.completion known step

theorem Fresh.trailed {s : Settings} {r : Replay} (fresh : r.Fresh s)
    (marks : s.recordMarks = true) :
    Trailed r.session.engine.callFilter [] r.threadState r.session.engine {} := by
  refine ⟨fresh.lineage, ?_, fun names => ⟨rfl, fun span => ?_, fun span m found => ?_, rfl,
    fun n member => absurd member (Array.not_mem_empty n), rfl⟩⟩
  · rw [fresh.marks, marks]
    rfl
  · refine ⟨fun ⟨m, found⟩ => ?_, fun both => absurd both.1 List.not_mem_nil⟩
    cases Std.ExtTreeMap.getElem?_empty.symm.trans found
  · cases Std.ExtTreeMap.getElem?_empty.symm.trans found

end Replay

end SpanWeave
