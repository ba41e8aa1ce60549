import SpanWeave.Proofs.Forest.Pairing
import SpanWeave.Proofs.Replay.Distinct

set_option autoImplicit false

/-!
# Paired marks

A call that is entered leaves a begin mark, which waits under its span id, and the exit that ends it
an end mark. The node that the two make is the span that the recorder finishes for the call.
-/
namespace SpanWeave

structure Node.Agrees (n : Node) (s : Span) : Prop where
  span : n.span = s.span
  parent : n.parentSpan = s.parent
  depth : n.depth = s.depth
  thread : n.thread = s.thread
  correlation : n.correlation = s.correlation
  beginsAt : n.beginsAt = s.beginsAt
  endsAt : n.endsAt = s.endsAt

theorem Node.Agrees.of_bare {n n' : Node} {s : Span} (h : n.Agrees s) (same : n'.bare = n.bare) :
    n'.Agrees s where
  span := (congrArg Node.span same).trans h.span
  parent := (congrArg Node.parentSpan same).trans h.parent
  depth := (congrArg Node.depth same).trans h.depth
  thread := (congrArg Node.thread same).trans h.thread
  correlation := (congrArg Node.correlation same).trans h.correlation
  beginsAt := (congrArg Node.beginsAt same).trans h.beginsAt
  endsAt := (congrArg Node.endsAt same).trans h.endsAt

def Recorder.linkedSpans (r : Recorder) : List Span :=
  r.finished.toList.filter fun s => s.kind == .device && s.parent.isSome

theorem Recorder.linkedSpans_append {r r' : Recorder} {more : Array Span}
    (finished : r'.finished = r.finished ++ more)
    (beside : ∀ span ∈ more, span.kind = .cpu ∨ span.parent = none) :
    r'.linkedSpans = r.linkedSpans := by
  unfold linkedSpans
  rw [finished, Array.toList_append, List.filter_append]
  refine (congrArg (_ ++ ·) (List.filter_eq_nil_iff.mpr fun span member => ?_)).trans
    (List.append_nil _)
  rcases beside span (Array.mem_toList_iff.mp member) with cpu | none
  · rw [cpu]
    exact Bool.false_ne_true
  · rw [none, Option.isSome_none, Bool.and_false]
    exact Bool.false_ne_true

theorem Recorder.linkedSpans_push {r r' : Recorder} {span : Span}
    (finished : r'.finished = r.finished.push span) (kind : span.kind = .device)
    (linked : span.parent.isSome = true) : r'.linkedSpans = r.linkedSpans ++ [span] := by
  unfold linkedSpans
  rw [finished, Array.toList_push, List.filter_append, List.filter_cons, List.filter_nil, kind,
    linked]
  rfl

def exitedSpans (past : List Answer) : List SpanId :=
  past.filterMap fun a => match a.outcome with
    | .exited identity => some identity.span
    | _ => none

def callNames (past : List Answer) : List String :=
  past.filterMap fun a => match a.outcome with
    | .entered _ | .exited _ => some a.call.name
    | _ => none

def usedNames (past : List Answer) (r : Recorder) : List String :=
  callNames past ++ r.linkedSpans.map (·.name)

theorem callNames_append (past : List Answer) (a : Answer) :
    callNames (past ++ [a]) = callNames past ++ callNames [a] := List.filterMap_append

theorem exitedSpans_append (past : List Answer) (a : Answer) :
    exitedSpans (past ++ [a]) = exitedSpans past ++ exitedSpans [a] := List.filterMap_append

theorem mem_usedNames_append {past : List Answer} {a : Answer} {r r' : Recorder}
    (called : callNames [a] = [a.call.name]) (linked : r'.linkedSpans = r.linkedSpans)
    (name : String) :
    name ∈ usedNames (past ++ [a]) r' ↔ name ∈ usedNames past r ∨ name = a.call.name := by
  rw [usedNames, usedNames, callNames_append, called, linked, List.mem_append, List.mem_append,
    List.mem_append, List.mem_singleton]
  exact or_right_comm

theorem mem_callNames {past : List Answer} {a : Answer} {identity : Identity} (member : a ∈ past)
    (outcome : a.outcome = .entered identity) : a.call.name ∈ callNames past :=
  List.mem_filterMap.mpr ⟨a, member, by rw [outcome]⟩

def Answer.beginMark (a : Answer) (identity : Identity) : Mark :=
  .hostBegin a.call.name a.thread identity (some a.call.correlation) a.time a.call.queue

namespace Replay

/-- How a pairing stands to the threads and the recorder, whatever names hashes stand for. -/
structure Paired (names : HashNames) (past : List Answer) (ts : ThreadId → ThreadState)
    (recorder : Recorder) (p : Pairing) : Prop where
  /-- The begin mark of every open call waits for its end. -/
  waiting : ∀ thread, ∀ call ∈ (ts thread).calls, ∃ a ∈ past, a.Opens thread call ∧
    p.opened[call.identity.span]? = some (a.beginMark call.identity)
  exited : p.hosts.toList.map (·.span) = exitedSpans past
  nodup : (exitedSpans past).Nodup
  hosts : ∀ n ∈ p.hosts, n.kind = .cpu ∧ ∃ s ∈ recorder.hostSpans, n.Agrees s ∧
    n.name = names.resolve (nameHash s.name) ∧ s.name ∈ callNames past
  devices : List.Forall₂ (fun m s => (m.toNode names .device).Agrees s ∧
    s.lap = some m.priority ∧ m.nameHash = nameHash s.name) p.devices.toList recorder.linkedSpans

namespace Paired
variable {names : HashNames} {past past' : List Answer} {ts ts' : ThreadId → ThreadState}
  {recorder recorder' : Recorder} {p : Pairing}

theorem grow (h : Paired names past ts recorder p) (answers : past ⊆ past')
    (calls : ∀ thread, ∀ call ∈ (ts' thread).calls, call ∈ (ts thread).calls)
    (exited : exitedSpans past' = exitedSpans past) (called : callNames past ⊆ callNames past')
    (hosts : recorder.hostSpans ⊆ recorder'.hostSpans)
    (linked : recorder'.linkedSpans = recorder.linkedSpans) :
    Paired names past' ts' recorder' p := by
  refine ⟨fun thread call held => ?_, h.exited.trans exited.symm, ?_, fun n member => ?_, ?_⟩
  · obtain ⟨a, member, found⟩ := h.waiting thread call (calls thread call held)
    exact ⟨a, answers member, found⟩
  · rw [exited]
    exact h.nodup
  · obtain ⟨kind, s, finished, agrees, name, used⟩ := h.hosts n member
    exact ⟨kind, s, hosts finished, agrees, name, called used⟩
  · rw [linked]
    exact h.devices

theorem enter (h : Paired names past ts recorder p) {a : Answer} {t : ThreadState}
    {identity : Identity} (outcome : a.outcome = .entered identity)
    (calls : t.calls = ⟨identity, a.time⟩ :: (ts a.thread).calls)
    (unused : ∀ thread, ∀ call ∈ (ts thread).calls, call.identity.span ≠ identity.span)
    (hosts : recorder'.hostSpans = recorder.hostSpans)
    (linked : recorder'.linkedSpans = recorder.linkedSpans) :
    Paired names (past ++ [a]) (Function.update ts a.thread t) recorder'
      (p.add names (a.beginMark identity)) := by
  have silent : exitedSpans (past ++ [a]) = exitedSpans past := by
    rw [exitedSpans_append]
    simp only [exitedSpans, List.filterMap_cons, outcome, List.filterMap_nil, List.append_nil]
  rw [Answer.beginMark, Pairing.add_hostBegin]
  refine ⟨fun thread call held => ?_, h.exited.trans silent.symm, ?_, fun n member => ?_, ?_⟩
  · have old : ∀ call ∈ (ts thread).calls, ∃ b ∈ past ++ [a], b.Opens thread call ∧
        (p.opened.insert identity.span (a.beginMark identity))[call.identity.span]? =
          some (b.beginMark call.identity) := by
      intro call held
      obtain ⟨b, member, opens, found⟩ := h.waiting thread call held
      refine ⟨b, List.mem_append_left _ member, opens, ?_⟩
      rw [Std.ExtTreeMap.getElem?_insert, if_neg, found]
      rw [Std.LawfulEqCmp.compare_eq_iff_eq]
      exact (unused thread call held).symm
    rcases mem_calls_update held with ⟨rfl, now⟩ | before
    · rw [calls] at now
      rcases List.mem_cons.mp now with rfl | before
      · exact ⟨a, List.mem_append_right _ (List.mem_singleton_self a), ⟨rfl, rfl, outcome⟩,
          Std.ExtTreeMap.getElem?_insert_self⟩
      · exact old call before
    · exact old call before
  · rw [silent]
    exact h.nodup
  · obtain ⟨kind, s, finished, agrees, name, used⟩ := h.hosts n member
    refine ⟨kind, s, hosts ▸ finished, agrees, name, ?_⟩
    rw [callNames_append]
    exact List.mem_append_left _ used
  · rw [linked]
    exact h.devices

/-- An end mark makes the node of the call that it ends, which is the span just finished. -/
theorem exit (h : Paired names past ts recorder p) {a b : Answer} {t : ThreadState}
    {identity : Identity} {call : OpenCall} {start : SpanStart}
    (outcome : a.outcome = .exited identity) (held : call ∈ (ts a.thread).calls)
    (same : call.identity.span = identity.span) (member : b ∈ past)
    (begins : b.Begins start) (opens : b.Opens a.thread call)
    (unique : ∀ c ∈ past, c.Opens a.thread call → c = b)
    (unused : ∀ old ∈ recorder.hostSpans, old.span ≠ identity.span)
    (others : ∀ thread, ∀ other ∈ (Function.update ts a.thread t thread).calls,
      other ∈ (ts thread).calls ∧ other.identity.span ≠ identity.span)
    (hosts : recorder'.hostSpans = recorder.hostSpans ++ [start.finish a.time])
    (linked : recorder'.linkedSpans = recorder.linkedSpans) :
    Paired names (past ++ [a]) (Function.update ts a.thread t) recorder'
      (p.add names (.hostEnd a.call.name a.thread identity a.time)) := by
  obtain ⟨c, member', opens', found⟩ := h.waiting a.thread call held
  have eq := unique c member' opens'
  subst eq
  have identity_eq := Outcome.entered.inj (begins.outcome.symm.trans opens.outcome)
  have noted : exitedSpans (past ++ [a]) = exitedSpans past ++ [identity.span] := by
    rw [exitedSpans_append]
    simp only [exitedSpans, List.filterMap_cons, outcome, List.filterMap_nil]
  rw [Pairing.add_hostEnd (same ▸ found)]
  refine ⟨fun thread other later => ?_, ?_, ?_, fun n made => ?_, ?_⟩
  · obtain ⟨before, differs⟩ := others thread other later
    obtain ⟨d, earlier, opened, waits⟩ := h.waiting thread other before
    refine ⟨d, List.mem_append_left _ earlier, opened, ?_⟩
    rw [Std.ExtTreeMap.getElem?_erase, if_neg, waits]
    rw [Std.LawfulEqCmp.compare_eq_iff_eq]
    exact differs.symm
  · rw [noted, Array.toList_push, List.map_append, h.exited]
    exact congrArg (fun id => exitedSpans past ++ [id]) same
  · rw [noted, List.nodup_append]
    refine ⟨h.nodup, List.nodup_singleton _, fun id old other new => ?_⟩
    rw [← h.exited] at old
    obtain ⟨n, earlier, rfl⟩ := List.mem_map.mp old
    obtain ⟨_, s, finished, agrees, _⟩ := h.hosts n (Array.mem_toList_iff.mp earlier)
    rw [List.mem_singleton.mp new, agrees.span]
    exact unused s finished
  · rw [hosts, callNames_append]
    rcases Array.mem_push.mp made with old | rfl
    · obtain ⟨kind, s, finished, agrees, name, used⟩ := h.hosts n old
      exact ⟨kind, s, List.mem_append_left _ finished, agrees, name, List.mem_append_left _ used⟩
    · refine ⟨rfl, start.finish a.time, List.mem_append_right _ (List.mem_singleton_self _), ?_, ?_,
        List.mem_append_left _ ?_⟩
      · exact ⟨congrArg Identity.span identity_eq.symm, congrArg Identity.parent identity_eq.symm,
          congrArg Identity.depth identity_eq.symm, begins.thread.symm, begins.correlation.symm,
          begins.time.symm, rfl⟩
      · exact congrArg (fun name => names.resolve (nameHash name)) begins.name.symm
      · have used := mem_callNames member' begins.outcome
        rw [← begins.name] at used
        exact used
  · rw [linked]
    exact h.devices

theorem launch (h : Paired names past ts recorder p) {m : Mark} {s : Span}
    (agrees : (m.toNode names .device).Agrees s) (lap : s.lap = some m.priority)
    (hash : m.nameHash = nameHash s.name)
    (calls : ∀ thread, (ts' thread).calls = (ts thread).calls)
    (hosts : recorder'.hostSpans = recorder.hostSpans)
    (linked : recorder'.linkedSpans = recorder.linkedSpans ++ [s]) :
    Paired names past ts' recorder' { p with devices := p.devices.push m } := by
  refine ⟨fun thread call held => ?_, h.exited, h.nodup, fun n member => ?_, ?_⟩
  · rw [calls] at held
    exact h.waiting thread call held
  · rw [hosts]
    exact h.hosts n member
  · rw [linked, Array.toList_push]
    exact List.rel_append h.devices (.cons ⟨agrees, lap, hash⟩ .nil)

end Paired

end Replay

end SpanWeave
