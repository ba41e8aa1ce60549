import SpanWeave.Proofs.Registry.OneMap
import SpanWeave.Proofs.Replay.Numbering

set_option autoImplicit false

/-!
# Registered calls

Threads register calls under the same ids, take each other's records over and close them. All the
same, both tables of the registry always say under an id what the last call with that id has left
there, on whatever thread it was: its own record if it was entered, and nothing if it was an exit.
-/
namespace SpanWeave

def Answer.record? (a : Answer) : Option CallRecord :=
  match a.outcome with
  | .entered identity => some ⟨a.call.displayName, a.thread, identity⟩
  | _ => none

theorem Answer.outcome_of_record? {a : Answer} {record : CallRecord}
    (h : a.record? = some record) : a.outcome = .entered record.identity := by
  unfold Answer.record? at h
  split at h
  · rename_i identity outcome
    cases h
    exact outcome
  · cases h

/-- The last correlated call with the id that the filter let pass. -/
def lastCall? (filter : NameFilter) (id : CorrelationId) (past : List Answer) : Option Answer :=
  (past.filter fun a => a.isTraced filter && a.call.correlation == id).getLast?

theorem lastCall?_eq_some {filter : NameFilter} {id : CorrelationId} {past : List Answer}
    {a : Answer} (h : lastCall? filter id past = some a) :
    a ∈ past ∧ a.isTraced filter = true ∧ a.call.correlation = id := by
  obtain ⟨member, fits⟩ := List.mem_filter.mp (List.mem_of_getLast? h)
  rw [Bool.and_eq_true, beq_iff_eq] at fits
  exact ⟨member, fits⟩

theorem lastCall?_append (filter : NameFilter) (id : CorrelationId) (past : List Answer)
    (a : Answer) : lastCall? filter id (past ++ [a]) =
      if a.isTraced filter ∧ a.call.correlation = id then some a else lastCall? filter id past := by
  unfold lastCall?
  rw [List.filter_append, List.filter_cons, List.filter_nil, List.getLast?_append]
  by_cases now : a.isTraced filter = true ∧ a.call.correlation = id
  · rw [if_pos now, now.1, now.2, beq_self_eq_true]
    rfl
  · have skipped : (a.isTraced filter && a.call.correlation == id) = false := by
      rw [← Bool.not_eq_true, Bool.and_eq_true, beq_iff_eq]
      exact now
    rw [if_neg now, skipped]
    rfl

def registered (filter : NameFilter) (past : List Answer) (id : CorrelationId) :
    Option CallRecord := (lastCall? filter id past).bind Answer.record?

theorem registered_append_of_traced {filter : NameFilter} {past : List Answer} {a : Answer}
    (traced : a.isTraced filter = true) : registered filter (past ++ [a]) =
      Function.update (registered filter past) a.call.correlation a.record? := by
  funext id
  unfold registered
  rw [lastCall?_append]
  by_cases same : id = a.call.correlation
  · subst same
    rw [if_pos ⟨traced, rfl⟩, Function.update_self]
    rfl
  · rw [if_neg fun both => same both.2.symm, Function.update_of_ne same]

theorem registered_append_of_not_traced {filter : NameFilter} {past : List Answer} {a : Answer}
    (traced : a.isTraced filter = false) :
    registered filter (past ++ [a]) = registered filter past := by
  funext id
  unfold registered
  rw [lastCall?_append, if_neg fun both => Bool.false_ne_true (traced.symm.trans both.1)]

namespace Replay

structure Registered (filter : NameFilter) (past : List Happening) (e : Engine) : Prop where
  callFilter : e.callFilter = filter
  holds : e.registry.Holds (registered filter (answers past))

namespace Registered
variable {filter : NameFilter} {past : List Happening} {e e' : Engine}

theorem background (h : Registered filter past e) (quiet : e.Background e') :
    Registered filter past e' :=
  ⟨quiet.callFilter.trans h.callFilter, h.holds.of_eq quiet.owners quiet.identities⟩

theorem host (h : Registered filter past e) {t t' : ThreadState} {thread : ThreadId}
    {now : Nanos} {c : HostCall} {outcome : Outcome} (known : t.thread = thread)
    (step : Engine.HostStep e t c now outcome t' e') :
    Registered filter (past ++ [.call ⟨thread, now, c, outcome⟩]) e' := by
  refine ⟨step.callFilter_eq.trans h.callFilter, ?_⟩
  rw [answers_append, answers_call]
  have unlisted : c.domain = .untracked →
      Answer.isTraced filter ⟨thread, now, c, outcome⟩ = false := by
    intro domain
    simp only [Answer.isTraced, domain]
    rfl
  have listed : e.callFilter.accepts c.name = true → c.domain = .correlated →
      Answer.isTraced filter ⟨thread, now, c, outcome⟩ = true := fun traced domain =>
    Answer.isTraced_iff.mpr ⟨domain, h.callFilter ▸ traced⟩
  -- an exit closes the record under its id, whatever it finds there
  have exit : ∀ {e₁ : Engine}, e.countExit.Background e₁ →
      Answer.isTraced filter ⟨thread, now, c, outcome⟩ = true →
      Answer.record? ⟨thread, now, c, outcome⟩ = none →
      (e₁.registry.close c.correlation).2.Holds
        (registered filter (answers past ++ [⟨thread, now, c, outcome⟩])) := by
    intro e₁ earlier traced record
    rw [registered_append_of_traced traced, record]
    exact (h.holds.of_eq earlier.owners earlier.identities).close _
  cases step with
  | filtered rejected =>
    rw [registered_append_of_not_traced]
    · exact h.holds
    · rw [← Bool.not_eq_true, Answer.isTraced_iff]
      intro both
      rw [h.callFilter, both.2] at rejected
      cases rejected
  | entered traced domain phase later =>
    rw [registered_append_of_traced (listed traced domain)]
    have after := h.holds.register c.correlation
      ⟨c.displayName, t.thread, (t.nextIdentity e.ids).1⟩
    rw [known] at after
    exact Registry.Holds.of_eq (r := (e.entered t c now).registry) (by
      unfold Engine.entered
      rw [known]
      exact after) later.owners later.identities
  | exited traced domain phase earlier => exact exit earlier (listed traced domain) rfl
  | anomaly traced domain phase earlier => exact exit earlier (listed traced domain) rfl
  | stray traced domain phase earlier => exact exit earlier (listed traced domain) rfl
  | missing traced domain phase earlier => exact exit earlier (listed traced domain) rfl
  | untrackedEnter _ domain | untrackedStray _ domain | untrackedAnomaly _ domain =>
    rw [registered_append_of_not_traced (unlisted domain)]
    exact h.holds
  | leaf _ domain _ _ _ _ later =>
    rw [registered_append_of_not_traced (unlisted domain)]
    exact h.holds.of_eq later.owners later.identities

theorem completion (h : Registered filter past e) {t t' : ThreadState} {thread : ThreadId}
    {offset : Int} {c : Completion} {d : Disposition}
    (step : Engine.DrainStep e t offset c d t' e') :
    Registered filter (past ++ [.completion thread c d]) e' := by
  refine ⟨step.callFilter_eq.trans h.callFilter, ?_⟩
  rw [answers_append_completion]
  have looked := Engine.Background.lookupRecord e c.correlation
  cases step with
  | unsupported | filtered => exact h.holds
  | anomaly | orphaned => exact h.holds.of_eq looked.owners looked.identities
  | launched _ _ _ _ later =>
    exact (h.holds.of_eq looked.owners looked.identities).of_eq later.owners later.identities

end Registered

theorem Unused.registered {r : Replay} (unused : r.Unused) :
    Registered r.session.engine.callFilter [] r.session.engine := by
  refine ⟨rfl, ?_⟩
  rw [unused.registry]
  exact .empty

theorem Fresh.registered {s : Settings} {r : Replay} (fresh : r.Fresh s) :
    Registered r.session.engine.callFilter [] r.session.engine := fresh.unused.registered

end Replay

end SpanWeave
