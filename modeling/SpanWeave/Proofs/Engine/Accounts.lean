import SpanWeave.Proofs.Engine.Bench
import SpanWeave.Proofs.Engine.Samples
import SpanWeave.Proofs.Registry.OneMap

set_option autoImplicit false

/-!
# Accounts

What is counted in four places, by the calls, the registry, the span ids and the drains, and what
callers are told, always balances: each step adds the same on both sides of each equation.
-/
namespace SpanWeave

def Completion.isLooked (g : NameFilter) (c : Completion) : Bool :=
  c.op?.any fun op => g.accepts op.name

/-- What callers can count themselves. -/
structure Receipts where
  /-- Exits that were told that they have left their call. -/
  exited : Nat := 0
  /-- Exits that were told that their call ends before it begins. -/
  anomalies : Nat := 0
  looked : Nat := 0
  discarded : Nat := 0
  deriving DecidableEq

namespace Receipts

def add (a b : Receipts) : Receipts where
  exited := a.exited + b.exited
  anomalies := a.anomalies + b.anomalies
  looked := a.looked + b.looked
  discarded := a.discarded + b.discarded

theorem add_assoc (a b c : Receipts) : (a.add b).add c = a.add (b.add c) := by
  simp only [add, Nat.add_assoc]

def ofOutcome (domain : CallDomain) : Outcome → Receipts
  | .exited _ => { exited := 1 }
  | .clockAnomaly => { anomalies := if domain = .correlated then 1 else 0 }
  | _ => {}

theorem ofOutcome_rest (domain : CallDomain) (outcome : Outcome) :
    (ofOutcome domain outcome).looked = 0 ∧ (ofOutcome domain outcome).discarded = 0 := by
  cases outcome <;> exact ⟨rfl, rfl⟩

end Receipts

namespace Engine

/-- With the filter `g` for operations on devices. -/
structure Balances (g : NameFilter) (x : Receipts) (e : Engine) : Prop where
  filter : e.activityFilter = g
  spans : e.ids.allocated = e.calls.enters + e.calls.untrackedSpans
  registered : e.registry.counts.registered = e.calls.enters
  opened : e.calls.enters =
    e.registry.counts.overwritten + e.registry.counts.closed + e.registry.size + x.discarded
  exits : e.registry.counts.closed + e.registry.counts.missingOnClose = e.calls.exits
  missing : e.registry.counts.missingOnClose ≤ e.calls.missingRecords
  told : x.exited + e.calls.missingRecords + x.anomalies = e.calls.exits
  looked : e.registry.counts.lookups = x.looked
  orphans : e.drains.orphans ≤ e.registry.counts.lookupMisses
  /-- Both tables of the registry have the same ids. -/
  owned : ∀ id : CorrelationId,
    e.registry.owners[id]?.isSome = e.registry.identities[id]?.isSome

variable {g : NameFilter} {x : Receipts} {e : Engine}

theorem Balances.of_books (h : e.Balances g x) {e' : Engine}
    (filter : e'.activityFilter = e.activityFilter) (registry : e'.registry = e.registry)
    (ids : e'.ids = e.ids) (calls : e'.calls = e.calls)
    (orphans : e'.drains.orphans = e.drains.orphans) : e'.Balances g x := by
  refine ⟨filter.trans h.filter, ?_, ?_, ?_, ?_, ?_, ?_, ?_, ?_, ?_⟩
  · rw [ids, calls, h.spans]
  · rw [registry, calls, h.registered]
  · rw [registry, calls, h.opened]
  · rw [registry, calls, h.exits]
  · rw [registry, calls]
    exact h.missing
  · rw [calls, h.told]
  · rw [registry, h.looked]
  · rw [registry, orphans]
    exact h.orphans
  · rw [registry]
    exact h.owned

theorem Balances.actAll (h : e.Balances g x) (deeds : List Deed) :
    (e.actAll deeds).Balances g x := by
  obtain ⟨registry, ids, calls, setting, _⟩ := e.books_actAll deeds
  have drains := congrArg DrainCounts.orphans (e.drains_actAll deeds)
  exact h.of_books (congrArg Setting.activityFilter setting) registry ids calls drains

/-! ## Calls -/

theorem Balances.enter (h : e.Balances g x) (t : ThreadState) (c : HostCall) (now : Nanos) :
    (e.carry c.correlation (Setting.enter t (e.entry c.correlation) (e.ids.allocated + 1) c
      now).2).Balances g x := by
  have owned := h.owned c.correlation
  have size := Std.ExtTreeMap.size_insert (t := e.registry.identities) (k := c.correlation)
    (v := t.identityOf (e.ids.allocated + 1))
  rw [Std.ExtTreeMap.contains_eq_isSome_getElem?] at size
  refine ⟨h.filter, ?_, ?_, ?_, h.exits, h.missing, h.told, h.looked, h.orphans, fun id => ?_⟩
  · change e.ids.allocated + 1 = e.calls.enters + 1 + e.calls.untrackedSpans
    rw [h.spans]
    omega
  · change e.registry.counts.registered + 1 = e.calls.enters + 1
    rw [h.registered]
  · change e.calls.enters + 1 = e.registry.counts.overwritten +
      (if (e.registry.owners[c.correlation]?).isSome then 1 else 0) + e.registry.counts.closed +
      (e.registry.identities.insert c.correlation (t.identityOf (e.ids.allocated + 1))).size +
      x.discarded
    have opened := h.opened
    unfold Registry.size at opened
    rw [size, owned]
    split
    · omega
    · omega
  · change (e.registry.owners.insert c.correlation _)[id]?.isSome =
      (e.registry.identities.insert c.correlation _)[id]?.isSome
    rw [Std.ExtTreeMap.getElem?_insert, Std.ExtTreeMap.getElem?_insert]
    split
    · rfl
    · exact h.owned id

/-- The caller of an exit is told that its call was left or that it ends too early, or else the
exit is counted as one without a record. -/
theorem ending_told (t : ThreadState) (entry : Entry) (c : HostCall) (now : Nanos) :
    let x := Setting.ending t entry c now
    x.calls.enters = 0 ∧ x.calls.untrackedSpans = 0 ∧ x.calls.exits = 1 ∧
      (Receipts.ofOutcome .correlated x.outcome).exited + x.calls.missingRecords +
        (Receipts.ofOutcome .correlated x.outcome).anomalies = 1 ∧
      (entry.identity = none → x.calls.missingRecords = 1) := by
  have innermost : ∀ x, x = Setting.endInnermost t now → x.outcome = .missingRecord ∧
      x.calls = { exits := 1, missingRecords := 1 } := by
    rintro _ rfl
    unfold Setting.endInnermost
    cases t.popTop? <;> exact ⟨rfl, rfl⟩
  unfold Setting.ending
  dsimp only
  split
  · obtain ⟨outcome, calls⟩ := innermost _ rfl
    rw [outcome, calls]
    exact ⟨rfl, rfl, rfl, rfl, fun _ => rfl⟩
  · rename_i found
    have registered : entry.identity ≠ none := by
      intro none
      rw [none] at found
      cases found
    unfold Setting.endRegistered
    dsimp only
    split
    · exact ⟨rfl, rfl, rfl, rfl, fun none => absurd none registered⟩
    · exact ⟨rfl, rfl, rfl, rfl, fun none => absurd none registered⟩

theorem Balances.exit (h : e.Balances g x) (t : ThreadState) (c : HostCall) (now : Nanos) :
    let y := Setting.exit t (e.entry c.correlation) c now
    (e.carry c.correlation y.2).Balances g (x.add (.ofOutcome .correlated y.1)) := by
  intro y
  let ending := Setting.ending t (e.entry c.correlation) c now
  let registered := (e.registry.identities[c.correlation]?).isSome
  obtain ⟨enters, untracked, exits, told, missing⟩ :=
    ending_told t (e.entry c.correlation) c now
  have size : (e.registry.identities.erase c.correlation).size + (if registered then 1 else 0) =
      e.registry.identities.size := by
    have erased := size_erase_add e.registry.identities c.correlation
    rwa [Std.ExtTreeMap.contains_eq_isSome_getElem?] at erased
  have counted : e.registry.counts.add y.2.counts.registry = { e.registry.counts with
      closed := e.registry.counts.closed + if registered then 1 else 0
      missingOnClose := e.registry.counts.missingOnClose + if registered then 0 else 1 } := by
    change e.registry.counts.add (if registered then _ else _) = _
    split <;> rfl
  have books : e.carry c.correlation y.2 = { e with
      registry := Registry.mk (e.registry.owners.erase c.correlation)
        (e.registry.identities.erase c.correlation) (e.registry.counts.add y.2.counts.registry)
      calls := e.calls.add ending.calls } := rfl
  obtain ⟨looked, discarded⟩ := Receipts.ofOutcome_rest .correlated y.1
  rw [counted] at books
  rw [books]
  refine ⟨h.filter, ?_, ?_, ?_, ?_, ?_, ?_, ?_, h.orphans, fun id => ?_⟩
  · change e.ids.allocated = e.calls.enters + ending.calls.enters +
      (e.calls.untrackedSpans + ending.calls.untrackedSpans)
    rw [enters, untracked]
    exact h.spans
  · change e.registry.counts.registered = e.calls.enters + ending.calls.enters
    rw [enters]
    exact h.registered
  · change e.calls.enters + ending.calls.enters = e.registry.counts.overwritten +
      (e.registry.counts.closed + if registered then 1 else 0) +
      (e.registry.identities.erase c.correlation).size +
      (x.discarded + (Receipts.ofOutcome .correlated y.1).discarded)
    have opened := h.opened
    unfold Registry.size at opened
    rw [enters, discarded]
    omega
  · change e.registry.counts.closed + (if registered then 1 else 0) +
      (e.registry.counts.missingOnClose + if registered then 0 else 1) =
      e.calls.exits + ending.calls.exits
    have closed := h.exits
    rw [exits]
    split <;> omega
  · change e.registry.counts.missingOnClose + (if registered then 0 else 1) ≤
      e.calls.missingRecords + ending.calls.missingRecords
    have fewer := h.missing
    by_cases held : registered = true
    · rw [if_pos held]
      omega
    · rw [if_neg held, missing (Option.not_isSome_iff_eq_none.mp held)]
      omega
  · change x.exited + (Receipts.ofOutcome .correlated ending.outcome).exited +
      (e.calls.missingRecords + ending.calls.missingRecords) +
      (x.anomalies + (Receipts.ofOutcome .correlated ending.outcome).anomalies) =
      e.calls.exits + ending.calls.exits
    have before := h.told
    have one : (Receipts.ofOutcome .correlated ending.outcome).exited +
      ending.calls.missingRecords + (Receipts.ofOutcome .correlated ending.outcome).anomalies =
      ending.calls.exits := told.trans exits.symm
    omega
  · change e.registry.counts.lookups = x.looked + (Receipts.ofOutcome .correlated y.1).looked
    rw [looked]
    exact h.looked
  · change (e.registry.owners.erase c.correlation)[id]?.isSome =
      (e.registry.identities.erase c.correlation)[id]?.isSome
    rw [Std.ExtTreeMap.getElem?_erase, Std.ExtTreeMap.getElem?_erase]
    split
    · rfl
    · exact h.owned id

theorem Balances.exitUntracked (h : e.Balances g x) (k : Setting) (t : ThreadState) (c : HostCall)
    (now : Nanos) :
    let y := k.exitUntracked t (e.ids.allocated + 1) c now
    (e.carry c.correlation y.2).Balances g (x.add (.ofOutcome .untracked y.1)) := by
  unfold Setting.exitUntracked
  cases t.popUntracked? with
  | none => exact h
  | some began =>
    dsimp only
    generalize (if c.name = shutdownCall then began.1 else now) = endsAt
    split
    · exact ⟨h.filter, h.spans, h.registered, h.opened, h.exits, h.missing, h.told, h.looked,
        h.orphans, h.owned⟩
    · refine ⟨h.filter, ?_, h.registered, h.opened, h.exits, h.missing, h.told, h.looked,
        h.orphans, h.owned⟩
      have spans := h.spans
      change e.ids.allocated + 1 = e.calls.enters + (e.calls.untrackedSpans + 1)
      omega

/-- A call on the host, and what its caller is told of it. -/
theorem Balances.onCall (h : e.Balances g x) (t : ThreadState) (c : HostCall) (now : Nanos) :
    let y := e.onCall t c now
    y.2.2.Balances g (x.add (.ofOutcome c.domain y.1)) := by
  intro y
  have decided : (e.carry c.correlation (e.setting.call t (e.entry c.correlation)
      (e.ids.allocated + 1) c now).2).Balances g (x.add (.ofOutcome c.domain (e.setting.call t
      (e.entry c.correlation) (e.ids.allocated + 1) c now).1)) := by
    unfold Setting.call
    split
    · exact ⟨h.filter, h.spans, h.registered, h.opened, h.exits, h.missing, h.told, h.looked,
        h.orphans, h.owned⟩
    · split
      · rename_i domain _
        rw [domain]
        exact h.enter t c now
      · rename_i domain _
        rw [domain]
        exact h.exit t c now
      · exact h
      · rename_i domain _
        rw [domain]
        exact h.exitUntracked e.setting t c now
  have done : y = _ := e.onCall_decided t c now
  rw [done]
  exact decided.actAll _

/-! ## Batches -/

theorem askOffset_current (e : Engine) (clocks : Clocks) :
    (e.askOffset clocks).1 = (e.askOffset clocks).2.skew.current := by
  unfold askOffset Skew.ask
  cases e.skew.measured with
  | some known => rfl
  | none =>
    dsimp only
    split <;> rfl

theorem askOffset_measured {e : Engine} (measured : e.skew.measured.isSome = true)
    (clocks : Clocks) : e.askOffset clocks = (e.skew.current, e) := by
  obtain ⟨known, found⟩ := Option.isSome_iff_exists.mp measured
  have asked : e.skew.ask clocks = { offset := e.skew.current, skew := e.skew } := by
    unfold Skew.ask
    rw [found]
  unfold askOffset
  rw [asked]
  simp

/-- Completions that were taken were looked up, and each orphan among them was a miss. -/
structure Looks (looked orphans : Nat) (e e' : Engine) : Prop where
  activityFilter : e'.activityFilter = e.activityFilter
  skew : e'.skew = e.skew
  ids : e'.ids = e.ids
  calls : e'.calls = e.calls
  drains : e'.drains = e.drains
  registry : ∃ missed, orphans ≤ missed ∧ e'.registry = { e.registry with
    counts := e.registry.counts.add { lookups := looked, lookupMisses := missed } }

theorem Looks.refl (e : Engine) : e.Looks 0 0 e := ⟨rfl, rfl, rfl, rfl, rfl, 0, le_refl 0, rfl⟩

theorem Looks.trans {e' e'' : Engine} {looked looked' orphans orphans' : Nat}
    (h : e.Looks looked orphans e') (h' : e'.Looks looked' orphans' e'') :
    e.Looks (looked + looked') (orphans + orphans') e'' := by
  obtain ⟨missed, few, registry⟩ := h.registry
  obtain ⟨missed', few', registry'⟩ := h'.registry
  refine ⟨h'.activityFilter.trans h.activityFilter, h'.skew.trans h.skew, h'.ids.trans h.ids,
    h'.calls.trans h.calls, h'.drains.trans h.drains, missed + missed', Nat.add_le_add few few', ?_⟩
  rw [registry', registry]
  simp only [RegistryCounts.add, Nat.add_assoc, Nat.add_zero]

/-- Nothing is registered, no id is handed out and no call is counted, whatever comes of it. -/
theorem completion_looked (k : Setting) (t : ThreadState) (entry : Entry) (c : Completion) :
    let y := k.completion t entry c
    y.2.record = none ∧ y.2.draws = false ∧ y.2.counts.calls = {} ∧
      ∃ missed, (({} : DrainReport).add y.1).orphans ≤ missed ∧ y.2.counts.registry =
        { lookups := if c.isLooked k.activityFilter then 1 else 0, lookupMisses := missed } := by
  unfold Setting.completion Completion.isLooked
  cases c.op? with
  | none => exact ⟨rfl, rfl, rfl, 0, le_refl 0, rfl⟩
  | some op =>
    dsimp only [Option.any_some]
    by_cases accepts : k.activityFilter.accepts op.name = true
    · simp only [accepts, Bool.not_true, Bool.false_eq_true, ↓reduceIte]
      split
      · exact ⟨rfl, rfl, rfl, _, Nat.zero_le _, rfl⟩
      · refine ⟨rfl, rfl, rfl, _, ?_, rfl⟩
        cases entry.record? <;> exact le_refl _
    · simp only [accepts, Bool.not_false, Bool.false_eq_true, ↓reduceIte]
      exact ⟨trivial, trivial, trivial, 0, le_refl 0, rfl⟩

theorem looks_drainOne (e : Engine) (t : ThreadState) (c : Completion) :
    let y := e.drainOne t e.skew.current c
    e.Looks (if c.isLooked e.activityFilter then 1 else 0) (({} : DrainReport).add y.1).orphans
      y.2.2 := by
  intro y
  have decided : y = _ := e.drainOne_decided t c
  let m := (e.setting.completion t (e.entry c.correlation) c).2
  obtain ⟨registry, ids, calls, setting, skew⟩ := (e.carry c.correlation m).books_actAll m.deeds
  obtain ⟨record, draws, counted, missed, few, looked⟩ :=
    completion_looked e.setting t (e.entry c.correlation) c
  have carried : e.carry c.correlation m = { e with registry := { e.registry with
      counts := e.registry.counts.add {
        lookups := if c.isLooked e.activityFilter then 1 else 0
        lookupMisses := missed } } } := by
    unfold carry
    rw [record, draws, counted, looked]
    rfl
  rw [carried] at registry ids calls skew setting
  rw [decided]
  refine ⟨?_, ?_, ?_, ?_, ?_, missed, few, ?_⟩
  all_goals
    dsimp only
    rw [carried]
  · exact congrArg Setting.activityFilter setting
  · exact skew
  · exact ids
  · exact calls
  · exact drains_actAll _ m.deeds
  · exact registry

theorem looks_drainEach (e : Engine) (cs : List Completion) (t : ThreadState)
    (report : DrainReport) : ∃ orphans,
    let y := drainEach e.skew.current cs (report, t, e)
    y.1.orphans = report.orphans + orphans ∧
      e.Looks (cs.countP (·.isLooked e.activityFilter)) orphans y.2.2 := by
  induction cs generalizing e t report with
  | nil => exact ⟨0, rfl, .refl e⟩
  | cons c cs ih =>
    have first := e.looks_drainOne t c
    let y := e.drainOne t e.skew.current c
    obtain ⟨orphans, reported, rest⟩ := ih y.2.2 y.2.1 (report.add y.1)
    have unfolded : drainEach e.skew.current (c :: cs) (report, t, e) =
      drainEach e.skew.current cs (report.add y.1, y.2.1, y.2.2) := rfl
    rw [first.skew, first.activityFilter] at rest
    rw [first.skew] at reported
    have added : (report.add y.1).orphans =
        report.orphans + (({} : DrainReport).add y.1).orphans := by
      cases y.1 <;> simp [DrainReport.add]
    refine ⟨(({} : DrainReport).add y.1).orphans + orphans, ?_, ?_⟩
    · rw [unfolded, reported, added, Nat.add_assoc]
    · rw [unfolded, List.countP_cons, Nat.add_comm]
      exact first.trans rest

theorem Balances.looks (h : e.Balances g x) {e' : Engine} {looked orphans : Nat}
    (looks : e.Looks looked orphans e') {drains : DrainCounts}
    (counted : drains.orphans = e'.drains.orphans + orphans) :
    { e' with drains }.Balances g (x.add { looked }) := by
  obtain ⟨missed, few, registry⟩ := looks.registry
  rw [looks.drains] at counted
  let counts := e.registry.counts.add { lookups := looked, lookupMisses := missed }
  have base : { e with registry := { e.registry with counts }, drains }.Balances g
      (x.add { looked }) := by
    refine ⟨h.filter, h.spans, h.registered, h.opened, h.exits, h.missing, h.told, ?_, ?_,
      h.owned⟩
    · exact congrArg (· + looked) h.looked
    · change drains.orphans ≤ e.registry.counts.lookupMisses + missed
      rw [counted]
      exact Nat.add_le_add h.orphans few
  exact base.of_books looks.activityFilter registry looks.ids looks.calls rfl

theorem Balances.drain (h : e.Balances g x) (clocks : Clocks) (t : ThreadState)
    (cs : List Completion) : (e.drain clocks t cs).2.2.Balances g
      (x.add { looked := cs.countP (·.isLooked g) }) := by
  let asked := (e.askOffset clocks).2
  have before : asked.Balances g x := h.of_books rfl rfl rfl rfl rfl
  have filter : asked.activityFilter = g := h.filter
  obtain ⟨orphans, reported, looks⟩ := asked.looks_drainEach cs t {}
  rw [← e.askOffset_current clocks] at reported looks
  rw [filter] at looks
  exact before.looks looks (congrArg (_ + ·) (reported.trans (Nat.zero_add orphans)))

theorem Balances.drainUntracked (h : e.Balances g x) (clocks : Clocks) (thread : ThreadId)
    (cs : List Completion) : (e.drainUntracked clocks thread cs).2.Balances g x := by
  have asked : (e.askOffset clocks).2.Balances g x := h.of_books rfl rfl rfl rfl rfl
  have drained : ∀ (cs : List Completion) (report : DrainReport) (e' : Engine), e'.Balances g x →
      (drainEachUntracked thread (e.askOffset clocks).1 cs (report, e')).2.Balances g x := by
    intro cs
    induction cs with
    | nil => exact fun _ _ h => h
    | cons c cs ih =>
      intro report e' h
      have first : (e'.drainOneUntracked thread (e.askOffset clocks).1 c).2.Balances g x := by
        unfold drainOneUntracked
        split
        · exact h
        · dsimp only
          split
          · exact h
          · split
            · exact h
            · exact h.of_books rfl rfl rfl rfl rfl
      exact ih _ _ first
  exact (drained cs {} _ asked).of_books rfl rfl rfl rfl rfl

/-! ## The end -/

theorem Balances.size_owners (h : e.Balances g x) :
    e.registry.owners.toList.length = e.registry.size := by
  have same : e.registry.owners.keys.Perm e.registry.identities.keys := by
    refine (List.perm_ext_iff_of_nodup Std.ExtTreeMap.nodup_keys Std.ExtTreeMap.nodup_keys).mpr ?_
    intro id
    rw [Std.ExtTreeMap.mem_keys, Std.ExtTreeMap.mem_keys, Std.ExtTreeMap.mem_iff_isSome_getElem?,
      Std.ExtTreeMap.mem_iff_isSome_getElem?, h.owned]
  have length := same.length_eq
  rw [Std.ExtTreeMap.length_keys, Std.ExtTreeMap.length_keys] at length
  rw [Std.ExtTreeMap.length_toList]
  exact length

theorem Balances.stopWork (h : e.Balances g x) :
    { e with registry := e.registry.drain.2 }.stopWork.Balances g
      (x.add { discarded := e.registry.owners.toList.length }) := by
  refine ⟨h.filter, h.spans, h.registered, ?_, h.exits, h.missing, h.told, h.looked, h.orphans,
    fun id => ?_⟩
  · have opened := h.opened
    change e.calls.enters = e.registry.counts.overwritten + e.registry.counts.closed +
      (∅ : Std.ExtTreeMap CorrelationId Identity).size +
      (x.discarded + e.registry.owners.toList.length)
    rw [h.size_owners, Std.ExtTreeMap.size_empty]
    omega
  · change (∅ : Std.ExtTreeMap CorrelationId (String × ThreadId))[id]?.isSome =
      (∅ : Std.ExtTreeMap CorrelationId Identity)[id]?.isSome
    rw [Std.ExtTreeMap.getElem?_empty, Std.ExtTreeMap.getElem?_empty]
    rfl

end Engine

end SpanWeave
