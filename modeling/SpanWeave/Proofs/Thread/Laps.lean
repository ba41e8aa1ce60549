import Mathlib.Data.List.Dedup
import Mathlib.Data.List.Perm.Subperm
import SpanWeave.Proofs.Lists
import SpanWeave.Thread.Laps

set_option autoImplicit false

/-!
# Retention of laps

Which ids have a counter after any calls, and which lap a call gets. A bound keeps the ids that were
inserted last, however often the others were called since, and an id that is called after its
counter was dropped is inserted again and starts anew. The laps then say how often an id was called
since it was last inserted.
-/
namespace SpanWeave

namespace LapRetention

/-- The ids that keep a counter when these were inserted, oldest first. -/
def keep : LapRetention → List CorrelationId → List CorrelationId
  | .unbounded, inserted => inserted
  | .bounded entries, inserted => inserted.drop (inserted.length - entries)

/-- The ids that the calls insert, oldest first: each one that has no counter when it is called. -/
def inserted (p : LapRetention) (calls : List CorrelationId) : List CorrelationId :=
  calls.foldl (fun inserted id => if id ∈ p.keep inserted then inserted else inserted ++ [id]) []

def live (p : LapRetention) (calls : List CorrelationId) : List CorrelationId :=
  p.keep (p.inserted calls)

structure LastInserted (p : LapRetention) (calls : List CorrelationId) (id : CorrelationId)
    (start : Nat) : Prop where
  called : calls[start]? = some id
  inserts : id ∉ p.live (calls.take start)
  kept : ∀ i, start < i → calls[i]? = some id → id ∈ p.live (calls.take i)

variable {p : LapRetention} {calls : List CorrelationId} {id other : CorrelationId} {start : Nat}

theorem keep_suffix (p : LapRetention) (inserted : List CorrelationId) :
    p.keep inserted <:+ inserted := by
  cases p with
  | unbounded => exact List.suffix_rfl
  | bounded entries => exact List.drop_suffix _ _

/-- What was not kept plays no part when one more is inserted. -/
theorem keep_keep_concat (p : LapRetention) (inserted : List CorrelationId) (id : CorrelationId) :
    p.keep (p.keep inserted ++ [id]) = p.keep (inserted ++ [id]) := by
  cases p with
  | unbounded => rfl
  | bounded entries =>
    have fits : inserted.length - entries ≤ inserted.length := Nat.sub_le _ _
    rw [keep, keep, keep, ← List.drop_append_of_le_length fits, List.drop_drop]
    congr 1
    rw [List.length_drop, List.length_append, List.length_singleton]
    omega

/-! ## One more call -/

theorem inserted_concat (p : LapRetention) (calls : List CorrelationId) (id : CorrelationId) :
    p.inserted (calls ++ [id]) =
      if id ∈ p.live calls then p.inserted calls else p.inserted calls ++ [id] := by
  rw [inserted, List.foldl_append]
  rfl

theorem live_concat_of_live (h : id ∈ p.live calls) : p.live (calls ++ [id]) = p.live calls := by
  rw [live, inserted_concat, if_pos h, live]

theorem live_concat_of_absent (h : id ∉ p.live calls) :
    p.live (calls ++ [id]) = p.keep (p.live calls ++ [id]) := by
  rw [live, inserted_concat, if_neg h, live, keep_keep_concat]

theorem inserted_sublist (p : LapRetention) (calls : List CorrelationId) :
    (p.inserted calls).Sublist calls := by
  induction calls using List.reverseRecOn with
  | nil => exact List.Sublist.slnil
  | append_singleton calls id ih =>
    rw [inserted_concat]
    split
    · exact ih.trans (List.sublist_append_left calls [id])
    · exact ih.append (List.Sublist.refl [id])

theorem mem_of_live (h : id ∈ p.live calls) : id ∈ calls :=
  (p.inserted_sublist calls).subset ((p.keep_suffix _).subset h)

theorem nodup_concat {ids : List CorrelationId} (distinct : ids.Nodup) (absent : id ∉ ids) :
    (ids ++ [id]).Nodup := by
  rw [← List.concat_eq_append]
  exact distinct.concat absent

theorem nodup_live (p : LapRetention) (calls : List CorrelationId) : (p.live calls).Nodup := by
  induction calls using List.reverseRecOn with
  | nil => exact List.nodup_nil.sublist (p.keep_suffix []).sublist
  | append_singleton calls id ih =>
    by_cases known : id ∈ p.live calls
    · rwa [live_concat_of_live known]
    · rw [live_concat_of_absent known]
      exact (nodup_concat ih known).sublist (p.keep_suffix _).sublist

namespace LastInserted

theorem start_le (h : p.LastInserted (calls ++ [id]) other start) : start ≤ calls.length := by
  have inside := (List.getElem?_eq_some_iff.mp h.called).1
  rw [List.length_append, List.length_singleton] at inside
  omega

/-- An id that has a counter was last inserted before. -/
theorem start_lt (h : p.LastInserted (calls ++ [id]) id start) (known : id ∈ p.live calls) :
    start < calls.length := by
  refine Nat.lt_of_le_of_ne h.start_le fun last => h.inserts ?_
  rwa [last, List.take_left]

/-- An id without a counter is inserted by the call. -/
theorem start_eq (h : p.LastInserted (calls ++ [id]) id start) (absent : id ∉ p.live calls) :
    start = calls.length := by
  refine Nat.le_antisymm h.start_le (Nat.le_of_not_lt fun before => absent ?_)
  have kept := h.kept calls.length before List.getElem?_concat_length
  rwa [List.take_left] at kept

theorem of_concat (h : p.LastInserted (calls ++ [id]) other start) (before : start < calls.length) :
    p.LastInserted calls other start where
  called := by
    have called := h.called
    rwa [List.getElem?_append_left before] at called
  inserts := by
    have inserts := h.inserts
    rwa [List.take_append_of_le_length (Nat.le_of_lt before)] at inserts
  kept i later here := by
    have inside := (List.getElem?_eq_some_iff.mp here).1
    have kept := h.kept i later (by rwa [List.getElem?_append_left inside])
    rwa [List.take_append_of_le_length (Nat.le_of_lt inside)] at kept

/-- A call for another id changes nothing. -/
theorem of_concat_ne (h : p.LastInserted (calls ++ [id]) other start) (different : other ≠ id) :
    p.LastInserted calls other start ∧
      ((calls ++ [id]).drop start).count other = (calls.drop start).count other := by
  have before : start < calls.length := by
    refine Nat.lt_of_le_of_ne h.start_le fun last => different ?_
    have called := h.called
    rw [last, List.getElem?_concat_length] at called
    exact (Option.some.inj called).symm
  refine ⟨h.of_concat before, ?_⟩
  rw [List.drop_append_of_le_length (Nat.le_of_lt before), List.count_append,
    List.count_singleton, if_neg (fun same => different (beq_iff_eq.mp same).symm), Nat.add_zero]

theorem concat (h : p.LastInserted calls other start) (known : other = id → id ∈ p.live calls) :
    p.LastInserted (calls ++ [id]) other start := by
  have inside := (List.getElem?_eq_some_iff.mp h.called).1
  refine ⟨?_, ?_, fun i later here => ?_⟩
  · rw [List.getElem?_append_left inside]
    exact h.called
  · rw [List.take_append_of_le_length (Nat.le_of_lt inside)]
    exact h.inserts
  · rcases getElem?_concat_eq_some.mp here with before | ⟨rfl, rfl⟩
    · rw [List.take_append_of_le_length (Nat.le_of_lt (List.getElem?_eq_some_iff.mp before).1)]
      exact h.kept i later before
    · rw [List.take_left]
      exact known rfl

end LastInserted

/-- Every id that was called was inserted at some time for the last time. -/
theorem exists_lastInserted (p : LapRetention) (called : id ∈ calls) :
    ∃ start, p.LastInserted calls id start := by
  induction calls using List.reverseRecOn with
  | nil => cases called
  | append_singleton calls last ih =>
    by_cases inserts : id = last ∧ id ∉ p.live calls
    · obtain ⟨rfl, absent⟩ := inserts
      refine ⟨calls.length, List.getElem?_concat_length, by rwa [List.take_left], ?_⟩
      intro i later here
      have inside := (List.getElem?_eq_some_iff.mp here).1
      rw [List.length_append, List.length_singleton] at inside
      omega
    · have known : id = last → last ∈ p.live calls := fun same =>
        same ▸ Classical.not_not.mp fun absent => inserts ⟨same, absent⟩
      have before : id ∈ calls := by
        rcases List.mem_append.mp called with before | now
        · exact before
        · have same := List.mem_singleton.mp now
          rw [same]
          exact mem_of_live (known same)
      obtain ⟨start, h⟩ := ih before
      exact ⟨start, h.concat known⟩

/-! ## Few ids -/

/-- There are no more ids than have a counter at the same time. -/
def Spares (p : LapRetention) (calls : List CorrelationId) : Prop :=
  match p with
  | .unbounded => True
  | .bounded entries => calls.dedup.length ≤ entries

theorem Spares.keep (h : p.Spares calls) {ids : List CorrelationId} (distinct : ids.Nodup)
    (known : ids ⊆ calls) : p.keep ids = ids := by
  cases p with
  | unbounded => rfl
  | bounded entries =>
    have fewer : ids.length ≤ calls.dedup.length :=
      (distinct.subperm fun id member => List.mem_dedup.mpr (known member)).length_le
    have fits : ids.length ≤ entries := Nat.le_trans fewer h
    rw [LapRetention.keep, Nat.sub_eq_zero_of_le fits, List.drop_zero]

theorem Spares.mono (h : p.Spares calls) {fewer : List CorrelationId} (among : fewer ⊆ calls) :
    p.Spares fewer := by
  cases p with
  | unbounded => trivial
  | bounded entries =>
    refine Nat.le_trans ((List.nodup_dedup fewer).subperm fun id member => ?_).length_le h
    exact List.mem_dedup.mpr (among (List.mem_dedup.mp member))

/-- Every id is inserted once. -/
theorem Spares.inserted (h : p.Spares calls) :
    (p.inserted calls).Nodup ∧ p.live calls = p.inserted calls ∧ calls ⊆ p.inserted calls := by
  have once : (p.inserted calls).Nodup ∧ calls ⊆ p.inserted calls := by
    induction calls using List.reverseRecOn with
    | nil => exact ⟨List.nodup_nil, List.Subset.refl _⟩
    | append_singleton calls id ih =>
      have before := h.mono (List.subset_append_left calls [id])
      obtain ⟨distinct, all⟩ := ih before
      have live : p.live calls = p.inserted calls :=
        before.keep distinct (p.inserted_sublist calls).subset
      rw [inserted_concat, live]
      split
      · rename_i known
        exact ⟨distinct, List.append_subset.mpr
          ⟨all, List.cons_subset.mpr ⟨known, List.nil_subset _⟩⟩⟩
      · rename_i absent
        exact ⟨nodup_concat distinct absent, List.append_subset.mpr
          ⟨List.Subset.trans all (List.subset_append_left _ _), List.subset_append_right _ _⟩⟩
  exact ⟨once.1, h.keep once.1 (p.inserted_sublist calls).subset, once.2⟩

/-- So it was never called before it was inserted. -/
theorem LastInserted.count_drop (h : p.LastInserted calls id start) (spares : p.Spares calls) :
    (calls.drop start).count id = calls.count id := by
  have first : id ∉ calls.take start := by
    intro before
    obtain ⟨_, live, all⟩ := (spares.mono (List.take_subset start calls)).inserted
    exact h.inserts (live ▸ all before)
  have parts := congrArg (List.count id) (List.take_append_drop start calls)
  rw [List.count_append, List.count_eq_zero_of_not_mem first, Nat.zero_add] at parts
  exact parts

end LapRetention

namespace Laps

/-! ## Counters -/

/-- Dropping the oldest counters until few enough are left. -/
theorem evict_eq (entries : Nat) {order : List CorrelationId} (distinct : order.Nodup)
    {counts : Std.ExtTreeMap CorrelationId Nat} (held : ∀ id ∈ order, id ∈ counts)
    (size : counts.size = order.length) (evicted : Nat) :
    ∃ counts', evict entries order counts evicted =
        (order.drop (order.length - entries), counts', evicted + (order.length - entries)) ∧
      counts'.size = (order.drop (order.length - entries)).length ∧
      (∀ id ∈ order.take (order.length - entries), id ∉ counts') ∧
      ∀ id ∉ order.take (order.length - entries), counts'[id]? = counts[id]? := by
  induction order generalizing counts evicted with
  | nil =>
    rw [List.length_nil, Nat.zero_sub]
    exact ⟨counts, rfl, size, nofun, fun _ _ => rfl⟩
  | cons oldest order ih =>
    obtain ⟨fresh, distinct⟩ := List.nodup_cons.mp distinct
    rw [evict, size]
    by_cases many : entries < (oldest :: order).length
    · have more : (oldest :: order).length - entries = order.length - entries + 1 := by
        rw [List.length_cons] at many ⊢
        omega
      have held' : ∀ id ∈ order, id ∈ counts.erase oldest := fun id member =>
        Std.ExtTreeMap.mem_erase.mpr
          ⟨fun same => fresh (Std.LawfulEqCmp.eq_of_compare same ▸ member),
            held id (List.mem_cons_of_mem _ member)⟩
      have size' : (counts.erase oldest).size = order.length := by
        rw [Std.ExtTreeMap.size_erase,
          if_pos (Std.ExtTreeMap.contains_iff_mem.mpr (held oldest List.mem_cons_self)), size]
        rfl
      obtain ⟨counts', evict_eq, fewer, gone, kept⟩ := ih distinct held' size' (evicted + 1)
      rw [if_pos many, more, List.drop_succ_cons, List.take_succ_cons, evict_eq]
      refine ⟨counts', by rw [Nat.add_assoc, Nat.add_comm 1], fewer, fun id dropped => ?_,
        fun id other => ?_⟩
      · rcases List.mem_cons.mp dropped with rfl | later
        · intro member
          have absent : id ∉ order.take (order.length - entries) :=
            fun early => fresh (List.mem_of_mem_take early)
          rw [Std.ExtTreeMap.mem_iff_isSome_getElem?, kept id absent,
            Std.ExtTreeMap.getElem?_erase_self] at member
          cases member
        · exact gone id later
      · obtain ⟨different, absent⟩ := not_or.mp (mt List.mem_cons.mpr other)
        rw [kept id absent, Std.ExtTreeMap.getElem?_erase, if_neg fun same =>
          different (Std.LawfulEqCmp.eq_of_compare same).symm]
    · rw [if_neg many, Nat.sub_eq_zero_of_le (Nat.le_of_not_lt many)]
      exact ⟨counts, rfl, size, nofun, fun _ _ => rfl⟩

structure Tracks (p : LapRetention) (calls : List CorrelationId) (l : Laps) : Prop where
  retention : l.retention = p
  counted : ∀ id, id ∈ l.counts ↔ id ∈ p.live calls
  size : l.counts.size = (p.live calls).length
  order : ∀ entries, p = .bounded entries → l.order = p.live calls
  evicted : l.evicted + (p.live calls).length = (p.inserted calls).length
  laps : ∀ id start, p.LastInserted calls id start → id ∈ p.live calls →
    l.counts[id]? = some (min ((calls.drop start).count id) lapLimit)

namespace Tracks
variable {p : LapRetention} {calls : List CorrelationId} {l : Laps} {id : CorrelationId}

theorem start (p : LapRetention) : Tracks p [] { retention := p } := by
  have none : p.live [] = [] := List.suffix_nil.mp (p.keep_suffix [])
  refine ⟨rfl, fun id => ?_, ?_, fun _ _ => none.symm, ?_, fun id start _ member => ?_⟩
  · rw [none]
    exact ⟨fun member => absurd member Std.ExtTreeMap.not_mem_empty, nofun⟩
  · rw [none]
    exact Std.ExtTreeMap.size_empty
  · rw [none]
    rfl
  · rw [none] at member
    cases member

theorem getElem?_of_absent (h : Tracks p calls l) (absent : id ∉ p.live calls) :
    l.counts[id]? = none := by
  rw [← Option.not_isSome_iff_eq_none, ← Std.ExtTreeMap.mem_iff_isSome_getElem?, h.counted]
  exact absent

theorem lap (h : Tracks p calls l) {start : Nat}
    (inserted : p.LastInserted (calls ++ [id]) id start) :
    (l.next id).1 = min (((calls ++ [id]).drop start).count id) lapLimit := by
  unfold Laps.next
  by_cases known : id ∈ p.live calls
  · have before := inserted.start_lt known
    have counted := h.laps id start (inserted.of_concat before) known
    rw [counted, List.drop_append_of_le_length (Nat.le_of_lt before), List.count_append,
      List.count_singleton_self]
    dsimp only
    omega
  · rw [h.getElem?_of_absent known, inserted.start_eq known, List.drop_left,
      List.count_singleton_self]
    rfl

/-- An id that has a counter is counted on. -/
theorem next_of_live (h : Tracks p calls l) (known : id ∈ p.live calls) :
    Tracks p (calls ++ [id]) (l.next id).2 := by
  have live := LapRetention.live_concat_of_live known
  have member := (h.counted id).mpr known
  obtain ⟨lap, found⟩ := Option.isSome_iff_exists.mp
    (Std.ExtTreeMap.mem_iff_isSome_getElem?.mp member)
  have next : (l.next id).2 = { l with counts := l.counts.insert id (l.next id).1 } := by
    unfold Laps.next
    rw [found]
  rw [next]
  refine ⟨h.retention, fun other => ?_, ?_, fun entries bounded => ?_, ?_,
    fun other start inserted counted => ?_⟩
  · rw [live, ← h.counted, Std.ExtTreeMap.mem_insert]
    exact or_iff_right_of_imp fun same => Std.LawfulEqCmp.eq_of_compare same ▸ member
  · rw [live, ← h.size, Std.ExtTreeMap.size_insert,
      if_pos (Std.ExtTreeMap.contains_iff_mem.mpr member)]
  · rw [live]
    exact h.order entries bounded
  · rw [live, LapRetention.inserted_concat, if_pos known]
    exact h.evicted
  · rw [Std.ExtTreeMap.getElem?_insert]
    by_cases same : other = id
    · subst same
      rw [if_pos Std.ReflCmp.compare_self, h.lap inserted]
    · obtain ⟨before, count⟩ := inserted.of_concat_ne same
      rw [live] at counted
      rw [if_neg fun equal => same (Std.LawfulEqCmp.eq_of_compare equal).symm, count]
      exact h.laps other start before counted

/-- Of these ids the first ones lose their counters, and the last one has a new counter. -/
structure Renewed (p : LapRetention) (ids : List CorrelationId) (id : CorrelationId) (l l' : Laps)
    (dropped : Nat) : Prop where
  keep : p.keep ids = ids.drop dropped
  dropped_le : dropped ≤ ids.length
  retention : l'.retention = p
  evicted : l'.evicted = l.evicted + dropped
  order : ∀ entries, p = .bounded entries → l'.order = ids.drop dropped
  size : l'.counts.size = (ids.drop dropped).length
  gone : ∀ other ∈ ids.take dropped, other ∉ l'.counts
  kept : ∀ other ∉ ids.take dropped, l'.counts[other]? = (l.counts.insert id 1)[other]?

theorem mem_insert (h : Tracks p calls l) (other : CorrelationId) :
    other ∈ l.counts.insert id 1 ↔ other ∈ p.live calls ++ [id] := by
  rw [Std.ExtTreeMap.mem_insert, h.counted, List.mem_append, List.mem_singleton, or_comm,
    Std.LawfulEqCmp.compare_eq_iff_eq, @eq_comm _ id]

theorem renewed (h : Tracks p calls l) (absent : id ∉ p.live calls) :
    ∃ dropped, Renewed p (p.live calls ++ [id]) id l (l.insert id) dropped := by
  have size : (l.counts.insert id 1).size = (p.live calls ++ [id]).length := by
    rw [Std.ExtTreeMap.size_insert, if_neg fun member => absent ((h.counted id).mp
      (Std.ExtTreeMap.contains_iff_mem.mp member)), h.size, List.length_append,
      List.length_singleton]
  have retention := h.retention
  cases p with
  | unbounded =>
    have inserted : l.insert id = { l with counts := l.counts.insert id 1 } := by
      rw [Laps.insert, retention]
    rw [inserted]
    exact ⟨0, rfl, Nat.zero_le _, retention, rfl, nofun, size, nofun, fun _ _ => rfl⟩
  | bounded entries =>
    have distinct := LapRetention.nodup_concat (LapRetention.nodup_live _ calls) absent
    obtain ⟨counts, evicted, size', gone, kept⟩ := evict_eq entries distinct
      (fun other member => (h.mem_insert other).mpr member) size l.evicted
    have listed := congrArg (· ++ [id]) (h.order entries rfl)
    generalize LapRetention.live (.bounded entries) calls ++ [id] = ids at *
    have inserted : l.insert id = { l with
        counts
        order := ids.drop (ids.length - entries)
        evicted := l.evicted + (ids.length - entries) } := by
      rw [Laps.insert, retention]
      dsimp only at listed ⊢
      rw [listed, evicted]
    rw [inserted]
    exact ⟨_, rfl, Nat.sub_le _ _, retention, rfl, fun _ _ => rfl, size', gone, kept⟩

/-- An id that has no counter gets one. -/
theorem next_of_absent (h : Tracks p calls l) (absent : id ∉ p.live calls) :
    Tracks p (calls ++ [id]) (l.next id).2 := by
  have next : (l.next id).2 = l.insert id := by
    unfold Laps.next
    rw [h.getElem?_of_absent absent]
  obtain ⟨dropped, renewed⟩ := h.renewed absent
  have live := (LapRetention.live_concat_of_absent absent).trans renewed.keep
  have apart := LapRetention.nodup_concat (p.nodup_live calls) absent
  have parts := List.take_append_drop dropped (p.live calls ++ [id])
  rw [← parts] at apart
  have left : ∀ other ∈ p.live (calls ++ [id]),
      other ∉ (p.live calls ++ [id]).take dropped := by
    intro other member early
    rw [live] at member
    exact (List.nodup_append.mp apart).2.2 other early other member rfl
  rw [next]
  refine ⟨renewed.retention, fun other => ?_, live ▸ renewed.size,
    fun entries bounded => live ▸ renewed.order entries bounded, ?_,
    fun other start inserted counted => ?_⟩
  · by_cases early : other ∈ (p.live calls ++ [id]).take dropped
    · exact iff_of_false (renewed.gone other early) fun member => left other member early
    · rw [Std.ExtTreeMap.mem_iff_isSome_getElem?, renewed.kept other early,
        ← Std.ExtTreeMap.mem_iff_isSome_getElem?, h.mem_insert, ← parts, List.mem_append, ← live]
      exact or_iff_right early
  · have before := h.evicted
    have most := renewed.dropped_le
    rw [live, LapRetention.inserted_concat, if_neg absent, renewed.evicted, List.length_drop]
    simp only [List.length_append, List.length_singleton] at most ⊢
    omega
  · rw [renewed.kept other (left other counted), Std.ExtTreeMap.getElem?_insert]
    by_cases same : other = id
    · subst same
      rw [if_pos Std.ReflCmp.compare_self, inserted.start_eq absent, List.drop_left,
        List.count_singleton_self]
      rfl
    · obtain ⟨before, count⟩ := inserted.of_concat_ne same
      rw [if_neg fun equal => same (Std.LawfulEqCmp.eq_of_compare equal).symm, count]
      rw [live] at counted
      have listed := List.mem_append.mp (List.mem_of_mem_drop counted)
      exact h.laps other start before (listed.resolve_right fun now =>
        same (List.mem_singleton.mp now))

theorem next (h : Tracks p calls l) (id : CorrelationId) :
    Tracks p (calls ++ [id]) (l.next id).2 := by
  by_cases known : id ∈ p.live calls
  · exact h.next_of_live known
  · exact h.next_of_absent known

theorem live_eq_drop (h : Tracks p calls l) : p.live calls = (p.inserted calls).drop l.evicted := by
  have suffix : p.live calls = (p.inserted calls).drop _ :=
    List.suffix_iff_eq_drop.mp (p.keep_suffix _)
  rw [← h.evicted, Nat.add_sub_cancel] at suffix
  exact suffix

/-- Where no counter was ever dropped, the laps count all calls. -/
theorem lap_of_spares (h : Tracks p calls l) (id : CorrelationId)
    (spares : p.Spares (calls ++ [id])) : (l.next id).1 = min (calls.count id + 1) lapLimit := by
  obtain ⟨start, inserted⟩ := p.exists_lastInserted (List.mem_append_right calls
    (List.mem_singleton_self id))
  rw [h.lap inserted, inserted.count_drop spares, List.count_append, List.count_singleton_self]

end Tracks

theorem tracks (p : LapRetention) (calls : List CorrelationId) :
    Tracks p calls (dialogue next { retention := p } calls).2 := by
  refine dialogue_keeps (P := fun past _ l => Tracks p past l) (.start p) ?_ calls
  exact fun _ _ _ id h => h.next id

theorem laps_eq_of_spares {p q : LapRetention} {calls : List CorrelationId} (hp : p.Spares calls)
    (hq : q.Spares calls) : (dialogue next { retention := p } calls).1 =
      (dialogue next { retention := q } calls).1 := by
  induction calls using List.reverseRecOn with
  | nil => rfl
  | append_singleton calls id ih =>
    have before := List.subset_append_left calls [id]
    rw [dialogue_concat, dialogue_concat, ih (hp.mono before) (hq.mono before),
      (tracks p calls).lap_of_spares id hp, (tracks q calls).lap_of_spares id hq]

/-! ## Retention -/

/-- How counters and laps stand to the calls under a retention. -/
structure Retains (p : LapRetention) (calls : List CorrelationId) (l : Laps) : Prop where
  counted : ∀ id, id ∈ l.counts ↔ id ∈ p.live calls
  distinct : (p.live calls).Nodup
  size : l.size = (p.live calls).length
  evicted : l.evicted + l.size = (p.inserted calls).length
  /-- The ids that lost their counters are those that were inserted first. -/
  oldest : p.live calls = (p.inserted calls).drop l.evicted
  inserted : ∀ id, ∃ start, p.LastInserted (calls ++ [id]) id start
  lap : ∀ id start, p.LastInserted (calls ++ [id]) id start →
    (l.next id).1 = min (((calls ++ [id]).drop start).count id) lapLimit

theorem Tracks.retains {p : LapRetention} {calls : List CorrelationId} {l : Laps}
    (h : Tracks p calls l) : Retains p calls l where
  counted := h.counted
  distinct := p.nodup_live calls
  size := h.size
  evicted := by rw [Laps.size, h.size, h.evicted]
  oldest := h.live_eq_drop
  inserted id := p.exists_lastInserted (List.mem_append_right calls (List.mem_singleton_self id))
  lap _ _ inserted := h.lap inserted

/-- Which counters there are after any calls, and which lap every further call gets. -/
theorem laps_retained (p : LapRetention) (calls : List CorrelationId) :
    let l := (dialogue next { retention := p } calls).2
    Retains p calls l ∧
      (p = .unbounded → (p.inserted calls).Nodup ∧
        ∀ id, (l.next id).1 = min (calls.count id + 1) lapLimit) ∧
      ∀ entries, p = .bounded entries → l.size ≤ entries ∧ l.order = p.live calls ∧
        (calls.dedup.length ≤ entries → (dialogue next { retention := p } calls).1 =
          (dialogue next { retention := .unbounded } calls).1) := by
  intro l
  have h : Tracks p calls l := tracks p calls
  refine ⟨h.retains, ?_, ?_⟩
  · rintro rfl
    have spares : LapRetention.unbounded.Spares calls := trivial
    exact ⟨spares.inserted.1, fun id => h.lap_of_spares id trivial⟩
  · rintro entries rfl
    refine ⟨?_, h.order entries rfl, fun few => laps_eq_of_spares few trivial⟩
    rw [size, h.size, LapRetention.live, LapRetention.keep, List.length_drop]
    omega

/-- The first id is called again before its counter is dropped, and twice after. -/
theorem laps_retained_of_reinserted :
    (LapRetention.bounded 2).LastInserted [1, 2, 1, 3, 1, 1] 1 4 ∧
    ((dialogue next { retention := .bounded 2 } [1, 2, 1, 3, 1]).2.next 1).1 = 2 ∧
    (dialogue next { retention := .bounded 2 } [1, 2, 1, 3, 1]).2.order = [3, 1] ∧
    ((dialogue next { retention := .unbounded } [1, 2, 1, 3, 1]).2.next 1).1 = 4 ∧
    ([1, 2, 1] : List CorrelationId).dedup.length ≤ 2 ∧
    (dialogue next { retention := .bounded 2 } [1, 2, 1]).1 =
      (dialogue next { retention := .unbounded } [1, 2, 1]).1 := by
  have inserted : (LapRetention.bounded 2).LastInserted [1, 2, 1, 3, 1, 1] 1 4 := by
    refine ⟨rfl, by decide, fun i later here => ?_⟩
    obtain ⟨inside, _⟩ := List.getElem?_eq_some_iff.mp here
    have last : i = 5 := by
      change i < 6 at inside
      omega
    subst last
    decide
  have few : ([1, 2, 1] : List CorrelationId).dedup.length ≤ 2 := by decide
  obtain ⟨retains, _, bounded⟩ := laps_retained (.bounded 2) [1, 2, 1, 3, 1]
  obtain ⟨_, order, _⟩ := bounded 2 rfl
  obtain ⟨_, unbounded, _⟩ := laps_retained .unbounded [1, 2, 1, 3, 1]
  exact ⟨inserted, retains.lap 1 4 inserted, order, (unbounded rfl).2 1, few,
    ((laps_retained (.bounded 2) [1, 2, 1]).2.2 2 rfl).2.2 few⟩

end Laps

end SpanWeave
