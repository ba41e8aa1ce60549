import Mathlib.Algebra.GroupWithZero.Nat
import Mathlib.Logic.Function.Basic
import SpanWeave.Proofs.Lists
import SpanWeave.Registry

set_option autoImplicit false

/-!
# One map

The registry keeps names with threads in one table and identities in another. To whatever it is
asked, and in whatever order, it replies as one map from ids to whole records would, and what it
counts balances.
-/
namespace SpanWeave

theorem size_insert_add {β : Type} (t : Std.ExtTreeMap CorrelationId β) (id : CorrelationId)
    (b : β) : (t.insert id b).size + (if t.contains id then 1 else 0) = t.size + 1 := by
  rw [Std.ExtTreeMap.size_insert]
  by_cases held : t.contains id = true
  · rw [if_pos held, if_pos held]
  · rw [if_neg held, if_neg held, Nat.add_zero]

theorem size_erase_add {β : Type} (t : Std.ExtTreeMap CorrelationId β) (id : CorrelationId) :
    (t.erase id).size + (if t.contains id then 1 else 0) = t.size := by
  rw [Std.ExtTreeMap.size_erase]
  by_cases held : t.contains id = true
  · rw [if_pos held, if_pos held]
    have nonempty : t.size ≠ 0 := by
      intro zero
      rw [Std.ExtTreeMap.eq_empty_iff_size_eq_zero.mpr zero, Std.ExtTreeMap.contains_empty] at held
      cases held
    omega
  · rw [if_neg held, if_neg held, Nat.add_zero]

namespace Registry

/-! ## What the tables hold -/

def Holds (r : Registry) (f : CorrelationId → Option CallRecord) : Prop :=
  ∀ id, r.owners[id]? = (f id).map (fun record => (record.name, record.thread)) ∧
    r.identities[id]? = (f id).map (·.identity)

namespace Holds
variable {r r' : Registry} {f : CorrelationId → Option CallRecord}

theorem empty : ({} : Registry).Holds fun _ => none :=
  fun _ => ⟨Std.ExtTreeMap.getElem?_empty, Std.ExtTreeMap.getElem?_empty⟩

theorem of_eq (h : r.Holds f) (owners : r'.owners = r.owners)
    (identities : r'.identities = r.identities) : r'.Holds f := by
  intro id
  rw [owners, identities]
  exact h id

theorem register (h : r.Holds f) (id : CorrelationId) (record : CallRecord) :
    (r.register id record).Holds (Function.update f id (some record)) := by
  intro other
  unfold Registry.register
  rw [Std.ExtTreeMap.getElem?_insert, Std.ExtTreeMap.getElem?_insert]
  by_cases same : id = other
  · subst same
    simp only [Std.ReflCmp.compare_self, ↓reduceIte, Function.update_self, Option.map_some,
      and_self]
  · simp only [Std.LawfulEqCmp.compare_eq_iff_eq, same, ↓reduceIte,
      Function.update_of_ne (Ne.symm same)]
    exact h other

theorem close (h : r.Holds f) (id : CorrelationId) :
    (r.close id).2.Holds (Function.update f id none) := by
  intro other
  unfold Registry.close
  rw [Std.ExtTreeMap.getElem?_erase, Std.ExtTreeMap.getElem?_erase]
  by_cases same : id = other
  · subst same
    simp only [Std.ReflCmp.compare_self, ↓reduceIte, Function.update_self, Option.map_none,
      and_self]
  · simp only [Std.LawfulEqCmp.compare_eq_iff_eq, same, ↓reduceIte,
      Function.update_of_ne (Ne.symm same)]
    exact h other

theorem lookupRecord (h : r.Holds f) (id : CorrelationId) : (r.lookupRecord? id).1 = f id := by
  rw [Registry.fst_lookupRecord?, (h id).1, (h id).2]
  cases f id <;> rfl

end Holds

/-! ## Requests -/

inductive Request where
  | register (id : CorrelationId) (record : CallRecord)
  | lookup (id : CorrelationId)
  | lookupRecord (id : CorrelationId)
  | close (id : CorrelationId)
  | drain

inductive Reply where
  | done
  | identity (identity : Identity) (found : Bool)
  | record (record : Option CallRecord)
  | closed (identity : Identity)
  | drained (records : List (CorrelationId × CallRecord))

def ask (r : Registry) : Request → Reply × Registry
  | .register id record => (.done, r.register id record)
  | .lookup id => (.identity (r.lookup id).1.1 (r.lookup id).1.2, (r.lookup id).2)
  | .lookupRecord id => (.record (r.lookupRecord? id).1, (r.lookupRecord? id).2)
  | .close id => (.closed (r.close id).1, (r.close id).2)
  | .drain => (.drained r.drain.1, r.drain.2)

end Registry

abbrev CallMap := Std.ExtTreeMap CorrelationId CallRecord

namespace CallMap

def identity (m : CallMap) (id : CorrelationId) : Identity :=
  (m[id]?.map (·.identity)).getD Identity.degraded

def ask (m : CallMap) : Registry.Request → Registry.Reply × CallMap
  | .register id record => (.done, m.insert id record)
  | .lookup id => (.identity (m.identity id) (m.contains id), m)
  | .lookupRecord id => (.record m[id]?, m)
  | .close id => (.closed (m.identity id), m.erase id)
  | .drain => (.drained m.toList, ∅)

theorem getElem?_insert_eq_update (m : CallMap) (id : CorrelationId) (record : CallRecord) :
    (fun other => (m.insert id record)[other]?) =
      Function.update (fun other => m[other]?) id (some record) := by
  funext other
  rw [Std.ExtTreeMap.getElem?_insert, Function.update_apply]
  simp only [Std.LawfulEqCmp.compare_eq_iff_eq, @eq_comm _ other]

theorem getElem?_erase_eq_update (m : CallMap) (id : CorrelationId) :
    (fun other => (m.erase id)[other]?) = Function.update (fun other => m[other]?) id none := by
  funext other
  rw [Std.ExtTreeMap.getElem?_erase, Function.update_apply]
  simp only [Std.LawfulEqCmp.compare_eq_iff_eq, @eq_comm _ other]

end CallMap

namespace Registry

def Splits (r : Registry) (m : CallMap) : Prop := r.Holds fun id => m[id]?

namespace Splits
variable {r : Registry} {m : CallMap}

theorem owner (h : r.Splits m) (id : CorrelationId) :
    r.owners[id]? = m[id]?.map fun record => (record.name, record.thread) := (h id).1

theorem identity (h : r.Splits m) (id : CorrelationId) :
    r.identities[id]? = m[id]?.map (·.identity) := (h id).2

theorem owners (h : r.Splits m) :
    r.owners = m.map fun _ record => (record.name, record.thread) := by
  refine Std.ExtTreeMap.ext_getElem? fun id => ?_
  rw [Std.ExtTreeMap.getElem?_map]
  exact h.owner id

theorem identities (h : r.Splits m) : r.identities = m.map fun _ record => record.identity := by
  refine Std.ExtTreeMap.ext_getElem? fun id => ?_
  rw [Std.ExtTreeMap.getElem?_map]
  exact h.identity id

theorem contains_owners (h : r.Splits m) (id : CorrelationId) :
    r.owners.contains id = m.contains id := by
  rw [h.owners, Std.ExtTreeMap.contains_map]

theorem contains_identities (h : r.Splits m) (id : CorrelationId) :
    r.identities.contains id = m.contains id := by
  rw [h.identities, Std.ExtTreeMap.contains_map]

theorem size (h : r.Splits m) : r.size = m.size := by
  rw [Registry.size, h.identities, Std.ExtTreeMap.size_map]

theorem fst_lookup (h : r.Splits m) (id : CorrelationId) :
    (r.lookup id).1 = (m.identity id, m.contains id) := by
  rw [lookup, h.identity, CallMap.identity, Std.ExtTreeMap.contains_eq_isSome_getElem?]
  cases m[id]? <;> rfl

theorem fst_drain (h : r.Splits m) : r.drain.1 = m.toList := by
  unfold drain
  rw [h.owners, Std.ExtTreeMap.toList_map, List.map_map]
  refine (List.map_congr_left fun entry member => ?_).trans (List.map_id _)
  obtain ⟨id, record⟩ := entry
  have held : m[id]? = some record := Std.ExtTreeMap.mem_toList_iff_getElem?_eq_some.mp member
  change (id, CallRecord.mk record.name record.thread _) = _
  rw [Std.ExtTreeMap.getD_eq_getD_getElem?, h.identity, held]
  rfl

/-- One request to both: the replies are the same, and the tables are still those of the map. -/
theorem ask (h : r.Splits m) (request : Request) :
    (r.ask request).1 = (m.ask request).1 ∧ (r.ask request).2.Splits (m.ask request).2 := by
  cases request with
  | register id record =>
    have registered := h.register id record
    rw [← CallMap.getElem?_insert_eq_update] at registered
    exact ⟨rfl, registered⟩
  | lookup id =>
    have kept : (r.lookup id).2.Splits m := by
      unfold lookup
      split <;> exact h
    refine ⟨?_, kept⟩
    rw [Registry.ask, h.fst_lookup]
    rfl
  | lookupRecord id =>
    have kept : (r.lookupRecord? id).2.Splits m := by
      unfold lookupRecord?
      split <;> exact h
    exact ⟨congrArg Reply.record (h.lookupRecord id), kept⟩
  | close id =>
    have closed := h.close id
    rw [← CallMap.getElem?_erase_eq_update] at closed
    refine ⟨?_, closed⟩
    rw [Registry.ask, fst_close, h.identity]
    rfl
  | drain => exact ⟨congrArg Reply.drained h.fst_drain, Holds.empty⟩

end Splits

/-! ## Counts -/

def Request.isClose : Request → Bool
  | .close _ => true
  | _ => false

def Reply.isMiss : Reply → Bool
  | .identity _ found => !found
  | .record found => found.isNone
  | _ => false

def Reply.taken : Reply → Nat
  | .drained records => records.length
  | _ => 0

/-- The counts against the requests and the replies to them. -/
structure Balanced (r : Registry) (requests : List Request) (replies : List Reply) : Prop where
  opened : r.counts.registered =
    r.counts.overwritten + r.counts.closed + (replies.map (·.taken)).sum + r.size
  closes : r.counts.closed + r.counts.missingOnClose = requests.countP (·.isClose)
  misses : r.counts.lookupMisses = replies.countP (·.isMiss)

namespace Balanced
variable {r : Registry} {m : CallMap} {past : List Request} {replies : List Reply}

/-- What one request adds on both sides. -/
theorem step (h : r.Balanced past replies) {r' : Registry} {request : Request} {reply : Reply}
    (opened : r'.counts.registered + r.counts.overwritten + r.counts.closed + r.size =
      r.counts.registered + r'.counts.overwritten + r'.counts.closed + reply.taken + r'.size)
    (closes : r'.counts.closed + r'.counts.missingOnClose =
      r.counts.closed + r.counts.missingOnClose + if request.isClose then 1 else 0)
    (misses : r'.counts.lookupMisses = r.counts.lookupMisses + if reply.isMiss then 1 else 0) :
    r'.Balanced (past ++ [request]) (replies ++ [reply]) where
  opened := by
    have before := h.opened
    rw [List.map_append, List.sum_append, List.map_singleton, List.sum_singleton]
    omega
  closes := by rw [closes, h.closes, List.countP_append, List.countP_singleton]
  misses := by rw [misses, h.misses, List.countP_append, List.countP_singleton]

theorem ask (h : r.Balanced past replies) (splits : r.Splits m) (request : Request) :
    (r.ask request).2.Balanced (past ++ [request]) (replies ++ [(r.ask request).1]) := by
  cases request with
  | register id record =>
    have added := size_insert_add r.identities id record.identity
    rw [splits.contains_identities, ← splits.contains_owners] at added
    refine h.step ?_ rfl rfl
    change r.counts.registered + 1 + r.counts.overwritten + r.counts.closed + r.identities.size =
      r.counts.registered + (r.counts.overwritten + if r.owners.contains id then 1 else 0) +
        r.counts.closed + 0 + (r.identities.insert id record.identity).size
    omega
  | lookup id =>
    rw [Registry.ask, lookup]
    split
    · exact h.step rfl rfl rfl
    · exact h.step rfl rfl rfl
  | lookupRecord id =>
    rw [Registry.ask, lookupRecord?]
    split
    · exact h.step rfl rfl rfl
    · exact h.step rfl rfl rfl
  | close id =>
    have removed := size_erase_add r.identities id
    rw [Std.ExtTreeMap.contains_eq_isSome_getElem?] at removed
    rw [Registry.ask, close]
    cases held : r.identities[id]? with
    | some identity =>
      rw [held] at removed
      refine h.step ?_ (Nat.add_right_comm _ _ _) rfl
      change r.counts.registered + r.counts.overwritten + r.counts.closed + r.identities.size =
        r.counts.registered + r.counts.overwritten + (r.counts.closed + 1) + 0 +
          (r.identities.erase id).size
      rw [← removed, Option.isSome_some, if_pos rfl]
      omega
    | none =>
      rw [held] at removed
      refine h.step ?_ rfl rfl
      change _ = r.counts.registered + r.counts.overwritten + r.counts.closed + 0 +
        (r.identities.erase id).size
      rw [Registry.size, ← removed]
      rfl
  | drain =>
    refine h.step ?_ rfl rfl
    change _ = r.counts.registered + r.counts.overwritten + r.counts.closed + r.drain.1.length +
      (∅ : Std.ExtTreeMap CorrelationId Identity).size
    rw [splits.fst_drain, splits.size, Std.ExtTreeMap.length_toList, Std.ExtTreeMap.size_empty]
    rfl

end Balanced

/-! ## Refinement -/

theorem drained_ordered {m : CallMap} {request : Request}
    {records : List (CorrelationId × CallRecord)} (h : (m.ask request).1 = .drained records) :
    records.Pairwise fun a b => a.1 < b.1 := by
  cases request with
  | drain =>
    cases h
    exact Std.ExtTreeMap.ordered_keys_toList.imp Std.compare_eq_lt.mp
  | register | lookup | lookupRecord | close => cases h

/-- How a registry stands to one map after the requests. -/
structure Refines (requests : List Request) (replies : List Reply) (r : Registry) : Prop where
  same : replies = (dialogue CallMap.ask ∅ requests).1
  splits : r.Splits (dialogue CallMap.ask ∅ requests).2
  balanced : r.Balanced requests replies
  ordered : ∀ records, .drained records ∈ replies → records.Pairwise fun a b => a.1 < b.1

theorem Refines.start : Refines [] [] {} where
  same := rfl
  splits := Holds.empty
  balanced := ⟨rfl, rfl, rfl⟩
  ordered _ none := absurd none List.not_mem_nil

theorem Refines.ask {past : List Request} {replies : List Reply} {r : Registry}
    (h : Refines past replies r) (request : Request) :
    Refines (past ++ [request]) (replies ++ [(r.ask request).1]) (r.ask request).2 := by
  obtain ⟨same, splits⟩ := h.splits.ask request
  refine ⟨?_, ?_, h.balanced.ask h.splits request, fun records told => ?_⟩
  · rw [dialogue_concat, ← h.same, same]
  · rw [dialogue_concat]
    exact splits
  · rcases List.mem_append.mp told with before | now
    · exact h.ordered records before
    · rw [List.mem_singleton, same] at now
      exact drained_ordered now.symm

/-- Whatever a registry is asked, it replies as one map would, of which its tables hold the names
with threads and the identities, and its counts balance. -/
theorem replies_as_oneMap (requests : List Request) :
    let told := dialogue ask {} requests
    let expected := dialogue CallMap.ask ∅ requests
    told.1 = expected.1 ∧
      told.2.owners = expected.2.map (fun _ record => (record.name, record.thread)) ∧
      told.2.identities = expected.2.map (fun _ record => record.identity) ∧
      (∀ id, id ∈ told.2.owners ↔ id ∈ told.2.identities) ∧
      told.2.size = expected.2.size ∧ told.2.Balanced requests told.1 ∧
      ∀ records, .drained records ∈ told.1 → records.Pairwise fun a b => a.1 < b.1 := by
  intro told expected
  obtain ⟨same, splits, balanced, ordered⟩ : Refines requests told.1 told.2 :=
    dialogue_keeps Refines.start (fun _ _ _ request h => h.ask request) requests
  refine ⟨same, splits.owners, splits.identities, fun id => ?_, splits.size, balanced, ordered⟩
  rw [← Std.ExtTreeMap.contains_iff_mem, ← Std.ExtTreeMap.contains_iff_mem,
    splits.contains_owners, splits.contains_identities]

/-- One id is registered again while its call is open, and another one is closed without a call. -/
theorem replies_as_oneMap_of_shared_id : ∃ requests records,
    requests = [.register 5 ⟨"hipMalloc", 1, .root 1⟩, .register 3 ⟨"hipFree", 2, .root 2⟩,
      .register 5 ⟨"hipMemcpy", 2, .root 3⟩, .close 9, .drain, .lookup 5] ∧
    Reply.drained records ∈ (dialogue ask {} requests).1 ∧
    records.map (·.2.name) = ["hipFree", "hipMemcpy"] ∧
    records.Pairwise fun a b => a.1 < b.1 := by
  let requests : List Request := [.register 5 ⟨"hipMalloc", 1, .root 1⟩,
    .register 3 ⟨"hipFree", 2, .root 2⟩, .register 5 ⟨"hipMemcpy", 2, .root 3⟩, .close 9, .drain,
    .lookup 5]
  let records : List (CorrelationId × CallRecord) :=
    [(3, ⟨"hipFree", 2, .root 2⟩), (5, ⟨"hipMemcpy", 2, .root 3⟩)]
  have told : .drained records ∈ (dialogue ask {} requests).1 := List.mem_of_getElem? (i := 4) rfl
  exact ⟨requests, records, rfl, told, rfl,
    (replies_as_oneMap requests).2.2.2.2.2.2 records told⟩

end Registry

end SpanWeave
