import Std.Data.ExtTreeMap
import SpanWeave.Identity

set_option autoImplicit false

/-!
# The registry of open calls

Under the correlation id of each open call on the host: the name its device work goes by, the
thread that made it, and its identity. Names with threads and identities are two tables, since some
questions need only one of them.
-/
namespace SpanWeave

structure CallRecord where
  name : String
  thread : ThreadId
  identity : Identity
  deriving DecidableEq, Repr, Inhabited

structure RegistryCounts where
  registered : Nat := 0
  overwritten : Nat := 0
  closed : Nat := 0
  missingOnClose : Nat := 0
  lookups : Nat := 0
  lookupMisses : Nat := 0
  deriving DecidableEq, Repr, Inhabited

structure Registry where
  owners : Std.ExtTreeMap CorrelationId (String × ThreadId) := ∅
  identities : Std.ExtTreeMap CorrelationId Identity := ∅
  counts : RegistryCounts := {}

namespace Registry

/-- The last call registered under an id counts. -/
def register (r : Registry) (id : CorrelationId) (record : CallRecord) : Registry :=
  { owners := r.owners.insert id (record.name, record.thread)
    identities := r.identities.insert id record.identity
    counts := { r.counts with
      registered := r.counts.registered + 1
      overwritten := r.counts.overwritten + (if r.owners.contains id then 1 else 0) } }

def countLookup (c : RegistryCounts) (found : Bool) : RegistryCounts :=
  { c with lookups := c.lookups + 1, lookupMisses := c.lookupMisses + (if found then 0 else 1) }

def lookup (r : Registry) (id : CorrelationId) : (Identity × Bool) × Registry :=
  match r.identities[id]? with
  | some identity => ((identity, true), { r with counts := countLookup r.counts true })
  | none => ((Identity.degraded, false), { r with counts := countLookup r.counts false })

def lookupRecord? (r : Registry) (id : CorrelationId) : Option CallRecord × Registry :=
  match r.owners[id]?, r.identities[id]? with
  | some (name, thread), some identity =>
    (some ⟨name, thread, identity⟩, { r with counts := countLookup r.counts true })
  | _, _ => (none, { r with counts := countLookup r.counts false })

def close (r : Registry) (id : CorrelationId) : Identity × Registry :=
  let counts := r.counts
  let (identity, counts) := match r.identities[id]? with
    | some identity => (identity, { counts with closed := counts.closed + 1 })
    | none => (Identity.degraded, { counts with missingOnClose := counts.missingOnClose + 1 })
  (identity, { owners := r.owners.erase id, identities := r.identities.erase id, counts })

theorem fst_close (r : Registry) (id : CorrelationId) :
    (r.close id).1 = r.identities[id]?.getD Identity.degraded := by
  unfold close
  split <;> simp [*]

theorem fst_lookupRecord? (r : Registry) (id : CorrelationId) :
    (r.lookupRecord? id).1 = r.owners[id]?.bind fun owner => r.identities[id]?.map fun identity =>
      ⟨owner.1, owner.2, identity⟩ := by
  unfold lookupRecord?
  cases r.owners[id]? <;> cases r.identities[id]? <;> rfl

def drain (r : Registry) : List (CorrelationId × CallRecord) × Registry :=
  (r.owners.toList.map fun (id, name, thread) =>
      (id, ⟨name, thread, r.identities.getD id Identity.degraded⟩),
    { r with owners := ∅, identities := ∅ })

def size (r : Registry) : Nat := r.identities.size

end Registry

end SpanWeave
