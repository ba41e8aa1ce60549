import Mathlib.Logic.Equiv.Basic
import Std.Data.String.ToNat
import SpanWeave.Proofs.Engine.Deeds

set_option autoImplicit false

/-!
# Renaming span ids

An event decides the same whatever the span ids are called: after one-to-one renaming of all ids
that its thread and the registry hold, and of the next one, it does what it did before, under the
new ids.
-/
namespace SpanWeave

/-- A one-to-one renaming of span ids; 0, which belongs to no call, stays what it is. -/
structure Renaming where
  ids : Equiv.Perm SpanId
  nobody : ids 0 = 0

namespace Renaming

instance : CoeFun Renaming fun _ => SpanId → SpanId := ⟨fun σ => σ.ids⟩

def refl : Renaming := ⟨Equiv.refl SpanId, rfl⟩

def trans (σ τ : Renaming) : Renaming where
  ids := σ.ids.trans τ.ids
  nobody := (congrArg τ σ.nobody).trans τ.nobody

def swap (a b : Nat) : Renaming where
  ids := Equiv.swap (a + 1) (b + 1)
  nobody := Equiv.swap_apply_of_ne_of_ne (Nat.succ_ne_zero a).symm (Nat.succ_ne_zero b).symm

variable (σ τ : Renaming)

theorem eq_iff {a b : SpanId} : σ a = σ b ↔ a = b := σ.ids.apply_eq_iff_eq

theorem eq_zero_iff {id : SpanId} : σ id = 0 ↔ id = 0 :=
  ⟨fun zero => σ.eq_iff.mp (zero.trans σ.nobody.symm), fun zero => zero ▸ σ.nobody⟩

/-- A text that is the decimal numeral of an id becomes that of the new id. -/
def text (s : String) : String :=
  match s.toNat? with
  | some id => if id.repr = s then (σ id).repr else s
  | none => s

theorem text_repr (id : SpanId) : σ.text id.repr = (σ id).repr := by
  unfold text
  rw [Nat.toNat?_repr]
  exact if_pos rfl

theorem text_of_ne {s : String} (other : ∀ id : SpanId, id.repr ≠ s) : σ.text s = s := by
  unfold text
  split
  · exact if_neg (other _)
  · rfl

theorem text_trans (s : String) : (σ.trans τ).text s = τ.text (σ.text s) := by
  by_cases numeral : ∃ id : SpanId, id.repr = s
  · obtain ⟨id, rfl⟩ := numeral
    rw [text_repr, text_repr, text_repr]
    rfl
  · have other : ∀ id : SpanId, id.repr ≠ s := fun id eq => numeral ⟨id, eq⟩
    rw [text_of_ne _ other, text_of_ne _ other, text_of_ne _ other]

end Renaming

/-! ## Maps -/

section Maps
variable {α β γ : Type} [Ord α] [Std.TransOrd α] [Std.LawfulEqOrd α]

theorem map_insert (m : Std.ExtTreeMap α β) (f : α → β → γ) (key : α) (value : β) :
    (m.insert key value).map f = (m.map f).insert key (f key value) := by
  refine Std.ExtTreeMap.ext_getElem? fun other => ?_
  rw [Std.ExtTreeMap.getElem?_map, Std.ExtTreeMap.getElem?_insert, Std.ExtTreeMap.getElem?_insert,
    Std.ExtTreeMap.getElem?_map]
  by_cases same : compare key other = .eq
  · rw [if_pos same, if_pos same, Std.LawfulEqOrd.compare_eq_iff_eq.mp same]
    rfl
  · rw [if_neg same, if_neg same]

theorem map_erase (m : Std.ExtTreeMap α β) (f : α → β → γ) (key : α) :
    (m.erase key).map f = (m.map f).erase key := by
  refine Std.ExtTreeMap.ext_getElem? fun other => ?_
  rw [Std.ExtTreeMap.getElem?_map, Std.ExtTreeMap.getElem?_erase, Std.ExtTreeMap.getElem?_erase,
    Std.ExtTreeMap.getElem?_map]
  by_cases same : compare key other = .eq
  · rw [if_pos same, if_pos same]
    rfl
  · rw [if_neg same, if_neg same]

end Maps

/-! ## What is renamed -/

def Identity.rename (i : Identity) (σ : Renaming) : Identity := ⟨σ i.span, i.parent.map σ, i.depth⟩

/-- Only the id of the parent is written down. -/
def Renaming.attributes (σ : Renaming) (a : Attributes) : Attributes :=
  a.map fun key text => if key = "pcid" then σ.text text else text

def Span.rename (s : Span) (σ : Renaming) : Span :=
  { s with
    span := σ s.span
    parent := s.parent.map σ
    attributes := σ.attributes s.attributes }

def SpanStart.rename (s : SpanStart) (σ : Renaming) : SpanStart :=
  { s with identity := s.identity.rename σ, attributes := σ.attributes s.attributes }

def OpenCall.rename (c : OpenCall) (σ : Renaming) : OpenCall :=
  { c with identity := c.identity.rename σ }

def ThreadState.rename (t : ThreadState) (σ : Renaming) : ThreadState :=
  { t with calls := t.calls.map (·.rename σ) }

def CallRecord.rename (r : CallRecord) (σ : Renaming) : CallRecord :=
  { r with identity := r.identity.rename σ }

def Entry.rename (x : Entry) (σ : Renaming) : Entry :=
  { x with identity := x.identity.map (·.rename σ) }

def Mark.rename (m : Mark) (σ : Renaming) : Mark :=
  { m with span := σ m.span, parent := m.parent.map σ }

def Notice.rename (σ : Renaming) : Notice → Notice
  | .begins start => .begins (start.rename σ)
  | .ends track time => .ends track time
  | .discards track => .discards track
  | .completes start endsAt => .completes (start.rename σ) endsAt
  | .marks name mark => .marks name (mark.rename σ)
  | .records name duration => .records name duration

def Deferred.rename (σ : Renaming) : Deferred → Deferred
  | .sample name duration => .sample name duration
  | .leaf start endsAt => .leaf (start.rename σ) endsAt

def Deed.rename (σ : Renaming) : Deed → Deed
  | .notice n => .notice (n.rename σ)
  | .flush owner => .flush owner
  | .submit owner work => .submit owner (work.rename σ)
  | .spawn work => .spawn (work.rename σ)

def Move.rename (m : Move) (σ : Renaming) : Move :=
  { m with
    thread := m.thread.rename σ
    record := m.record.map (·.map (·.rename σ))
    deeds := m.deeds.map (Deed.rename σ) }

/-! ## Identities and attributes -/

theorem Identity.rename_trans (i : Identity) (σ τ : Renaming) :
    (i.rename σ).rename τ = i.rename (σ.trans τ) := by
  unfold rename
  dsimp only
  rw [Option.map_map]
  rfl

namespace Renaming
variable (σ : Renaming)

theorem degraded : Identity.degraded.rename σ = Identity.degraded :=
  congrArg (fun span : SpanId => (⟨span, none, 0⟩ : Identity)) σ.nobody

theorem isDegraded (i : Identity) : (i.rename σ).isDegraded = i.isDegraded := by
  have zero : ((σ i.span : SpanId) = 0) ↔ i.span = 0 := σ.eq_zero_iff
  simp only [Identity.isDegraded, Identity.rename, beq_eq_decide, zero]

theorem getD_degraded (i : Option Identity) :
    (i.map (·.rename σ)).getD Identity.degraded = (i.getD Identity.degraded).rename σ := by
  cases i with
  | none => exact σ.degraded.symm
  | some i => rfl

theorem attributes_trans (τ : Renaming) (a : Attributes) :
    τ.attributes (σ.attributes a) = (σ.trans τ).attributes a := by
  refine Std.ExtTreeMap.map_map.trans (congrArg a.map (funext fun key => funext fun text => ?_))
  by_cases parent : key = "pcid"
  · rw [if_pos parent, if_pos parent, if_pos parent, text_trans]
  · rw [if_neg parent, if_neg parent, if_neg parent]

theorem attributes_empty : σ.attributes ∅ = ∅ := Std.ExtTreeMap.map_eq_empty_iff.mpr rfl

theorem attributes_insert (a : Attributes) {key : String} (other : key ≠ "pcid") (text : String) :
    σ.attributes (a.insert key text) = (σ.attributes a).insert key text := by
  rw [attributes, map_insert, if_neg other]
  rfl

theorem attributes_parent (a : Attributes) (id : SpanId) :
    σ.attributes (a.insert "pcid" (id.repr)) =
      (σ.attributes a).insert "pcid" ((σ id).repr) := by
  rw [attributes, map_insert, if_pos rfl, text_repr]
  rfl

theorem callAttributes (t : ThreadState) (c : HostCall) (identity : Identity) :
    Engine.callAttributes (t.rename σ) c (identity.rename σ) =
      σ.attributes (Engine.callAttributes t c identity) := by
  obtain ⟨span, parent, depth⟩ := identity
  unfold Engine.callAttributes Identity.rename ThreadState.rename
  cases parent <;> cases c.kernel <;> cases c.queue <;>
    simp [attributes_empty, attributes_insert, attributes_parent]

theorem deviceAttributes (c : Completion) (op : DeviceOp) :
    σ.attributes (Engine.deviceAttributes c op) = Engine.deviceAttributes c op := by
  simp [Engine.deviceAttributes, attributes_empty, attributes_insert]

theorem deviceStart (t : ThreadState) (launch : Option CallRecord) (c : Completion) (op : DeviceOp)
    (beginsAt : Nanos) (lap : Nat) :
    Engine.deviceStart (t.rename σ) (launch.map (·.rename σ)) c op beginsAt lap =
      (Engine.deviceStart t launch c op beginsAt lap).rename σ := by
  unfold Engine.deviceStart SpanStart.rename
  rw [σ.attributes_insert _ (by decide), σ.deviceAttributes]
  cases launch with
  | none => rw [σ.degraded]; rfl
  | some call => rfl

theorem untrackedLeaf (thread : ThreadId) (c : Completion) (op : DeviceOp) (beginsAt : Nanos) :
    (Engine.untrackedLeaf thread c op beginsAt).rename σ =
      Engine.untrackedLeaf thread c op beginsAt := by
  unfold Engine.untrackedLeaf SpanStart.rename
  rw [σ.deviceAttributes, σ.degraded]

end Renaming

theorem SpanStart.rename_trans (s : SpanStart) (σ τ : Renaming) :
    (s.rename σ).rename τ = s.rename (σ.trans τ) := by
  unfold rename
  dsimp only
  rw [s.identity.rename_trans, σ.attributes_trans]

theorem Span.rename_trans (s : Span) (σ τ : Renaming) :
    (s.rename σ).rename τ = s.rename (σ.trans τ) := by
  unfold rename
  dsimp only
  rw [Option.map_map, σ.attributes_trans]
  rfl

/-! ## Threads -/

namespace ThreadState
variable (t : ThreadState) (σ : Renaming)

theorem depth_rename : (t.rename σ).depth = t.depth := List.length_map _

theorem identityOf_rename (fresh : SpanId) :
    (t.rename σ).identityOf (σ fresh) = (t.identityOf fresh).rename σ := by
  unfold identityOf current? rename
  cases t.calls <;> rfl

theorem pop?_rename (span : SpanId) :
    (t.rename σ).pop? (σ span) = (t.pop? span).map fun x => (x.1.rename σ, x.2.rename σ) := by
  have asked : ((fun c : OpenCall => c.identity.span != σ span) ∘ fun c => c.rename σ) =
      fun c : OpenCall => c.identity.span != span := by
    funext c
    exact congrArg not (decide_eq_decide.mpr σ.eq_iff)
  unfold pop?
  rw [rename, List.dropWhile_map, asked]
  cases t.calls.dropWhile fun c : OpenCall => c.identity.span != span <;> rfl

theorem popTop?_rename :
    (t.rename σ).popTop? = t.popTop?.map fun x => (x.1.rename σ, x.2.rename σ) := by
  unfold popTop? rename
  cases t.calls <;> rfl

theorem popUntracked?_rename :
    (t.rename σ).popUntracked? = t.popUntracked?.map fun x => (x.1, x.2.rename σ) := by
  unfold popUntracked? rename
  cases t.untracked <;> rfl

end ThreadState

theorem Entry.record?_rename (x : Entry) (σ : Renaming) :
    (x.rename σ).record? = x.record?.map (·.rename σ) := by
  unfold record? rename
  cases x.owner <;> cases x.identity <;> rfl

/-! ## Moves -/

namespace Setting
variable (t : ThreadState) (x : Entry) (fresh : SpanId) (c : HostCall) (now : Nanos) (σ : Renaming)

theorem enter_rename : (enter (t.rename σ) (x.rename σ) (σ fresh) c now).2 =
    (enter t x fresh c now).2.rename σ := by
  have start : Engine.callStart (t.rename σ) c ((t.identityOf fresh).rename σ) now =
      (Engine.callStart t c (t.identityOf fresh) now).rename σ := by
    unfold Engine.callStart SpanStart.rename
    rw [σ.callAttributes]
    rfl
  unfold enter
  dsimp only
  rw [t.identityOf_rename, start]
  rfl

structure Ending.Renames (σ : Renaming) (y z : Ending) : Prop where
  thread : z.thread = y.thread.rename σ
  calls : z.calls = y.calls
  notices : z.notices = y.notices.map (Notice.rename σ)

theorem endInnermost_rename :
    Ending.Renames σ (endInnermost t now) (endInnermost (t.rename σ) now) := by
  unfold endInnermost
  rw [t.popTop?_rename]
  cases t.popTop? with
  | none => exact ⟨rfl, rfl, rfl⟩
  | some pair =>
    refine ⟨rfl, rfl, ?_⟩
    change [if now < pair.1.beganAt then _ else _] = [Notice.rename σ (if _ then _ else _)]
    split <;> rfl

theorem endRegistered_rename (rest : ThreadState) (identity : Identity) (beganAt : Nanos) :
    Ending.Renames σ (endRegistered t rest c identity beganAt now)
      (endRegistered (t.rename σ) (rest.rename σ) c (identity.rename σ) beganAt now) := by
  unfold endRegistered
  rw [t.depth_rename, rest.depth_rename]
  dsimp only
  split
  · refine ⟨rfl, rfl, ?_⟩
    rw [List.map_append, List.map_replicate]
    rfl
  · refine ⟨rfl, rfl, ?_⟩
    rw [List.map_append, List.map_replicate]
    rfl

theorem ending_rename :
    Ending.Renames σ (ending t x c now) (ending (t.rename σ) (x.rename σ) c now) := by
  have identity : (x.rename σ).identity.getD Identity.degraded =
      (x.identity.getD Identity.degraded).rename σ := σ.getD_degraded x.identity
  unfold ending
  dsimp only
  rw [identity, σ.isDegraded]
  generalize x.identity.getD Identity.degraded = identity
  have popped : (if identity.isDegraded then none else
      (t.rename σ).pop? (identity.rename σ).span) =
      (if identity.isDegraded then none else t.pop? identity.span).map
        fun x => (x.1.rename σ, x.2.rename σ) := by
    split
    · rfl
    · exact t.pop?_rename σ identity.span
  rw [popped]
  cases (if identity.isDegraded then none else t.pop? identity.span) with
  | none => exact endInnermost_rename t now σ
  | some pair => exact endRegistered_rename t c now σ pair.2 identity pair.1.beganAt

theorem exit_rename : (exit (t.rename σ) (x.rename σ) c now).2 = (exit t x c now).2.rename σ := by
  obtain ⟨thread, calls, notices⟩ := ending_rename t x c now σ
  have known : (x.rename σ).identity.isSome = x.identity.isSome := Option.isSome_map
  unfold exit Move.rename
  dsimp only
  rw [thread, calls, notices, known, List.map_cons, List.map_map, List.map_map]
  rfl

variable (k : Setting)

theorem exitUntracked_rename : (k.exitUntracked (t.rename σ) (σ fresh) c now).2 =
    (k.exitUntracked t fresh c now).2.rename σ := by
  unfold exitUntracked
  rw [t.popUntracked?_rename]
  cases t.popUntracked? with
  | none => rfl
  | some pair =>
    dsimp only [Option.map_some]
    generalize (if c.name = Engine.shutdownCall then pair.1 else now) = endsAt
    split
    · rfl
    · have start : Engine.untrackedStart (pair.2.rename σ) c ((pair.2.identityOf fresh).rename σ)
          pair.1 = (Engine.untrackedStart pair.2 c (pair.2.identityOf fresh) pair.1).rename σ := by
        unfold Engine.untrackedStart SpanStart.rename
        rw [σ.attributes_empty]
        rfl
      rw [pair.2.identityOf_rename, start]
      cases k.listens <;> rfl

theorem call_rename : (k.call (t.rename σ) (x.rename σ) (σ fresh) c now).2 =
    (k.call t x fresh c now).2.rename σ := by
  unfold call
  split
  · rfl
  · cases c.domain with
    | correlated =>
      cases c.phase with
      | enter => exact enter_rename t x fresh c now σ
      | exit => exact exit_rename t x c now σ
    | untracked =>
      cases c.phase with
      | enter => rfl
      | exit => exact exitUntracked_rename t fresh c now σ k

/-! ### Completions -/

theorem emission_rename (launch : Option CallRecord) (start : SpanStart) (c : Completion)
    (endsAt : Nanos) (lap : Nat) :
    k.emission (launch.map (·.rename σ)) (start.rename σ) c endsAt lap =
      (k.emission launch start c endsAt lap).map (Deed.rename σ) := by
  unfold emission
  cases launch with
  | none => rfl
  | some call =>
    dsimp only [Option.map_some]
    cases k.listens <;> rfl

theorem completion_rename (c : Completion) :
    (k.completion (t.rename σ) (x.rename σ) c).1 = (k.completion t x c).1 ∧
      (k.completion (t.rename σ) (x.rename σ) c).2 = (k.completion t x c).2.rename σ := by
  have known : (x.record?.map (·.rename σ)).isSome = x.record?.isSome := Option.isSome_map
  have unknown : (x.record?.map (·.rename σ)).isNone = x.record?.isNone := Option.isNone_map
  have lap : (t.rename σ).nextLap c.correlation =
      ((t.nextLap c.correlation).1, (t.nextLap c.correlation).2.rename σ) := rfl
  unfold completion
  cases c.op? with
  | none => exact ⟨rfl, rfl⟩
  | some op =>
    dsimp only
    rw [lap, x.record?_rename, known, unknown]
    cases k.activityFilter.accepts op.name with
    | false => exact ⟨rfl, rfl⟩
    | true =>
      by_cases late : shiftTime c.endsAt.toNat k.offset ≤ shiftTime c.beginsAt.toNat k.offset
      · simp only [late, ↓reduceIte]
        exact ⟨rfl, rfl⟩
      · simp only [late, ↓reduceIte, σ.deviceStart, emission_rename]
        exact ⟨rfl, rfl⟩

theorem loose_rename (c : Completion) :
    (k.loose (t.rename σ) c).1 = (k.loose t c).1 ∧
      (k.loose (t.rename σ) c).2 = (k.loose t c).2.rename σ := by
  unfold loose
  cases c.op? with
  | none => exact ⟨rfl, rfl⟩
  | some op =>
    dsimp only
    cases k.activityFilter.accepts op.name with
    | false => exact ⟨rfl, rfl⟩
    | true =>
      by_cases late : shiftTime c.endsAt.toNat k.offset ≤ shiftTime c.beginsAt.toNat k.offset
      · simp only [late, ↓reduceIte]
        exact ⟨rfl, rfl⟩
      · simp only [late, ↓reduceIte]
        exact ⟨rfl, congrArg (fun start => ({
          thread := t.rename σ
          deeds := [.spawn (.leaf start (shiftTime c.endsAt.toNat k.offset))] } : Move))
            (σ.untrackedLeaf t.thread c op _).symm⟩

end Setting

end SpanWeave
