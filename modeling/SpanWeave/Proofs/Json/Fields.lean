import SpanWeave.Json.Fields
import SpanWeave.Proofs.Json.RoundTrip

set_option autoImplicit false

/-!
# Fields as they are written

Every field is taken back from the slot that it was written to. What fields are written as is
shallow: a value that is read back as it is, and that is no deeper than a bound.
-/
namespace SpanWeave.Json

@[simp] theorem word64_ofWord64 (n : UInt64) : word64 (ofWord64 n) = some n := by
  have fits : natBelow UInt64.size (ofWord64 n) = some n.toNat := if_pos n.toNat_lt
  rw [word64, fits, Option.map_some, UInt64.ofNat_toNat]

@[simp] theorem word32_ofWord32 (n : UInt32) : word32 (ofWord32 n) = some n := by
  have fits : natBelow UInt32.size (ofWord32 n) = some n.toNat := if_pos n.toNat_lt
  rw [word32, fits, Option.map_some, UInt32.ofNat_toNat]

/-- An optional field comes back from its slot, which is empty when it has no value. -/
theorem optional_map {α : Type} {read : Value → Option α} {write : α → Value}
    (back : ∀ a, read (write a) = some a) (notNull : ∀ a, write a ≠ .null) (a : Option α) :
    optional read (a.map write) = some a := by
  cases a with
  | none => rfl
  | some a =>
    unfold optional
    split
    · rename_i eq
      cases eq
    · rename_i eq
      exact absurd (Option.some.inj eq) (notNull a)
    · rename_i eq
      cases eq
      rw [back]
      rfl

theorem natBelow_ofNat {bound n : Nat} (fits : n < bound) :
    natBelow bound (.ofNat n) = some n := if_pos fits

/-- As `optional_map`, for numbers that have to be below a bound. -/
theorem optional_natBelow {bound : Nat} {n : Option Nat} (fits : ∀ m ∈ n, m < bound) :
    optional (natBelow bound) (n.map Value.ofNat) = some n := by
  cases n with
  | none => rfl
  | some m =>
    change (natBelow bound (.ofNat m)).map some = _
    rw [natBelow_ofNat (fits m rfl)]
    rfl

theorem optional_text (t : Option String) : optional text (t.map Value.text) = some t := by
  have back : ∀ s, text (.text s) = some s := fun _ => rfl
  refine optional_map back (fun _ eq => ?_) t
  cases eq

theorem optional_word64 (n : Option UInt64) : optional word64 (n.map ofWord64) = some n := by
  refine optional_map word64_ofWord64 (fun _ eq => ?_) n
  cases eq

theorem optional_word32 (n : Option UInt32) : optional word32 (n.map ofWord32) = some n := by
  refine optional_map word32_ofWord32 (fun _ eq => ?_) n
  cases eq

theorem listOf_map {α : Type} {read : Value → Option α} {write : α → Value}
    (back : ∀ a, read (write a) = some a) (as : List α) :
    listOf read (.array (as.map write)) = some as := by
  have all : (as.map write).mapM read = some (as.map id) := mapM_map_of_back fun a _ => back a
  rwa [List.map_id] at all

/-! ## Fields and their slots -/

def written (fields : List (String × Slot)) : List (String × Value) :=
  fields.filterMap fun (name, slot) => slot.map (name, ·)

theorem written_append (fields more : List (String × Slot)) :
    written (fields ++ more) = written fields ++ written more := List.filterMap_append

theorem member?_map {α : Type} (name : String) (write : α → Value) (a : Option α) :
    member? name id (a.map write) = member? name write a := by
  cases a <;> rfl

theorem written_cons (name : String) (slot : Slot) (fields : List (String × Slot)) :
    written ((name, slot) :: fields) = member? name id slot ++ written fields := by
  cases slot <;> rfl

/-- A name that no field has is not found among the members. -/
theorem filter_written_of_not_mem {fields : List (String × Slot)} {name : String}
    (absent : name ∉ fields.map (·.1)) : (written fields).filter (·.1 == name) = [] := by
  apply List.filter_eq_nil_iff.mpr
  intro member isWritten same
  obtain ⟨⟨other, slot⟩, isField, eq⟩ := List.mem_filterMap.mp isWritten
  obtain ⟨v, -, rfl⟩ := Option.map_eq_some_iff.mp eq
  exact absent (List.mem_map.mpr ⟨_, isField, beq_iff_eq.mp same⟩)

theorem memberSlot_written {fields : List (String × Slot)}
    (distinct : (fields.map (·.1)).Nodup) {field : String × Slot} (isField : field ∈ fields) :
    memberSlot (written fields) field.1 = some field.2 := by
  have found : (written fields).filter (·.1 == field.1) =
      (field.2.map (field.1, ·)).toList := by
    induction fields with
    | nil => cases isField
    | cons first fields ih =>
      obtain ⟨fresh, distinct⟩ := List.nodup_cons.mp distinct
      change (written ([first] ++ fields)).filter _ = _
      rw [written_append, List.filter_append]
      rcases List.mem_cons.mp isField with rfl | isField
      · rw [filter_written_of_not_mem fresh, List.append_nil]
        obtain ⟨name, slot⟩ := field
        cases slot <;> simp [written]
      · have other : field.1 ∉ [first].map (·.1) := by
          rintro same
          exact fresh (List.mem_singleton.mp same ▸ List.mem_map_of_mem isField)
        rw [filter_written_of_not_mem other, List.nil_append, ih distinct isField]
  rw [memberSlot, found]
  cases field.2 <;> rfl

/-- Fields under different names are found in their slots, in the order of the names. -/
theorem slots_written {fields : List (String × Slot)} (distinct : (fields.map (·.1)).Nodup) :
    slots (fields.map (·.1)) (.object (written fields)) = some (fields.map (·.2)) :=
  mapM_map_of_back fun _ member => memberSlot_written distinct member

/-! ## Shallow values -/

theorem soundItems_of_forall {vs : List Value} (each : ∀ v ∈ vs, v.isSound = true) :
    Value.soundItems vs = true := by
  induction vs with
  | nil => rfl
  | cons v vs ih =>
    obtain ⟨first, others⟩ := List.forall_mem_cons.mp each
    rw [Value.soundItems, first, ih others]
    rfl

theorem soundMembers_of_forall {ms : List (String × Value)} (each : ∀ m ∈ ms, m.2.isSound = true) :
    Value.soundMembers ms = true := by
  induction ms with
  | nil => rfl
  | cons m ms ih =>
    obtain ⟨name, v⟩ := m
    obtain ⟨first, others⟩ := List.forall_mem_cons.mp each
    rw [Value.soundMembers, Value.soundMember, first, ih others]
    rfl

theorem Value.Plain.isSound {v : Value} (h : v.Plain) : v.isSound = true := by
  induction h with
  | null | bool | integer | text => rfl
  | array _ each => exact soundItems_of_forall each
  | object _ each => exact soundMembers_of_forall each

structure Value.Shallow (bound : Nat) (v : Value) : Prop where
  plain : v.Plain
  depth_le : v.depth ≤ bound

theorem shallow_text (bound : Nat) (t : String) : (Value.text t).Shallow bound :=
  ⟨.text t, Nat.zero_le _⟩

theorem shallow_ofWord64 (bound : Nat) (n : UInt64) : (ofWord64 n).Shallow bound :=
  ⟨.integer n.toNat_lt, Nat.zero_le _⟩

theorem shallow_ofWord32 (bound : Nat) (n : UInt32) : (ofWord32 n).Shallow bound :=
  ⟨.integer (Nat.lt_trans n.toNat_lt (by decide)), Nat.zero_le _⟩

theorem shallow_ofNat (bound : Nat) {n : Nat} (small : n < UInt64.size) :
    (Value.ofNat n).Shallow bound := ⟨.integer small, Nat.zero_le _⟩

/-- The member of an optional field is shallow when its value is. -/
theorem shallow_member? {α : Type} {write : α → Value} {bound : Nat}
    (each : ∀ a, (write a).Shallow bound) (name : String) (a : Option α) :
    ∀ m ∈ member? name write a, m.2.Shallow bound := by
  cases a with
  | none => exact nofun
  | some a => exact List.forall_mem_singleton.mpr (each a)

theorem shallow_written {fields : List (String × Slot)} {bound : Nat}
    (each : ∀ field ∈ fields, ∀ v ∈ field.2, v.Shallow bound) :
    ∀ m ∈ written fields, m.2.Shallow bound := by
  intro member isWritten
  obtain ⟨field, isField, eq⟩ := List.mem_filterMap.mp isWritten
  obtain ⟨v, here, rfl⟩ := Option.map_eq_some_iff.mp eq
  exact each field isField v here

theorem shallow_array {vs : List Value} {bound : Nat} (each : ∀ v ∈ vs, v.Shallow bound) :
    (Value.array vs).Shallow (bound + 1) := by
  refine ⟨.array fun v member => (each v member).plain, ?_⟩
  rw [Value.depth, Nat.add_comm]
  refine Nat.succ_le_succ ?_
  induction vs with
  | nil => exact Nat.zero_le _
  | cons v vs ih =>
    obtain ⟨first, others⟩ := List.forall_mem_cons.mp each
    exact Nat.max_le.mpr ⟨first.depth_le, ih others⟩

theorem shallow_object {ms : List (String × Value)} {bound : Nat}
    (each : ∀ m ∈ ms, m.2.Shallow bound) : (Value.object ms).Shallow (bound + 1) := by
  refine ⟨.object fun m member => (each m member).plain, ?_⟩
  rw [Value.depth, Nat.add_comm]
  refine Nat.succ_le_succ ?_
  induction ms with
  | nil => exact Nat.zero_le _
  | cons m ms ih =>
    obtain ⟨name, v⟩ := m
    obtain ⟨first, others⟩ := List.forall_mem_cons.mp each
    exact Nat.max_le.mpr ⟨first.depth_le, ih others⟩

end SpanWeave.Json
