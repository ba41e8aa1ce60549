import SpanWeave.Proofs.Engine.Accounts

set_option autoImplicit false

/-!
# Fates of completions

What becomes of a completion depends on the filter, the offset and the completion alone, and what a
batch is reported as is how many of its completions meet which fate.
-/
namespace SpanWeave

namespace Completion

def begins (offset : Int) (c : Completion) : Nanos := shiftTime c.beginsAt.toNat offset

def ends (offset : Int) (c : Completion) : Nanos := shiftTime c.endsAt.toNat offset

/-- It takes time on the clock of the host. -/
def isTimed (offset : Int) (c : Completion) : Bool := c.begins offset < c.ends offset

def isEmitted (g : NameFilter) (offset : Int) (c : Completion) : Bool :=
  c.isLooked g && c.isTimed offset

def isAnomaly (g : NameFilter) (offset : Int) (c : Completion) : Bool :=
  c.isLooked g && !c.isTimed offset

def isRejected (g : NameFilter) (c : Completion) : Bool := c.op?.any fun op => !g.accepts op.name

theorem shiftTime_mono {time time' : Nat} (offset : Int) (h : time ≤ time') :
    shiftTime time offset ≤ shiftTime time' offset := by
  have moved : ((time : Int) + offset).toNat ≤ ((time' : Int) + offset).toNat := by omega
  exact Nat.le_min.mpr ⟨(Nat.min_le_left ..).trans moved, Nat.min_le_right ..⟩

/-- No offset makes a completion take time that takes none on the clock of its device. -/
theorem isTimed_of_le {c : Completion} (h : c.endsAt ≤ c.beginsAt) (offset : Int) :
    c.isTimed offset = false := by
  have ordered : c.ends offset ≤ c.begins offset := shiftTime_mono offset h
  exact decide_eq_false (Nat.not_lt.mpr ordered)

end Completion

namespace Setting

inductive Fate (k : Setting) (t : ThreadState) (x : Entry) (c : Completion) :
    Disposition × Move → Prop
  | unsupported (none : c.op? = none) : Fate k t x c (.unsupported, { thread := t })
  | filtered {op : DeviceOp} (supported : c.op? = some op)
      (rejected : k.activityFilter.accepts op.name = false) :
      Fate k t x c (.filtered, { thread := t })
  | anomaly {op : DeviceOp} (supported : c.op? = some op)
      (passed : k.activityFilter.accepts op.name = true) (late : c.isTimed k.offset = false) :
      Fate k t x c (.anomaly,
        { thread := (t.nextLap c.correlation).2
          counts :=
            { registry := { lookups := 1, lookupMisses := if x.record?.isSome then 0 else 1 } } })
  | emitted {op : DeviceOp} (supported : c.op? = some op)
      (passed : k.activityFilter.accepts op.name = true) (timed : c.isTimed k.offset = true) :
      Fate k t x c (.emitted x.record?.isNone,
        { thread := (t.nextLap c.correlation).2
          counts :=
            { registry := { lookups := 1, lookupMisses := if x.record?.isSome then 0 else 1 } }
          deeds := k.emission x.record?
            (Engine.deviceStart t x.record? c op (c.begins k.offset) (t.nextLap c.correlation).1) c
            (c.ends k.offset) (t.nextLap c.correlation).1 })

theorem fate (k : Setting) (t : ThreadState) (x : Entry) (c : Completion) :
    Fate k t x c (k.completion t x c) := by
  unfold completion
  cases supported : c.op? with
  | none => exact .unsupported supported
  | some op =>
    dsimp only
    cases passed : k.activityFilter.accepts op.name with
    | false => exact .filtered supported passed
    | true =>
      change Fate k t x c (if c.ends k.offset ≤ c.begins k.offset then _ else _)
      by_cases late : c.ends k.offset ≤ c.begins k.offset
      · rw [if_pos late]
        exact .anomaly supported passed (decide_eq_false (Nat.not_lt.mpr late))
      · rw [if_neg late]
        exact .emitted supported passed (decide_eq_true (Nat.lt_of_not_le late))

end Setting

/-! ## Reports -/

namespace DrainReport

theorem merge_assoc (a b c : DrainReport) : (a.merge b).merge c = a.merge (b.merge c) := by
  simp only [merge, Nat.add_assoc]

theorem empty_merge (a : DrainReport) : ({} : DrainReport).merge a = a := by
  simp only [merge, Nat.zero_add]

theorem add_eq_merge (a : DrainReport) (d : Disposition) :
    a.add d = a.merge (({} : DrainReport).add d) := by
  cases d <;> simp [merge, add]

theorem merge_add (a b : DrainReport) (d : Disposition) :
    a.merge (b.add d) = (a.merge b).merge (({} : DrainReport).add d) := by
  rw [add_eq_merge, merge_assoc]

/-- The completions with each fate, if those that are orphans are known. -/
def tally (g : NameFilter) (offset : Int) (orphan : Completion → Bool) (cs : List Completion) :
    DrainReport where
  advanced := cs.length
  emitted := cs.countP (·.isEmitted g offset)
  unsupported := cs.countP (·.op?.isNone)
  filtered := cs.countP (·.isRejected g)
  anomalies := cs.countP (·.isAnomaly g offset)
  orphans := cs.countP fun c => c.isEmitted g offset && orphan c

variable {g : NameFilter} {offset : Int} {orphan : Completion → Bool}

theorem tally_append (cs ds : List Completion) :
    tally g offset orphan (cs ++ ds) =
      (tally g offset orphan cs).merge (tally g offset orphan ds) := by
  simp only [tally, merge, List.countP_append, List.length_append]

theorem one_fate (g : NameFilter) (offset : Int) (c : Completion) :
    (if c.isEmitted g offset then 1 else 0) + (if c.op?.isNone then 1 else 0) +
      (if c.isRejected g then 1 else 0) + (if c.isAnomaly g offset then 1 else 0) = 1 := by
  unfold Completion.isEmitted Completion.isAnomaly Completion.isRejected Completion.isLooked
  cases c.op? with
  | none => rfl
  | some op =>
    rw [Option.any_some, Option.any_some]
    cases g.accepts op.name <;> cases c.isTimed offset <;> rfl

theorem advanced_tally (cs : List Completion) :
    let r := tally g offset orphan cs
    r.advanced = r.emitted + r.unsupported + r.filtered + r.anomalies := by
  induction cs with
  | nil => rfl
  | cons c cs ih =>
    have one := one_fate g offset c
    simp only [tally, List.length_cons, List.countP_cons] at ih ⊢
    omega

theorem orphans_tally_le (cs : List Completion) :
    (tally g offset orphan cs).orphans ≤ (tally g offset orphan cs).emitted :=
  List.countP_mono_left fun _ _ both => (Bool.and_eq_true_iff.mp both).1

end DrainReport

/-- A completion is reported as its fate. -/
theorem Setting.Fate.tally {k : Setting} {t : ThreadState} {x : Entry} {c : Completion}
    {y : Disposition × Move} (h : k.Fate t x c y) : ({} : DrainReport).add y.1 =
      .tally k.activityFilter k.offset (fun _ => x.record?.isNone) [c] := by
  simp only [DrainReport.tally, List.countP_singleton, List.length_singleton, Completion.isEmitted,
    Completion.isAnomaly, Completion.isRejected, Completion.isLooked]
  cases h with
  | unsupported none => simp [DrainReport.add, none]
  | filtered supported rejected => simp [DrainReport.add, supported, rejected]
  | anomaly supported passed late => simp [DrainReport.add, supported, passed, late]
  | emitted supported passed timed => simp [DrainReport.add, supported, passed, timed]

end SpanWeave
