import Mathlib.Algebra.BigOperators.Fin
import Mathlib.Algebra.Order.BigOperators.Group.Finset
import SpanWeave.Clock.Skew

set_option autoImplicit false

/-!
# Accuracy of the skew

How far a measured offset is from the true one, for clocks that differ by one offset throughout.
Halving loses less than one unit on either side and the mean another one, so the widest bracket
decides. The sums of the loop are kept in registers of fixed width; here they are also computed with
a check of every register, and no check fails.
-/
namespace SpanWeave

structure ClockLog where
  host : Nat → UInt64
  device : Nat → UInt64

namespace ClockLog

variable (l : ClockLog)

/-- Reading 0 of either clock is for nothing. -/
def before (i : Nat) : Nat := (l.host (2 * i + 1)).toNat

def within (i : Nat) : Nat := (l.device (i + 1)).toNat

def behind (i : Nat) : Nat := (l.host (2 * i + 2)).toNat

def midway (i : Nat) : Nat := l.before i / 2 + l.behind i / 2

/-- The clocks show this for as long as `n` brackets take. -/
def ShownBy (clocks : Clocks) (n : Nat) : Prop :=
  (∀ k ≤ 2 * n, clocks.host k = .ok (l.host k).toNat) ∧
    ∀ k ≤ n, clocks.device k = .ok (l.device k).toNat

/-- The device read `offset` less than the host all the time, and no bracket is wider than
`width`. -/
structure Brackets (n : Nat) (offset : Int) (width : Nat) : Prop where
  lower : ∀ i < n, (l.before i : Int) ≤ l.within i + offset
  upper : ∀ i < n, (l.within i : Int) + offset ≤ l.behind i
  narrow : ∀ i < n, l.behind i ≤ l.before i + width

variable {l}

theorem within_lt (i : Nat) : l.within i < 0x10000000000000000 := UInt64.toNat_lt _

theorem midway_lt (i : Nat) : l.midway i < 0x10000000000000000 := by
  have first : l.before i < 0x10000000000000000 := UInt64.toNat_lt _
  have second : l.behind i < 0x10000000000000000 := UInt64.toNat_lt _
  unfold midway
  omega

end ClockLog

/-! ## What is read -/

theorem Reading.bind_of_ok {α β : Type} {x : Reading α} {f : α → Reading β} {a : α} {r r' : Reads}
    (h : x r = (.ok a, r')) : (x >>= f) r = f a r' := by
  change ExceptT.bindCont f (x r).1 (x r).2 = f a r'
  rw [h]
  rfl

namespace Clocks

variable {c : Clocks} {r : Reads} {l : ClockLog} {n : Nat}

theorem read_host {k : Nat} {time : Nanos} {order : List ClockSide} {d : Nat}
    (h : c.host k = .ok time) :
    c.read .host ⟨order, k, d⟩ = (.ok time, ⟨.host :: order, k + 1, d⟩) := by
  rw [← h]
  rfl

theorem read_device {k : Nat} {time : Nanos} {order : List ClockSide} {h : Nat}
    (d : c.device k = .ok time) :
    c.read .device ⟨order, h, k⟩ = (.ok time, ⟨.device :: order, h, k + 1⟩) := by
  rw [← d]
  rfl

/-- Bracket `i` after `i` brackets. -/
theorem bracket_eq {i : Nat} (order : List ClockSide) (shown : l.ShownBy c n) (here : i < n) :
    ∃ order', c.bracket ⟨order, 2 * i + 1, i + 1⟩ =
      (.ok (l.midway i, l.within i), ⟨order', 2 * (i + 1) + 1, i + 1 + 1⟩) := by
  have first : c.host (2 * i + 1) = .ok (l.before i) := shown.1 _ (by omega)
  have inner : c.device (i + 1) = .ok (l.within i) := shown.2 _ here
  have second : c.host (2 * i + 1 + 1) = .ok (l.behind i) := shown.1 _ (by omega)
  refine ⟨.host :: .device :: .host :: order, ?_⟩
  refine (Reading.bind_of_ok (read_host first)).trans ?_
  refine (Reading.bind_of_ok (read_device inner)).trans ?_
  exact Reading.bind_of_ok (read_host second)

/-- Which elements a list has does not matter, only how many. -/
theorem brackets_eq {α : Type} (xs : List α) {k : Nat} (order : List ClockSide)
    (shown : l.ShownBy c n) (room : k + xs.length ≤ n) :
    ∃ r, (xs.mapM fun _ => c.bracket) ⟨order, 2 * k + 1, k + 1⟩ =
      (.ok ((List.range' k xs.length).map fun i => (l.midway i, l.within i)), r) := by
  induction xs generalizing k order with
  | nil => exact ⟨_, rfl⟩
  | cons x xs ih =>
    rw [List.length_cons] at room
    obtain ⟨order', first⟩ := bracket_eq order shown (by omega : k < n)
    obtain ⟨r, rest⟩ := ih (k := k + 1) order' (by omega)
    refine ⟨r, ?_⟩
    rw [List.mapM_cons, Reading.bind_of_ok first, Reading.bind_of_ok rest]
    rfl

theorem calibrate_eq (measured : 1 ≤ n) (shown : l.ShownBy c n) :
    (c.calibrate n {}).1 =
      .ok (Calibration.ofBrackets ((List.range n).map fun i => (l.midway i, l.within i))) := by
  obtain ⟨r, all⟩ := brackets_eq (List.range n) (k := 0) [.device, .host] shown
    (by rw [List.length_range]; omega)
  rw [List.length_range, ← List.range_eq_range'] at all
  have read : c.calibrate n {} = (.ok (Calibration.ofBrackets
      ((List.range n).map fun i => (l.midway i, l.within i))), r) := by
    unfold calibrate
    rw [max_eq_left measured]
    refine (Reading.bind_of_ok (read_host (shown.1 0 (Nat.zero_le _)))).trans ?_
    refine (Reading.bind_of_ok (read_device (shown.2 0 (Nat.zero_le _)))).trans ?_
    exact Reading.bind_of_ok all
  rw [read]

end Clocks

/-! ## What is computed from it -/

namespace ClockLog

variable (l : ClockLog) (n : Nat)

def apart (i : Nat) : Int := l.midway i - l.within i

theorem sum_apart : ∑ i ∈ Finset.range n, l.apart i =
    (∑ i ∈ Finset.range n, l.midway i : Nat) - (∑ i ∈ Finset.range n, l.within i : Nat) := by
  unfold apart
  rw [Finset.sum_sub_distrib, Nat.cast_sum, Nat.cast_sum]

theorem sum_midway_le :
    ∑ i ∈ Finset.range n, l.midway i ≤ n * 0xffffffffffffffff := by
  have each := Finset.sum_le_card_nsmul (Finset.range n) l.midway _
    fun i _ => Nat.le_of_lt_succ (midway_lt i)
  rwa [Finset.card_range, smul_eq_mul] at each

theorem sum_within_le :
    ∑ i ∈ Finset.range n, l.within i ≤ n * 0xffffffffffffffff := by
  have each := Finset.sum_le_card_nsmul (Finset.range n) l.within _
    fun i _ => Nat.le_of_lt_succ (within_lt i)
  rwa [Finset.card_range, smul_eq_mul] at each

def calibration : Calibration where
  offset := clampSigned ((∑ i ∈ Finset.range n, l.apart i).tdiv n)
  hostAverage := (∑ i ∈ Finset.range n, l.midway i) / n
  deviceAverage := (∑ i ∈ Finset.range n, l.within i) / n
  iterations := n

theorem ofBrackets_eq :
    Calibration.ofBrackets ((List.range n).map fun i => (l.midway i, l.within i)) =
      l.calibration n := by
  unfold Calibration.ofBrackets calibration
  rw [List.map_map, List.map_map, List.length_map, List.length_range, sum_apart]
  rfl

end ClockLog

/-- A mean rounded toward zero lies between whole bounds of what it is the mean of. -/
theorem tdiv_between {sum lower upper : Int} {n : Nat} (some : 1 ≤ n) (low : n * lower ≤ sum)
    (high : sum ≤ n * upper) : lower ≤ sum.tdiv n ∧ sum.tdiv n ≤ upper := by
  have positive : (0 : Int) < n := by omega
  constructor
  · have h := Int.tdiv_le_tdiv positive low
    rwa [Int.mul_tdiv_cancel_left _ positive.ne'] at h
  · have h := Int.tdiv_le_tdiv positive high
    rwa [Int.mul_tdiv_cancel_left _ positive.ne'] at h

/-! ## Registers -/

def register? (least greatest i : Int) : Option Int :=
  if least ≤ i ∧ i ≤ greatest then some i else none

def word? : Int → Option Int := register? 0 0xffffffffffffffff

def signed? : Int → Option Int := register? (-0x8000000000000000) 0x7fffffffffffffff

def wide? : Int → Option Int :=
  register? (-0x80000000000000000000000000000000) 0x7fffffffffffffffffffffffffffffff

theorem register?_bind {α : Type} {least greatest i : Int} (low : least ≤ i) (high : i ≤ greatest)
    (f : Int → Option α) : register? least greatest i >>= f = f i := by
  rw [register?, if_pos ⟨low, high⟩]
  rfl

theorem word?_bind {α : Type} {m : Nat} (high : m ≤ 0xffffffffffffffff) (f : Int → Option α) :
    word? m >>= f = f m :=
  register?_bind (Int.natCast_nonneg m) (Int.ofNat_le.mpr high) f

structure Sums where
  diff : Int := 0
  host : Int := 0
  device : Int := 0

namespace Sums

/-- One round of the loop; nothing when a register is too narrow for its number. -/
def add? (s : Sums) (first device second : Nat) : Option Sums := do
  let host ← word? (first / 2 + second / 2 : Nat)
  let apart ← wide? (host - device)
  let diff ← wide? (s.diff + apart)
  let hostSum ← wide? (s.host + host)
  let deviceSum ← wide? (s.device + device)
  return ⟨diff, hostSum, deviceSum⟩

def calibration? (s : Sums) (n : Nat) : Option Calibration := do
  let mean ← wide? (s.diff.tdiv n)
  let offset ← signed? (clampSigned mean)
  let host ← word? (s.host.tdiv n)
  let device ← word? (s.device.tdiv n)
  return ⟨offset, host.toNat, device.toNat, n⟩

def upTo (l : ClockLog) (k : Nat) : Sums where
  diff := ∑ i ∈ Finset.range k, l.apart i
  host := (∑ i ∈ Finset.range k, l.midway i : Nat)
  device := (∑ i ∈ Finset.range k, l.within i : Nat)

variable {l : ClockLog}

theorem add?_upTo {k : Nat} (few : k < 0x100000000) :
    (upTo l k).add? (l.before k) (l.within k) (l.behind k) = some (upTo l (k + 1)) := by
  have host := l.sum_midway_le k
  have device := l.sum_within_le k
  have diff := l.sum_apart k
  have host' : l.midway k < 0x10000000000000000 := ClockLog.midway_lt k
  have device' : l.within k < 0x10000000000000000 := ClockLog.within_lt k
  have midway : l.before k / 2 + l.behind k / 2 = l.midway k := rfl
  unfold add? upTo wide?
  rw [midway, word?_bind (by omega)]
  simp only [Finset.sum_range_succ, Nat.cast_add]
  rw [register?_bind (by omega) (by omega), register?_bind (by omega) (by omega),
    register?_bind (by omega) (by omega), register?_bind (by omega) (by omega)]
  rfl

theorem foldlM_add? {n : Nat} (few : n < 0x100000000) :
    (List.range n).foldlM (fun s i => add? s (l.before i) (l.within i) (l.behind i)) {} =
      some (upTo l n) := by
  induction n with
  | zero => rfl
  | succ k ih =>
    rw [List.range_succ, List.foldlM_append, ih (by omega)]
    change (upTo l k).add? _ _ _ >>= _ = _
    rw [add?_upTo (by omega)]
    rfl

theorem calibration?_upTo {n : Nat} (measured : 1 ≤ n) :
    (upTo l n).calibration? n = some (l.calibration n) := by
  have host := l.sum_midway_le n
  have device := l.sum_within_le n
  have diff := l.sum_apart n
  obtain ⟨low, high⟩ : -0xffffffffffffffff ≤ (∑ i ∈ Finset.range n, l.apart i).tdiv n ∧
      (∑ i ∈ Finset.range n, l.apart i).tdiv n ≤ 0xffffffffffffffff :=
    tdiv_between measured (by omega) (by omega)
  have host' := Nat.div_le_of_le_mul host
  have device' := Nat.div_le_of_le_mul device
  have clamped (i : Int) : -0x8000000000000000 ≤ clampSigned i ∧
      clampSigned i ≤ 0x7fffffffffffffff := by
    unfold clampSigned
    omega
  unfold calibration? upTo wide? signed?
  dsimp only
  rw [register?_bind (by omega) (by omega), register?_bind (clamped _).1 (clamped _).2,
    ← Int.ofNat_tdiv, ← Int.ofNat_tdiv, word?_bind host', word?_bind device']
  rfl

end Sums

def ClockLog.checked? (l : ClockLog) (n : Nat) : Option Calibration :=
  ((List.range n).foldlM (fun s i => Sums.add? s (l.before i) (l.within i) (l.behind i)) {}).bind
    (·.calibration? n)

theorem ClockLog.checked?_eq {l : ClockLog} {n : Nat} (measured : 1 ≤ n) (few : n < 0x100000000) :
    l.checked? n = some (l.calibration n) := by
  rw [checked?, Sums.foldlM_add? few]
  exact Sums.calibration?_upTo measured

/-! ## Accuracy -/

namespace ClockLog.Brackets

variable {l : ClockLog} {n width : Nat} {offset : Int}

theorem apart_between (h : l.Brackets n offset width) {i : Nat} (here : i < n) :
    offset - (width / 2 + 1 : Nat) ≤ l.apart i ∧ l.apart i ≤ offset + (width / 2 : Nat) := by
  have lower := h.lower i here
  have upper := h.upper i here
  have narrow := h.narrow i here
  unfold apart midway
  omega

theorem sum_apart_between (h : l.Brackets n offset width) :
    n * (offset - (width / 2 + 1 : Nat)) ≤ ∑ i ∈ Finset.range n, l.apart i ∧
      ∑ i ∈ Finset.range n, l.apart i ≤ n * (offset + (width / 2 : Nat)) := by
  have lower := Finset.card_nsmul_le_sum (Finset.range n) l.apart _
    fun i member => (h.apart_between (Finset.mem_range.mp member)).1
  have upper := Finset.sum_le_card_nsmul (Finset.range n) l.apart _
    fun i member => (h.apart_between (Finset.mem_range.mp member)).2
  rw [Finset.card_range, nsmul_eq_mul] at lower upper
  exact ⟨lower, upper⟩

/-- Clamping moves the mean towards every offset that 64 bits hold. -/
theorem offset_near (h : l.Brackets n offset width) (measured : 1 ≤ n)
    (low : -0x8000000000000000 ≤ offset) (high : offset ≤ 0x7fffffffffffffff) :
    |(l.calibration n).offset - offset| < (width / 2 : Nat) + 2 := by
  obtain ⟨lower, upper⟩ := h.sum_apart_between
  obtain ⟨lower, upper⟩ := tdiv_between measured lower upper
  unfold calibration clampSigned
  dsimp only
  exact abs_lt.mpr ⟨by omega, by omega⟩

end ClockLog.Brackets

/-- The calibration is the mean of what the brackets show, no register of the loop overflows, and
the offset is nearer to the true one than half the widest bracket and two units more. -/
theorem Clocks.calibrate_accurate {clocks : Clocks} {l : ClockLog} {n : Nat} (measured : 1 ≤ n)
    (few : n < UInt32.size) (shown : l.ShownBy clocks n) :
    (clocks.calibrate n {}).1 = .ok (l.calibration n) ∧
      l.checked? n = some (l.calibration n) ∧
      ∀ (offset : Int) (width : Nat), -0x8000000000000000 ≤ offset → offset ≤ 0x7fffffffffffffff →
        l.Brackets n offset width →
          |(l.calibration n).offset - offset| < (width / 2 : Nat) + 2 := by
  refine ⟨?_, ClockLog.checked?_eq measured few, ?_⟩
  · rw [calibrate_eq measured shown, l.ofBrackets_eq]
  · intro offset width low high brackets
    exact brackets.offset_near measured low high

/-- The host counts from an epoch and the device from its start. The differences of eight brackets
do not fit into 64 bits. -/
theorem Clocks.calibrate_accurate_epoch :
    let l : ClockLog :=
      ⟨fun k => 1700000000000000001 + 10 * .ofNat k, fun k => 1000 + 20 * .ofNat k⟩
    let clocks : Clocks := ⟨fun k => .ok (l.host k).toNat, fun k => .ok (l.device k).toNat⟩
    l.Brackets 8 1699999999999998996 10 ∧ 0x7fffffffffffffff < 8 * l.apart 0 ∧
      (clocks.calibrate 8 {}).1 = .ok (l.calibration 8) ∧ (l.checked? 8).isSome ∧
      |(l.calibration 8).offset - 1699999999999998996| < 7 := by
  intro l clocks
  have brackets : l.Brackets 8 1699999999999998996 10 := ⟨by decide, by decide, by decide⟩
  have shown : l.ShownBy clocks 8 := ⟨fun _ _ => rfl, fun _ _ => rfl⟩
  obtain ⟨read, checked, near⟩ := calibrate_accurate (by decide) (by decide) shown
  refine ⟨brackets, by decide, read, ?_, near _ 10 (by decide) (by decide) brackets⟩
  rw [checked]
  rfl

end SpanWeave
