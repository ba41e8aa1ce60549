import SpanWeave.Proofs.Forest.Heaviest

set_option autoImplicit false

/-!
# Delayed devices

Marks whose intervals on devices all come so much later give a forest of the same shape. Siblings
may change places, but nodes are linked as before, nothing else is wrong with them, and the critical
path takes the same time.
-/
namespace SpanWeave

def SpanKind.delay (n : Nat) : SpanKind → Nanos → Nanos
  | .cpu, time => time
  | .device, time => time + n

theorem SpanKind.delay_sub (n : Nat) (kind : SpanKind) (beginsAt endsAt : Nanos) :
    kind.delay n endsAt - kind.delay n beginsAt = endsAt - beginsAt := by
  cases kind with
  | cpu => rfl
  | device => exact Nat.add_sub_add_right _ _ _

def MarkSide.kind : MarkSide → SpanKind
  | .host => .cpu
  | .device => .device

def Mark.delay (n : Nat) (m : Mark) : Mark :=
  { m with
    beginsAt := m.side.kind.delay n m.beginsAt
    endsAt := m.side.kind.delay n m.endsAt }

theorem Mark.delay_of_host {m : Mark} (host : m.side = .host) (n : Nat) : m.delay n = m := by
  cases m
  cases host
  rfl

def Node.delay (n : Nat) (x : Node) : Node :=
  { x with beginsAt := x.kind.delay n x.beginsAt, endsAt := x.kind.delay n x.endsAt }

theorem Node.delay_of_host {x : Node} (host : x.kind = .cpu) (n : Nat) : x.delay n = x := by
  cases x
  cases host
  rfl

theorem Node.duration_delay (n : Nat) (x : Node) : (x.delay n).duration = x.duration :=
  x.kind.delay_sub n x.beginsAt x.endsAt

/-! ## Pairing -/

namespace Pairing
variable {names : HashNames}

def delay (n : Nat) (p : Pairing) : Pairing := { p with devices := p.devices.map (Mark.delay n) }

theorem add_delay (n : Nat) (p : Pairing) (m : Mark) :
    (p.delay n).add names (m.delay n) = (p.add names m).delay n := by
  cases side : m.side with
  | device =>
    have added : ∀ (q : Pairing) (m : Mark), m.side = .device →
        q.add names m = { q with devices := q.devices.push m } := by
      intro q m side
      unfold add
      rw [side]
    rw [added _ (m.delay n) side, added p m side, delay, delay, Array.map_push]
  | host =>
    rw [Mark.delay_of_host side]
    unfold add
    rw [side]
    cases m.phase with
    | begins => rfl
    | whole => rfl
    | ends =>
      have same : (p.delay n).opened = p.opened := rfl
      dsimp only
      rw [same]
      cases p.opened[m.span]? <;> rfl

theorem ofMarks_delay (n : Nat) (marks : List Mark) :
    ofMarks names (marks.map (Mark.delay n)) = (ofMarks names marks).delay n := by
  unfold ofMarks
  induction marks using List.reverseRecOn with
  | nil => simp [delay]
  | append_singleton marks m ih =>
    rw [List.map_append, List.foldl_append, List.foldl_append, ih]
    exact add_delay n _ m

/-- Hosts are nodes of the host, and devices are marks of devices. -/
def Sided (p : Pairing) : Prop :=
  (∀ x ∈ p.hosts, x.kind = .cpu) ∧ ∀ m ∈ p.devices, m.side = .device

theorem sided_add {p : Pairing} (h : p.Sided) (m : Mark) : (p.add names m).Sided := by
  obtain ⟨hosts, devices⟩ := h
  have pushed : ∀ x : Node, x.kind = .cpu → ∀ y ∈ p.hosts.push x, y.kind = .cpu := by
    intro x kind y member
    rcases Array.mem_push.mp member with old | rfl
    · exact hosts y old
    · exact kind
  unfold add
  cases side : m.side with
  | device =>
    refine ⟨hosts, fun m' member => ?_⟩
    rcases Array.mem_push.mp member with old | rfl
    · exact devices m' old
    · exact side
  | host =>
    cases m.phase with
    | begins => exact ⟨hosts, devices⟩
    | whole => exact ⟨pushed _ rfl, devices⟩
    | ends =>
      dsimp only
      split
      · exact ⟨pushed _ rfl, devices⟩
      · exact ⟨hosts, devices⟩

theorem sided_ofMarks (names : HashNames) (marks : List Mark) : (ofMarks names marks).Sided :=
  List.foldlRecOn (motive := Sided) _ _
    ⟨fun x member => absurd member (Array.not_mem_empty x),
      fun m member => absurd member (Array.not_mem_empty m)⟩
    fun _ sided m _ => sided_add sided m

theorem nodes_delay {p : Pairing} (sided : p.Sided) (n : Nat) :
    (p.delay n).nodes names = (p.nodes names).map (Node.delay n) := by
  obtain ⟨hosts, devices⟩ := sided
  unfold nodes delay
  rw [Array.map_append, Array.map_map, Array.map_map]
  congr 1
  · refine ((Array.map_congr_left fun x member => ?_).trans (Array.map_id _)).symm
    exact Node.delay_of_host (hosts x member) n
  · refine Array.map_congr_left fun m member => ?_
    change (m.delay n).toNode names .device = (m.toNode names .device).delay n
    unfold Mark.delay
    rw [devices m member]
    rfl

end Pairing

/-! ## Assembly -/

namespace Forest

theorem hostIndex_delay (n : Nat) (nodes : Array Node) :
    hostIndex (nodes.map (Node.delay n)) = hostIndex nodes := by
  unfold hostIndex
  rw [Array.toList_map, List.zipIdx_map, List.foldl_map]
  rfl

theorem link?_delay (index : Std.ExtTreeMap SpanId Nat) (i n : Nat) (x : Node) :
    link? index i (x.delay n) = link? index i x := rfl

theorem linkDefect?_delay (nodes : Array Node) (index : Std.ExtTreeMap SpanId Nat) (i n : Nat)
    (x : Node) :
    linkDefect? (nodes.map (Node.delay n)) index i (x.delay n) = linkDefect? nodes index i x := by
  have found : (link? index i x).bind ((nodes.map (Node.delay n))[·]?) =
      ((link? index i x).bind (nodes[·]?)).map (Node.delay n) := by
    cases link? index i x with
    | none => rfl
    | some j => exact Array.getElem?_map
  have parent : (x.delay n).parentSpan = x.parentSpan := rfl
  unfold linkDefect?
  rw [link?_delay, found, parent]
  cases x.parentSpan <;> cases (link? index i x).bind (nodes[·]?) <;> rfl

theorem defects_delay (nodes : Array Node) (defects : List Defect) (n : Nat) :
    (ofNodes (nodes.map (Node.delay n)) defects).defects = (ofNodes nodes defects).defects := by
  unfold ofNodes
  dsimp only
  rw [hostIndex_delay, Array.toList_map, List.zipIdx_map, List.filterMap_map]
  refine congrArg (defects ++ ·) (List.filterMap_congr fun x _ => ?_)
  exact linkDefect?_delay nodes _ x.2 n x.1

theorem sameLinks_delay (nodes : Array Node) (defects : List Defect) (n : Nat) :
    (ofNodes nodes defects).SameLinks (ofNodes (nodes.map (Node.delay n)) defects) := by
  intro i
  rw [node?_ofNodes, node?_ofNodes, hostIndex_delay, Array.getElem?_map, Option.map_map,
    Option.map_map, Option.map_map]
  refine congrArg (Option.map · nodes[i]?) (funext fun x => ?_)
  exact Prod.ext (link?_delay _ i n x) (x.duration_delay n)

end Forest

def MarkLog.delay (n : Nat) (l : MarkLog) : MarkLog :=
  { l with marks := l.marks.map (Mark.delay n) }

theorem MarkLog.delay_push (n : Nat) (l : MarkLog) (name : String) (m : Mark) :
    (l.delay n).push name (m.delay n) = (l.push name m).delay n := by
  unfold push delay
  rw [Array.map_push]
  rfl

theorem MarkLog.forest_delay (n : Nat) (l : MarkLog) :
    (l.delay n).forest.defects = l.forest.defects ∧ l.forest.SameLinks (l.delay n).forest := by
  let p := Pairing.ofMarks l.names l.marks.toList
  have forest : (l.delay n).forest =
      Forest.ofNodes ((p.nodes l.names).map (Node.delay n)) p.defects := by
    rw [← Pairing.nodes_delay (Pairing.sided_ofMarks l.names l.marks.toList)]
    unfold MarkLog.forest Forest.ofMarks delay
    dsimp only
    rw [Array.toList_map, Pairing.ofMarks_delay]
    rfl
  rw [forest]
  exact ⟨Forest.defects_delay _ _ n, Forest.sameLinks_delay _ _ n⟩

/-- Critical paths take the same time if both are found. -/
theorem MarkLog.total_delay {n : Nat} {l : MarkLog} {path path' : CriticalPath}
    (found : l.forest.criticalPath = .ok path)
    (found' : (l.delay n).forest.criticalPath = .ok path') : path'.total = path.total :=
  (l.forest_delay n).2.total (Forest.linked_ofNodes _ _) (Forest.linked_ofNodes _ _) found found'

end SpanWeave
