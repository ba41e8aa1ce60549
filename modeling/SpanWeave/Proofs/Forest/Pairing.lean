import SpanWeave.Forest.Assembly

set_option autoImplicit false

/-!
# Pairing

One more mark at a time: what it does to the pairing and to the table of names. The nodes of a
forest are those of the pairing, but for their links.
-/
namespace SpanWeave

def Node.bare (n : Node) : Node := { n with parent := none, children := [] }

theorem Forest.bare_ofNodes (nodes : Array Node) (defects : List Defect) :
    (ofNodes nodes defects).nodes.toList.map Node.bare = nodes.toList.map Node.bare := by
  refine List.ext_getElem? fun i => ?_
  simp only [ofNodes, List.getElem?_map, Array.getElem?_toList, Array.getElem?_mapIdx,
    Option.map_map]
  rfl

theorem Node.bare_filter {nodes others : List Node}
    (same : nodes.map Node.bare = others.map Node.bare) (kind : SpanKind) :
    (nodes.filter (·.kind == kind)).map Node.bare =
      (others.filter (·.kind == kind)).map Node.bare := by
  have filtered := congrArg (List.filter (·.kind == kind)) same
  rwa [List.filter_map, List.filter_map] at filtered

namespace Pairing
variable {names : HashNames}

theorem nodes_host {p : Pairing} (hosts : ∀ n ∈ p.hosts, n.kind = .cpu) :
    (p.nodes names).toList.filter (·.kind == .cpu) = p.hosts.toList := by
  have cpu : p.hosts.toList.filter (·.kind == .cpu) = p.hosts.toList :=
    List.filter_eq_self.mpr fun n member =>
      beq_iff_eq.mpr (hosts n (Array.mem_toList_iff.mp member))
  have device :
      (p.devices.toList.map (Mark.toNode names .device)).filter (·.kind == .cpu) = [] := by
    refine List.filter_eq_nil_iff.mpr fun n member => ?_
    obtain ⟨m, _, rfl⟩ := List.mem_map.mp member
    exact Bool.false_ne_true
  rw [nodes, Array.toList_append, Array.toList_map, List.filter_append, cpu, device,
    List.append_nil]

theorem nodes_device {p : Pairing} (hosts : ∀ n ∈ p.hosts, n.kind = .cpu) :
    (p.nodes names).toList.filter (·.kind == .device) =
      p.devices.toList.map (Mark.toNode names .device) := by
  have cpu : p.hosts.toList.filter (·.kind == .device) = [] := by
    refine List.filter_eq_nil_iff.mpr fun n member => ?_
    rw [hosts n (Array.mem_toList_iff.mp member)]
    decide
  have device : (p.devices.toList.map (Mark.toNode names .device)).filter (·.kind == .device) =
      p.devices.toList.map (Mark.toNode names .device) := by
    refine List.filter_eq_self.mpr fun n member => ?_
    obtain ⟨m, _, rfl⟩ := List.mem_map.mp member
    rfl
  rw [nodes, Array.toList_append, Array.toList_map, List.filter_append, cpu, device,
    List.nil_append]

/-- The host nodes of a forest are those of the pairing, but for their links. -/
theorem bare_hosts {p : Pairing} (hosts : ∀ n ∈ p.hosts, n.kind = .cpu) :
    ((Forest.ofNodes (p.nodes names) p.defects).nodes.toList.filter
      (·.kind == .cpu)).map Node.bare =
      p.hosts.toList.map Node.bare := by
  rw [Node.bare_filter (Forest.bare_ofNodes _ _), nodes_host hosts]

theorem bare_devices {p : Pairing} (hosts : ∀ n ∈ p.hosts, n.kind = .cpu) :
    ((Forest.ofNodes (p.nodes names) p.defects).nodes.toList.filter (·.kind == .device)).map
        Node.bare = (p.devices.toList.map (Mark.toNode names .device)).map Node.bare := by
  rw [Node.bare_filter (Forest.bare_ofNodes _ _), nodes_device hosts]

theorem ofMarks_append (names : HashNames) (marks : List Mark) (m : Mark) :
    ofMarks names (marks ++ [m]) = (ofMarks names marks).add names m := List.foldl_append

theorem add_hostBegin (p : Pairing) (name : String) (thread : ThreadId) (identity : Identity)
    (correlation : Option CorrelationId) (time : Nanos) (queue : Option QueueId) :
    let m := Mark.hostBegin name thread identity correlation time queue
    p.add names m = { p with opened := p.opened.insert identity.span m } := rfl

theorem add_hostEnd {p : Pairing} {identity : Identity} {start : Mark}
    (opened : p.opened[identity.span]? = some start) (name : String) (thread : ThreadId)
    (time : Nanos) : p.add names (.hostEnd name thread identity time) =
      { p with
        hosts := p.hosts.push { start.toNode names .cpu with endsAt := time }
        opened := p.opened.erase identity.span } := by
  have opened : p.opened[(Mark.hostEnd name thread identity time).span]? = some start := opened
  have side : (Mark.hostEnd name thread identity time).side = .host := rfl
  have phase : (Mark.hostEnd name thread identity time).phase = .ends := rfl
  simp only [add, side, phase, opened]
  rfl

theorem add_onDevice (p : Pairing) (name : String) (thread : ThreadId) (launch : Identity)
    (correlation : CorrelationId) (beginsAt endsAt : Nanos) (queue : QueueId) (lap : Nat) :
    let m := Mark.onDevice name thread launch correlation beginsAt endsAt queue lap
    p.add names m = { p with devices := p.devices.push m } := rfl

end Pairing

namespace HashNames
variable {names : HashNames} {used : List String}

/-- The table has a first name for the hash of every used name, and no other names. -/
structure Knows (names : HashNames) (used : List String) : Prop where
  known : ∀ name ∈ used, ∃ first, names[nameHash name]? = some first
  first : ∀ (hash : UInt64) (first : String), names[hash]? = some first →
    first ∈ used ∧ nameHash first = hash

theorem Knows.empty : Knows ∅ [] :=
  ⟨fun _ member => absurd member List.not_mem_nil, fun hash first eq => by
    rw [Std.ExtTreeMap.getElem?_empty] at eq
    cases eq⟩

/-- The first name given for a hash stays. -/
theorem Knows.insert {used' : List String} (h : names.Knows used) {name : String}
    (more : ∀ other, other ∈ used' ↔ other ∈ used ∨ other = name) :
    Knows (names.insertIfNew (nameHash name) name) used' := by
  refine ⟨fun other member => ?_, fun hash first eq => ?_⟩
  · rw [Std.ExtTreeMap.getElem?_insertIfNew]
    split
    · exact ⟨name, rfl⟩
    · rename_i old
      rcases (more other).mp member with before | rfl
      · exact h.known other before
      · by_cases present : nameHash other ∈ names
        · rw [Std.ExtTreeMap.mem_iff_isSome_getElem?] at present
          exact Option.isSome_iff_exists.mp present
        · exact absurd ⟨Std.ReflCmp.compare_self, present⟩ old
  · rw [Std.ExtTreeMap.getElem?_insertIfNew] at eq
    split at eq
    · rename_i new
      cases eq
      exact ⟨(more name).mpr (.inr rfl), Std.LawfulEqCmp.eq_of_compare new.1⟩
    · obtain ⟨before, hash_eq⟩ := h.first hash first eq
      exact ⟨(more first).mpr (.inl before), hash_eq⟩

/-- Where no two used names share a hash, a hash stands for the name it was made of. -/
theorem Knows.resolve {name : String} (h : names.Knows used)
    (injective : ∀ a ∈ used, ∀ b ∈ used, nameHash a = nameHash b → a = b) (member : name ∈ used) :
    names.resolve (nameHash name) = name := by
  obtain ⟨first, eq⟩ := h.known name member
  obtain ⟨before, hash_eq⟩ := h.first _ first eq
  unfold HashNames.resolve
  rw [Std.ExtTreeMap.getD_eq_getD_getElem?, eq, Option.getD_some]
  exact injective first before name member hash_eq

end HashNames

end SpanWeave
