import SpanWeave.Recorded
import SpanWeave.Proofs.Json.Fields

set_option autoImplicit false

/-!
# Recorded events are read back

The value that an event is written as is shallow, and the event comes back from it, with its kind,
its call or its batch, and all that may be left out.
-/
namespace SpanWeave
open Json

/-! ## Calls -/

namespace HostCall

theorem slots_arguments (c : HostCall) : slots ["kernel_name", "queue"] c.argumentsToJson =
    some [c.kernel.map .text, c.queue.map ofWord64] := by
  obtain ⟨_, _, _, _, kernel, queue, _⟩ := c
  cases kernel <;> cases queue <;> rfl

theorem argumentsOfJson_toJson (c : HostCall) :
    argumentsOfJson c.argumentsToJson = some (c.kernel, c.queue) := by
  rw [argumentsOfJson, slots_arguments]
  simp only [Option.bind_eq_bind, Option.bind_some, optional_text, optional_word64]

theorem shallow_toJson (c : HostCall) : c.toJson.Shallow 2 := by
  have arguments : c.argumentsToJson.Shallow 1 := shallow_object (List.forall_mem_append.mpr
    ⟨shallow_member? (shallow_text 0) _ c.kernel, shallow_member? (shallow_ofWord64 0) _ c.queue⟩)
  refine shallow_object ?_
  simp only [List.forall_mem_cons]
  exact ⟨shallow_ofWord32 .., shallow_text .., shallow_text .., shallow_ofWord64 .., arguments,
    shallow_text .., nofun⟩

theorem slots_toJson (c : HostCall) : ∃ phase domain,
    slots ["operation_id", "name", "phase", "correlation_id", "args", "domain"] c.toJson =
      some [some (ofWord32 c.operation), some (.text c.name), some phase,
        some (ofWord64 c.correlation), some c.argumentsToJson, some domain] ∧
    oneOf true [("enter", .enter), ("exit", .exit)] phase = some c.phase ∧
    oneOf true [("correlated", .correlated), ("untracked", .untracked)] domain = some c.domain := by
  obtain ⟨_, _, phase, _, _, _, domain⟩ := c
  cases phase <;> cases domain <;> exact ⟨.text _, .text _, rfl, rfl, rfl⟩

/-- A call is read back from what it is written as. -/
theorem ofJson_toJson (c : HostCall) : ofJson true c.toJson = some c := by
  obtain ⟨phase, domain, slots, readPhase, readDomain⟩ := c.slots_toJson
  rw [ofJson, slots]
  simp only [Option.bind_eq_bind, Option.bind_some, withDefault, required, text,
    word32_ofWord32, word64_ofWord64, argumentsOfJson_toJson, readPhase, readDomain]

end HostCall

/-! ## Completions -/

namespace Completion

theorem slots_toJson (c : Completion) : ∃ domain,
    slots ["correlation_id", "domain", "op", "op_name", "begin_ns", "end_ns", "device_id",
        "queue_id"] c.toJson =
      some [some (ofWord64 c.correlation), some domain, some (ofWord32 c.code),
        c.opName.map .text, some (ofWord64 c.beginsAt), some (ofWord64 c.endsAt),
        some (ofWord32 c.device), some (ofWord64 c.queue)] ∧
    oneOf true [("device_ops", .deviceOps), ("other", .other)] domain = some c.domain := by
  obtain ⟨_, domain, _, opName, _, _, _, _⟩ := c
  cases opName <;> cases domain <;> exact ⟨.text _, rfl, rfl⟩

/-- A completion is read back from what it is written as. -/
theorem ofJson_toJson (c : Completion) : ofJson true c.toJson = some c := by
  obtain ⟨domain, slots, read⟩ := c.slots_toJson
  rw [ofJson, slots]
  simp only [Option.bind_eq_bind, Option.bind_some, withDefault, required, word64_ofWord64,
    word32_ofWord32, optional_text, read]

theorem shallow_toJson (c : Completion) : c.toJson.Shallow 1 := by
  refine shallow_object (List.forall_mem_append.mpr ⟨List.forall_mem_append.mpr ⟨?_, ?_⟩, ?_⟩)
  · simp only [List.forall_mem_cons]
    exact ⟨shallow_ofWord64 .., shallow_text .., shallow_ofWord32 .., nofun⟩
  · exact shallow_member? (shallow_text 0) _ c.opName
  · simp only [List.forall_mem_cons]
    exact ⟨shallow_ofWord64 .., shallow_ofWord64 .., shallow_ofWord32 .., shallow_ofWord64 ..,
      nofun⟩

end Completion

/-! ## Events -/

namespace RecordedEvent

theorem shallow_batch (t : ThreadId) (cs : List Completion) :
    ∀ m ∈ batchMembers t cs, m.2.Shallow 2 := by
  have records : ∀ v ∈ cs.map Completion.toJson, v.Shallow 1 :=
    List.forall_mem_map.mpr fun c _ => c.shallow_toJson
  simp only [batchMembers, List.forall_mem_cons]
  exact ⟨shallow_ofWord64 .., shallow_array records, nofun⟩

/-- The value of an event is made of what can be read back. -/
theorem shallow_toJson (e : RecordedEvent) : e.toJson.Shallow 3 := by
  cases e with
  | call t time c =>
    refine shallow_object ?_
    simp only [List.forall_mem_cons]
    exact ⟨shallow_text .., shallow_ofWord64 .., shallow_ofWord64 .., c.shallow_toJson, nofun⟩
  | batch t cs =>
    exact shallow_object (List.forall_mem_cons.mpr ⟨shallow_text .., shallow_batch t cs⟩)
  | untracked t cs =>
    exact shallow_object (List.forall_mem_cons.mpr ⟨shallow_text .., shallow_batch t cs⟩)

theorem batchOfJson_batchMembers (t : ThreadId) (cs : List Completion) :
    batchOfJson (.object (batchMembers t cs)) = some (t, cs) := by
  have slots : slots ["thread", "records"] (.object (batchMembers t cs)) =
    some [some (ofWord64 t), some (.array (cs.map Completion.toJson))] := rfl
  rw [batchOfJson, slots]
  simp only [Option.bind_eq_bind, Option.bind_some, required, word64_ofWord64,
    listOf_map Completion.ofJson_toJson]

/-- An event is read back from what it is written as. -/
theorem ofJson_toJson (e : RecordedEvent) : ofJson e.toJson = some e := by
  have fits : ¬ depthBound < e.toJson.depth :=
    Nat.not_lt.mpr (Nat.le_trans e.shallow_toJson.depth_le (by decide))
  have readable : ¬ ((!e.toJson.isSound || decide (depthBound < e.toJson.depth)) = true) := by
    rw [e.shallow_toJson.plain.isSound, decide_eq_false fits]
    decide
  unfold ofJson
  rw [if_neg readable]
  cases e with
  | call t time c =>
    have kind : splitKind (call t time c).toJson = some ("cpu", .object [("thread", ofWord64 t),
      ("ts", ofWord64 time), ("event", c.toJson)]) := rfl
    have slots : slots ["thread", "ts", "event"] (.object [("thread", ofWord64 t),
        ("ts", ofWord64 time), ("event", c.toJson)]) =
      some [some (ofWord64 t), some (ofWord64 time), some c.toJson] := rfl
    rw [kind]
    simp only [Option.bind_eq_bind, Option.bind_some, slots, required, word64_ofWord64,
      HostCall.ofJson_toJson]
  | batch t cs =>
    have kind : splitKind (batch t cs).toJson = some ("device", .object (batchMembers t cs)) := rfl
    rw [kind]
    simp only [Option.bind_eq_bind, Option.bind_some, batchOfJson_batchMembers, Option.map_some]
  | untracked t cs =>
    have kind : splitKind (untracked t cs).toJson =
      some ("untracked", .object (batchMembers t cs)) := rfl
    rw [kind]
    simp only [Option.bind_eq_bind, Option.bind_some, batchOfJson_batchMembers, Option.map_some]

/-- The text of an event stands for it. -/
theorem ofJson_parse_compact (e : RecordedEvent) :
    (parse (compact e.toJson)).bind ofJson = some e := by
  rw [e.shallow_toJson.plain.parse_compact, Option.bind_some, ofJson_toJson]

end RecordedEvent

end SpanWeave
