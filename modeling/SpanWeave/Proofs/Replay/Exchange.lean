import SpanWeave.Proofs.Engine.Apart
import SpanWeave.Proofs.Replay.Desk

set_option autoImplicit false

/-!
# Two parts that change places

What a part does at the desk does not depend on the names of the span ids. So two parts of different
threads that have no correlation id in common do the same in either order, up to the names of the
ids that they are given.
-/
namespace SpanWeave

/-! ## One part -/

namespace Part
variable (p : Part) (k : Setting) (t : ThreadState) (x : Entry) (σ : Renaming) (fresh : SpanId)

theorem move_rename : p.move k (t.rename σ) (x.rename σ) (σ fresh) =
    (p.move k t x fresh).rename σ := by
  cases p with
  | call now c => exact Setting.call_rename t x fresh c now σ k
  | completion c =>
    obtain ⟨disposition, moved⟩ := Setting.completion_rename t x σ k c
    unfold move
    dsimp only
    rw [disposition, moved]
    rfl
  | loose c =>
    obtain ⟨disposition, moved⟩ := Setting.loose_rename t σ k c
    unfold move
    dsimp only
    rw [disposition, moved]
    rfl

variable {p k t x fresh} in
/-- Where no span id is handed out it makes no difference which one would be next. -/
theorem move_fresh (silent : (p.move k t x fresh).draws = false) (other : SpanId) :
    p.move k t x other = p.move k t x fresh := by
  cases p with
  | completion | loose => rfl
  | call now c =>
    change (k.call t x fresh c now).2.draws = false at silent
    change (k.call t x other c now).2 = (k.call t x fresh c now).2
    unfold Setting.call at silent ⊢
    split
    · rfl
    · rename_i passes
      rw [if_neg passes] at silent
      cases domain : c.domain with
      | correlated =>
        cases phase : c.phase with
        | enter =>
          rw [domain, phase] at silent
          cases silent
        | exit => rfl
      | untracked =>
        cases phase : c.phase with
        | enter => rfl
        | exit =>
          rw [domain, phase] at silent
          unfold Setting.exitUntracked at silent ⊢
          cases popped : t.popUntracked? with
          | none => rfl
          | some pair =>
            rw [popped] at silent
            dsimp only at silent ⊢
            generalize (if c.name = Engine.shutdownCall then pair.1 else now) = endsAt at silent ⊢
            by_cases late : endsAt < pair.1
            · rw [if_pos late, if_pos late]
            · rw [if_neg late] at silent
              cases silent

theorem draws_move (other : SpanId) : (p.move k t x other).draws = (p.move k t x fresh).draws := by
  cases silent : (p.move k t x fresh).draws with
  | false => rw [move_fresh silent, silent]
  | true =>
    cases other_silent : (p.move k t x other).draws with
    | true => rfl
    | false => rw [move_fresh other_silent, other_silent] at silent; cases silent

end Part

/-! ## What is done on a thread -/

def Deed.On (track : Track) (d : Deed) : Prop := ∀ n ∈ d.prompt, n.On track

theorem Deferred.on_track (work : Deferred) (track : Track) : ∀ n ∈ work.notices, n.On track := by
  intro n member
  have free := work.free n member
  cases n with
  | completes | records => trivial
  | begins | ends | discards | marks => cases free

theorem Deed.on_spawn (track : Track) (work : Deferred) : (Deed.spawn work).On track :=
  work.on_track track

theorem Deed.on_submit (track : Track) (owner : ThreadId) (work : Deferred) :
    (Deed.submit owner work).On track := work.on_track track

theorem Deed.on_notice {track : Track} {n : Notice} (on : n.On track) :
    (Deed.notice n).On track := List.forall_mem_singleton.mpr on

theorem Deed.OfHost.on {thread : ThreadId} {d : Deed} (h : d.OfHost thread) :
    d.On (.thread thread) := by
  cases h with
  | begins _ own => exact Deed.on_notice own
  | ends | discards => exact Deed.on_notice rfl
  | marks | records => exact Deed.on_notice trivial
  | flush => exact List.forall_mem_nil _
  | sample => exact Deed.on_spawn _ _

/-- A completion opens, ends and discards nothing. -/
theorem Deed.OfDevice.on {d : Deed} (h : d.OfDevice) (track : Track) : d.On track := by
  cases h with
  | completes | marks => exact Deed.on_notice trivial
  | sample => exact Deed.on_submit _ _ _
  | leaf => exact Deed.on_spawn _ _

theorem Part.on_move (p : Part) (k : Setting) (t : ThreadState) (x : Entry) (fresh : SpanId) :
    ∀ d ∈ (p.move k t x fresh).deeds, d.On (.thread t.thread) := by
  intro d member
  cases p with
  | call now c => exact (k.deeds_call t x fresh c now d member).on
  | completion c => exact (k.deeds_completion t x c d member).on _
  | loose c => exact (k.deeds_loose t c d member).on _

/-! ## The desk under renaming -/

section Maps
variable {β γ : Type}

theorem getElem?_put (m : Std.ExtTreeMap CorrelationId β) (id? : Option CorrelationId)
    (entry : Option (Option β)) (id : CorrelationId) :
    (put m id? entry)[id]? = if id? = some id then entry.getD m[id]? else m[id]? := by
  cases id? with
  | none => exact (if_neg nofun).symm
  | some key =>
    by_cases same : key = id
    · subst same
      rw [if_pos rfl]
      rcases entry with _ | _ | value
      · rfl
      · exact Std.ExtTreeMap.getElem?_erase_self
      · exact Std.ExtTreeMap.getElem?_insert_self
    · have differs : compare key id ≠ .eq := mt Std.LawfulEqOrd.compare_eq_iff_eq.mp same
      rw [if_neg (mt Option.some.inj same)]
      rcases entry with _ | _ | value
      · rfl
      · exact Std.ExtTreeMap.getElem?_erase.trans (if_neg differs)
      · exact Std.ExtTreeMap.getElem?_insert.trans (if_neg differs)

theorem put_comm (m : Std.ExtTreeMap CorrelationId β) {a b : Option CorrelationId}
    (apart : ∀ id, a = some id → b ≠ some id) (x y : Option (Option β)) :
    put (put m a x) b y = put (put m b y) a x := by
  refine Std.ExtTreeMap.ext_getElem? fun id => ?_
  rw [getElem?_put, getElem?_put, getElem?_put, getElem?_put]
  by_cases here : a = some id
  · rw [if_pos here, if_neg (apart id here), if_pos here, if_neg (apart id here)]
  · rw [if_neg here, if_neg here]

theorem put_map (m : Std.ExtTreeMap CorrelationId β) (f : β → γ) (id? : Option CorrelationId)
    (entry : Option (Option β)) :
    (put m id? entry).map (fun _ => f) = put (m.map fun _ => f) id? (entry.map (·.map f)) := by
  rcases id? with _ | id
  · rfl
  · rcases entry with _ | _ | value
    · rfl
    · exact map_erase m _ id
    · exact map_insert m _ id value

end Maps

namespace Desk
variable (k : Setting) (d : Desk) (σ τ : Renaming)

def rename : Desk where
  threads thread := (d.threads thread).rename σ
  owners := d.owners
  identities := d.identities.map fun _ identity => identity.rename σ
  allocated := d.allocated
  counts := d.counts

theorem entry_rename (id? : Option CorrelationId) :
    (d.rename σ).entry id? = (d.entry id?).rename σ := by
  cases id? with
  | none => rfl
  | some id =>
    change Entry.mk _ (d.identities.map _)[id]? = _
    rw [Std.ExtTreeMap.getElem?_map]
    rfl

theorem after_rename (thread : ThreadId) (id? : Option CorrelationId) (m : Move) :
    (d.rename σ).after thread id? (m.rename σ) = (d.after thread id? m).rename σ := by
  have threads : Function.update (d.rename σ).threads thread (m.thread.rename σ) =
      fun other => (Function.update d.threads thread m.thread other).rename σ :=
    (Function.comp_update (fun t : ThreadState => t.rename σ) d.threads thread m.thread).symm
  have owners : (m.rename σ).record.map (·.map fun r => (r.name, r.thread)) =
      m.record.map (·.map fun r => (r.name, r.thread)) := by
    rcases m with ⟨_, _ | _ | record, _, _, _⟩ <;> rfl
  have identities : (m.rename σ).record.map (·.map (·.identity)) =
      (m.record.map (·.map (·.identity))).map (·.map (·.rename σ)) := by
    rcases m with ⟨_, _ | _ | record, _, _, _⟩ <;> rfl
  unfold after
  rw [owners, identities]
  unfold rename
  dsimp only
  rw [put_map]
  exact congrArg (fun threads => (⟨threads, _, _, _, _⟩ : Desk)) threads

/-- A move under other ids, if the next id stays or is not handed out. -/
theorem move_rename (x : ThreadId × Part)
    (next : (d.move k x).draws = true → σ (d.allocated + 1) = d.allocated + 1) :
    (d.rename σ).move k x = (d.move k x).rename σ := by
  have renamed := x.2.move_rename k (d.threads x.1) (d.entry x.2.id?) σ (d.allocated + 1)
  rw [← entry_rename] at renamed
  unfold move at next ⊢
  cases draws : (x.2.move k (d.threads x.1) (d.entry x.2.id?) (d.allocated + 1)).draws with
  | true =>
    rw [next draws] at renamed
    exact renamed
  | false =>
    refine Eq.trans ?_ renamed
    have silent : (x.2.move k ((d.rename σ).threads x.1) ((d.rename σ).entry x.2.id?)
        (σ (d.allocated + 1))).draws = false := (congrArg Move.draws renamed).trans draws
    exact Part.move_fresh silent _

theorem next_rename (x : ThreadId × Part)
    (next : (d.move k x).draws = true → σ (d.allocated + 1) = d.allocated + 1) :
    (d.rename σ).next k x = (d.next k x).rename σ := by
  rw [Desk.next, move_rename k d σ x next, after_rename]
  rfl

theorem allocated_run (xs : List (ThreadId × Part)) : d.allocated ≤ (d.run k xs).allocated := by
  refine List.foldlRecOn (motive := fun d' : Desk => d.allocated ≤ d'.allocated) _ _ (Nat.le_refl _)
    fun d' before x _ => Nat.le_trans before (Nat.le_add_right _ _)

theorem run_rename (xs : List (ThreadId × Part))
    (still : ∀ id, d.allocated < id → id ≤ (d.run k xs).allocated → σ id = id) :
    (d.rename σ).run k xs = (d.run k xs).rename σ ∧
      (d.rename σ).deeds k xs = (d.deeds k xs).map (Deed.rename σ) := by
  induction xs generalizing d with
  | nil => exact ⟨rfl, rfl⟩
  | cons x xs ih =>
    have later := allocated_run k (d.next k x) xs
    have first : (d.move k x).draws = true → σ (d.allocated + 1) = d.allocated + 1 := by
      intro draws
      have drawn : (d.next k x).allocated = d.allocated + 1 := by
        change d.allocated + (if (d.move k x).draws then 1 else 0) = _
        rw [if_pos draws]
      rw [drawn] at later
      exact still _ (Nat.lt_succ_self _) later
    obtain ⟨run, deeds⟩ := ih (d.next k x) fun id above =>
      still id (Nat.lt_of_le_of_lt (Nat.le_add_right _ _) above)
    constructor
    · change ((d.rename σ).next k x).run k xs = _
      rw [next_rename k d σ x first]
      exact run
    · rw [Desk.deeds, Desk.deeds, next_rename k d σ x first, move_rename k d σ x first, deeds,
        List.map_append]
      rfl

end Desk

/-! ## In either order -/

/-- Parts of different threads that do not have an id in common. -/
structure Apart (x y : ThreadId × Part) : Prop where
  threads : x.1 ≠ y.1
  ids : ∀ id, x.2.id? = some id → y.2.id? ≠ some id

theorem Apart.symm {x y : ThreadId × Part} (apart : Apart x y) : Apart y x :=
  ⟨apart.threads.symm, fun id here there => apart.ids id there here⟩

namespace Desk
variable {k : Setting} {d : Desk} {x y : ThreadId × Part}

theorem after_comm (apart : Apart x y) (m w : Move) :
    (d.after x.1 x.2.id? m).after y.1 y.2.id? w = (d.after y.1 y.2.id? w).after x.1 x.2.id? m := by
  unfold after
  dsimp only
  rw [Function.update_comm apart.threads, put_comm _ apart.ids, put_comm _ apart.ids,
    Nat.add_right_comm, Counts.add_right_comm]

/-- What the other thread does beside a part only says which id is next. -/
theorem move_after (apart : Apart x y) (m : Move) : (d.after x.1 x.2.id? m).move k y =
    y.2.move k (d.threads y.1) (d.entry y.2.id?) ((d.after x.1 x.2.id? m).allocated + 1) := by
  have thread : (d.after x.1 x.2.id? m).threads y.1 = d.threads y.1 :=
    Function.update_of_ne apart.threads.symm _ _
  have entry : (d.after x.1 x.2.id? m).entry y.2.id? = d.entry y.2.id? := by
    cases asked : y.2.id? with
    | none => rfl
    | some id =>
      have other : x.2.id? ≠ some id := fun same => apart.ids id same asked
      unfold Desk.entry after
      dsimp only
      rw [getElem?_put, getElem?_put, if_neg other, if_neg other]
  rw [Desk.move, thread, entry]

theorem allocated_next (x : ThreadId × Part) :
    (d.next k x).allocated = d.allocated + if (d.move k x).draws then 1 else 0 := rfl

theorem move_next_of_silent (apart : Apart x y)
    (silent : ¬((d.move k x).draws = true ∧ (d.move k y).draws = true)) :
    (d.next k x).move k y = d.move k y := by
  refine (move_after apart _).trans ?_
  by_cases draws : (d.move k x).draws = true
  · exact Part.move_fresh (Bool.eq_false_iff.mpr fun also => silent ⟨draws, also⟩) _
  · change Part.move k _ _ ((d.next k x).allocated + 1) _ = _
    rw [allocated_next, if_neg draws]
    rfl

theorem move_next_of_draws (apart : Apart x y) (draws : (d.move k x).draws = true) :
    (d.next k x).move k y =
      y.2.move k (d.threads y.1) (d.entry y.2.id?) (d.allocated + 2) := by
  refine (move_after apart _).trans ?_
  change Part.move k _ _ ((d.next k x).allocated + 1) _ = _
  rw [allocated_next, if_pos draws]

/-- Where a renaming leaves the desk alone, all that it does is to rename the id that is next. -/
theorem move_renamed {σ : Renaming} (same : d.rename σ = d) (z : ThreadId × Part)
    (fresh : SpanId) :
    z.2.move k (d.threads z.1) (d.entry z.2.id?) (σ fresh) =
      (z.2.move k (d.threads z.1) (d.entry z.2.id?) fresh).rename σ := by
  have moved := z.2.move_rename k (d.threads z.1) (d.entry z.2.id?) σ fresh
  have thread : (d.threads z.1).rename σ = d.threads z.1 :=
    congrArg (fun d : Desk => d.threads z.1) same
  rw [← entry_rename, same, thread] at moved
  exact moved

/-- Of two parts either one hands out no id, or they hand out the next two. -/
theorem moves_swapped (apart : Apart x y) : ∃ σ : Renaming,
    (∀ id, id ≤ d.allocated → σ id = id) ∧
      (∀ id, ((d.next k x).next k y).allocated < id → σ id = id) ∧
      (d.rename σ = d → (d.next k y).move k x = (d.move k x).rename σ ∧
        d.move k y = ((d.next k x).move k y).rename σ) := by
  -- where both hand out an id, the next two change places; else the one id is the same either way
  by_cases both : (d.move k x).draws = true ∧ (d.move k y).draws = true
  · have first : (d.next k x).move k y = _ := move_next_of_draws apart both.1
    have second : (d.next k y).move k x = _ := move_next_of_draws apart.symm both.2
    let σ := Renaming.swap d.allocated (d.allocated + 1)
    have others : ∀ id, id ≠ d.allocated + 1 → id ≠ d.allocated + 2 → σ id = id :=
      fun _ => Equiv.swap_apply_of_ne_of_ne
    refine ⟨σ, fun id below => others id (by omega) (by omega), fun id above => ?_, fun same => ?_⟩
    · have drawn : ((d.next k x).move k y).draws = true := by
        rw [first]
        exact (Part.draws_move _ _ _ _ (d.allocated + 1) _).trans both.2
      rw [allocated_next, allocated_next, if_pos both.1, if_pos drawn] at above
      exact others id (by omega) (by omega)
    · have up : σ (d.allocated + 1) = d.allocated + 2 := Equiv.swap_apply_left _ _
      have down : σ (d.allocated + 2) = d.allocated + 1 := Equiv.swap_apply_right _ _
      have higher := move_renamed (k := k) same x (d.allocated + 1)
      have lower := move_renamed (k := k) same y (d.allocated + 2)
      rw [up] at higher
      rw [down] at lower
      rw [first, second]
      exact ⟨higher, lower⟩
  · refine ⟨.refl, fun _ _ => rfl, fun _ _ => rfl, fun same => ?_⟩
    have still : ∀ z, (d.move k z).rename .refl = d.move k z := fun z =>
      (move_renamed same z (d.allocated + 1)).symm
    rw [move_next_of_silent apart both, move_next_of_silent apart.symm (mt And.symm both), still,
      still]
    exact ⟨rfl, rfl⟩

theorem next_swapped (apart : Apart x y) {σ : Renaming} (same : d.rename σ = d)
    (first : (d.next k y).move k x = (d.move k x).rename σ)
    (second : d.move k y = ((d.next k x).move k y).rename σ) :
    (d.next k y).next k x = ((d.next k x).next k y).rename σ :=
  calc (d.next k y).next k x
      = (d.after y.1 y.2.id? (((d.next k x).move k y).rename σ)).after x.1 x.2.id?
          ((d.move k x).rename σ) := by
        rw [← second, ← first]
        rfl
    _ = ((d.rename σ).after x.1 x.2.id? ((d.move k x).rename σ)).after y.1 y.2.id?
          (((d.next k x).move k y).rename σ) := by
        rw [after_comm apart.symm, same]
    _ = ((d.next k x).next k y).rename σ := by
        rw [after_rename, after_rename]
        rfl

end Desk

end SpanWeave
