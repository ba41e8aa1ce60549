import SpanWeave.Proofs.WorkQueue.Pool

set_option autoImplicit false

/-!
# A flush is a barrier

Whatever the order in which the threads take their steps: what went into a channel comes out of it
in the same order, a worker runs one job after the other, and the jobs of one owner go through one
channel. So they run in the order in which they were sent, and when a flush returns, those that were
sent before its barrier have run.
-/
namespace SpanWeave
variable {α : Type}

namespace Pool

/-! ## What is sent -/

def Addressed (n : Nat) (p : Parcel α) : Prop :=
  ∀ owner, p.owner = some owner → p.lane = owner.toNat % n

theorem addressed_address (q : WorkQueue α) (owner : Option ThreadId) (j : Job α) :
    Addressed q.workers (q.address owner j) := by
  rintro o rfl
  exact q.laneOf_eq o

/-- Letters are numbered as they are sent, and parcels of an owner go to the owner's worker. -/
structure Filed (n : Nat) (t : List (Event α)) (s : Pool α) : Prop where
  workers : s.books.workers = n
  drafts : ∀ thread, ∀ p ∈ (s.outbox thread).draft, Addressed n p
  addressed : ∀ l ∈ dealt .sends t, Addressed n l.parcel
  numbers : (dealt .sends t).map (·.number) = List.range s.sent

namespace Filed
variable {n : Nat} {t : List (Event α)} {s s' : Pool α} {e : Event α}

theorem drafts_write (h : Filed n t s) (thread : Option Nat) {outbox : Outbox α}
    (fits : ∀ p ∈ outbox.draft, Addressed n p) :
    ∀ other, ∀ p ∈ ((s.write thread outbox).outbox other).draft, Addressed n p :=
  (Function.forall_update_iff s.outbox fun _ outbox => ∀ p ∈ outbox.draft, Addressed n p).mpr
    ⟨fits, fun other _ => h.drafts other⟩

/-- Nothing is sent in this step. -/
theorem quiet (h : Filed n t s) (unsent : e.letter? .sends = none)
    (same : s'.books.workers = s.books.workers) (sent : s'.sent = s.sent)
    (drafts : ∀ thread, ∀ p ∈ (s'.outbox thread).draft, Addressed n p) :
    Filed n (t ++ [e]) s' := by
  have told : dealt .sends (t ++ [e]) = dealt .sends t := by
    rw [dealt_concat, unsent]
    exact List.append_nil _
  refine ⟨same.trans h.workers, drafts, ?_, ?_⟩
  · rw [told]
    exact h.addressed
  · rw [told, sent]
    exact h.numbers

theorem step (h : Filed n t s) (step : Step s e s') : Filed n (t ++ [e]) s' := by
  cases step with
  | submit | spawn => exact h.quiet rfl rfl rfl (h.drafts_write none nofun)
  | flush | acknowledge | finish | «return» => exact h.quiet rfl rfl rfl h.drafts
  | start => exact h.quiet rfl rfl rfl (h.drafts_write _ nofun)
  | @account thread owner effect followUps rest fails next =>
    have same : (s.books.account.enqueue owner ⟨effect, followUps, fails⟩).workers =
        s.books.workers := by cases owner <;> rfl
    refine h.quiet rfl same rfl (h.drafts_write thread ?_)
    intro p isDraft
    cases isDraft
    rw [← h.workers]
    exact addressed_address s.books.account owner ⟨effect, followUps, fails⟩
  | @send thread left p next =>
    have told : dealt .sends (t ++ [.deals .sends ⟨s.sent, p⟩]) =
        dealt .sends t ++ [⟨s.sent, p⟩] := dealt_concat ..
    refine ⟨h.workers, h.drafts_write thread nofun, ?_, ?_⟩
    · rw [told]
      refine List.forall_mem_append.mpr ⟨h.addressed, List.forall_mem_singleton.mpr ?_⟩
      exact h.drafts thread p (by rw [next]; rfl)
    · rw [told, List.map_append, h.numbers]
      exact List.range_succ.symm

end Filed

/-! ## One lane -/

theorem letters_post_barrier (s : Pool α) (lane w : Nat) :
    ((s.post lane .barrier).channel w).filterMap Message.letter? =
      (s.channel w).filterMap Message.letter? := by
  by_cases here : w = lane
  · subst here
    simp [post, Message.letter?]
  · simp [post, here]

theorem letters_past_barrier {s : Pool α} {lane : Nat} {rest : List (Message α)}
    (first : s.channel lane = .barrier :: rest) (w : Nat) :
    (Function.update s.channel lane rest w).filterMap Message.letter? =
      (s.channel w).filterMap Message.letter? := by
  by_cases here : w = lane
  · subst here
    rw [Function.update_self, first]
    rfl
  · rw [Function.update_of_ne here]

/-- What was sent to a worker has started or is in its channel; what has started is done, but for
the job that the worker runs. -/
structure Flow (w : Nat) (t : List (Event α)) (s : Pool α) : Prop where
  channel : letters .sends (inLane w) t =
    letters .starts (inLane w) t ++ (s.channel w).filterMap Message.letter?
  hand : letters .starts (inLane w) t = letters .finishes (inLane w) t ++ (s.hand w).toList
  runs : runs (inLane w) t = (letters .finishes (inLane w) t).flatMap Letter.whole ++
    (s.hand w).toList.map (.deals .starts ·)

namespace Flow
variable {w : Nat} {t : List (Event α)} {s s' : Pool α} {e : Event α}

/-- The step deals with no letter of this lane. -/
theorem quiet (h : Flow w t s) (unread : ∀ stage, (e.letter? stage).toList.filter (inLane w) = [])
    (unrun : e.runs (inLane w) = false)
    (channel : (s'.channel w).filterMap Message.letter? = (s.channel w).filterMap Message.letter?)
    (hand : s'.hand w = s.hand w) : Flow w (t ++ [e]) s' := by
  have same : ∀ stage, letters stage (inLane w) (t ++ [e]) = letters stage (inLane w) t := by
    intro stage
    rw [letters_concat, unread, List.append_nil]
  have sameRuns : Pool.runs (inLane w) (t ++ [e]) = Pool.runs (inLane w) t := by
    rw [runs_concat, unrun]
    exact List.append_nil _
  constructor
  · rw [same, same, channel]
    exact h.channel
  · rw [same, same, hand]
    exact h.hand
  · rw [same, sameRuns, hand]
    exact h.runs

/-- A letter of another lane. -/
theorem elsewhere (h : Flow w t s) {stage : Stage} {letter : Letter α}
    (other : letter.parcel.lane ≠ w) (channel : s'.channel w = s.channel w)
    (hand : s'.hand w = s.hand w) : Flow w (t ++ [.deals stage letter]) s' := by
  have away : inLane w letter = false := beq_eq_false_iff_ne.mpr other
  refine h.quiet (fun d => ?_) ?_ (congrArg _ channel) hand
  · rw [Event.letter?]
    split
    · exact List.filter_cons_of_neg (by rw [away]; decide)
    · rfl
  · cases stage
    · rfl
    · exact away
    · exact away

theorem mem_channel (h : Flow w t s) {letter : Letter α} {rest : List (Message α)}
    (first : s.channel w = .run letter :: rest) : letter.parcel.lane = w := by
  have sent : letter ∈ letters .sends (inLane w) t := by
    rw [h.channel, first]
    simp [Message.letter?]
  exact beq_iff_eq.mp (mem_letters.mp sent).2

theorem mem_hand (h : Flow w t s) {letter : Letter α} (held : s.hand w = some letter) :
    letter.parcel.lane = w := by
  have started : letter ∈ letters .starts (inLane w) t := by
    rw [h.hand, held]
    simp
  exact beq_iff_eq.mp (mem_letters.mp started).2

theorem send (h : Flow w t s) (letter : Letter α) (own : letter.parcel.lane = w)
    (channel : s'.channel w = s.channel w ++ [.run letter]) (hand : s'.hand w = s.hand w) :
    Flow w (t ++ [.deals .sends letter]) s' := by
  have here : inLane w letter = true := beq_iff_eq.mpr own
  constructor
  · rw [letters_concat, letters_concat, channel, List.filterMap_append, h.channel]
    simp [Event.letter?, Message.letter?, here]
  · rw [letters_concat, letters_concat, hand, h.hand]
    simp [Event.letter?]
  · rw [runs_concat, letters_concat, hand, h.runs]
    simp [Event.letter?, Event.runs]

theorem start (h : Flow w t s) {letter : Letter α} {rest : List (Message α)}
    (idle : s.hand w = none) (first : s.channel w = .run letter :: rest)
    (channel : s'.channel w = rest) (hand : s'.hand w = some letter) :
    Flow w (t ++ [.deals .starts letter]) s' := by
  have here : inLane w letter = true := beq_iff_eq.mpr (h.mem_channel first)
  constructor
  · rw [letters_concat, letters_concat, channel, h.channel, first]
    simp [Event.letter?, Message.letter?, here]
  · rw [letters_concat, letters_concat, hand, h.hand, idle]
    simp [Event.letter?, here]
  · rw [runs_concat, letters_concat, hand, h.runs, idle]
    simp [Event.letter?, Event.runs, here]

theorem finish (h : Flow w t s) {letter : Letter α} (held : s.hand w = some letter)
    (channel : s'.channel w = s.channel w) (hand : s'.hand w = none) :
    Flow w (t ++ [.deals .finishes letter]) s' := by
  have here : inLane w letter = true := beq_iff_eq.mpr (h.mem_hand held)
  constructor
  · rw [letters_concat, letters_concat, channel, h.channel]
    simp [Event.letter?]
  · rw [letters_concat, letters_concat, hand, h.hand, held]
    simp [Event.letter?, here]
  · rw [runs_concat, letters_concat, hand, h.runs, held]
    simp [Event.letter?, Event.runs, here, Letter.whole]

theorem step (all : ∀ w, Flow w t s) (step : Step s e s') (w : Nat) : Flow w (t ++ [e]) s' := by
  cases step with
  | submit | spawn | account | «return» => exact (all w).quiet (fun _ => rfl) rfl rfl rfl
  | flush ready owner => exact (all w).quiet (fun _ => rfl) rfl (letters_post_barrier s _ w) rfl
  | acknowledge idle first =>
    exact (all w).quiet (fun _ => rfl) rfl (letters_past_barrier first w) rfl
  | @send thread left p next =>
    by_cases here : w = p.lane
    · exact (all w).send _ here.symm (by simp [write, post, here]) rfl
    · exact (all w).elsewhere (Ne.symm here) (by simp [write, post, here]) rfl
  | @start lane letter rest idle first =>
    by_cases here : w = lane
    · subst here
      exact (all w).start idle first (Function.update_self ..) (Function.update_self ..)
    · have other : letter.parcel.lane ≠ w := fun same => here (same ▸ (all lane).mem_channel first)
      exact (all w).elsewhere other (Function.update_of_ne here ..) (Function.update_of_ne here ..)
  | @finish lane letter held done =>
    by_cases here : w = lane
    · subst here
      exact (all w).finish held rfl (Function.update_self ..)
    · have other : letter.parcel.lane ≠ w := fun same => here (same ▸ (all lane).mem_hand held)
      exact (all w).elsewhere other rfl (Function.update_of_ne here ..)

end Flow

/-! ## Barriers -/

def Flushing.lane (n : Nat) : Flushing → Option Nat
  | .waiting owner => some (owner.toNat % n)
  | .no | .through _ => none

theorem Flushing.lane_acknowledged (n : Nat) (f : Flushing) : f.acknowledged.lane n = none := by
  cases f <;> rfl

def Barred (n : Nat) (s : Pool α) : Prop :=
  ∀ w, (s.channel w).countP Message.isBarrier = if s.flushing.lane n = some w then 1 else 0

theorem Barred.same {n : Nat} {s s' : Pool α} (h : Barred n s) (flushing : s'.flushing = s.flushing)
    (channel : ∀ w, (s'.channel w).countP Message.isBarrier =
      (s.channel w).countP Message.isBarrier) : Barred n s' := by
  intro w
  rw [channel, flushing]
  exact h w

theorem Barred.step {n : Nat} {s s' : Pool α} {e : Event α} (h : Barred n s)
    (workers : s.books.workers = n) (step : Step s e s') : Barred n s' := by
  cases step with
  | submit | spawn | account | finish => exact h
  | «return» through =>
    unfold Barred at h
    rw [through] at h
    exact h
  | flush ready owner =>
    have lane : s.books.laneOf owner = owner.toNat % n := workers ▸ s.books.laneOf_eq owner
    intro w
    have before := h w
    rw [ready.flushing] at before
    by_cases here : w = owner.toNat % n
    · subst here
      simpa [post, lane, Flushing.lane, Message.isBarrier] using before
    · simpa [post, lane, here, Ne.symm here, Flushing.lane] using before
  | @acknowledge lane rest idle first =>
    have before := h lane
    rw [first, List.countP_cons_of_pos rfl] at before
    have awaits : s.flushing.lane n = some lane := by
      by_contra other
      rw [if_neg other] at before
      omega
    intro w
    change _ = if s.flushing.acknowledged.lane n = some w then 1 else 0
    rw [Flushing.lane_acknowledged, if_neg (Option.some_ne_none w).symm]
    by_cases here : w = lane
    · subst here
      rw [if_pos awaits] at before
      simpa using before
    · have others := h w
      rw [awaits, if_neg fun same => here (Option.some.inj same).symm] at others
      simpa [here] using others
  | @send thread left p next =>
    refine h.same rfl fun w => ?_
    by_cases here : w = p.lane
    · subst here
      simp [write, post, Message.isBarrier]
    · simp [write, post, here]
  | @start lane letter rest idle first =>
    refine h.same rfl fun w => ?_
    by_cases here : w = lane
    · subst here
      simp [first, Message.isBarrier]
    · simp [here]

theorem prefix_update_of_ne (s : Pool α) {lane w : Nat} (elsewhere : w ≠ lane)
    (rest : List (Message α)) : s.channel w <+: Function.update s.channel lane rest w := by
  have same : Function.update s.channel lane rest w = s.channel w :=
    Function.update_of_ne elsewhere ..
  exact same ▸ List.prefix_refl _

/-- Of the letters that were in the lane at some time, those that are not done are before the
barrier, or none is left. -/
def Settled (w : Nat) (before t : List (Event α)) (s : Pool α) : Prop :=
  letters .sends (inLane w) before <+: letters .finishes (inLane w) t ∨
    ∃ ahead behind, s.channel w = ahead ++ .barrier :: behind ∧
      letters .sends (inLane w) before =
        letters .starts (inLane w) t ++ ahead.filterMap Message.letter?

namespace Settled
variable {n w : Nat} {before t : List (Event α)} {s s' : Pool α} {e : Event α}

theorem passed (h : letters .sends (inLane w) before <+: letters .finishes (inLane w) t)
    (e : Event α) (s' : Pool α) : Settled w before (t ++ [e]) s' := by
  refine .inl (h.trans ?_)
  rw [letters_concat]
  exact List.prefix_append ..

/-- Nothing starts in this lane, and the channel grows behind the barrier at most. -/
theorem quiet (h : Settled w before t s)
    (unread : (e.letter? .starts).toList.filter (inLane w) = [])
    (channel : s.channel w <+: s'.channel w) : Settled w before (t ++ [e]) s' := by
  rcases h with h | ⟨ahead, behind, whole, split⟩
  · exact passed h e s'
  · obtain ⟨new, grown⟩ := channel
    refine .inr ⟨ahead, behind ++ new, ?_, ?_⟩
    · rw [← grown, whole, List.append_assoc]
      rfl
    · rw [letters_concat, unread, List.append_nil]
      exact split

theorem step (h : Settled w before t s) (flow : ∀ w, Flow w t s) (barred : Barred n s)
    (step : Step s e s') : Settled w before (t ++ [e]) s' := by
  cases step with
  | submit | spawn | account | «return» | finish => exact h.quiet rfl (List.prefix_refl _)
  | flush ready owner => exact h.quiet rfl (prefix_post s _ _ w)
  | send => exact h.quiet rfl (prefix_post s _ _ w)
  | @acknowledge lane rest idle first =>
    by_cases here : w = lane
    · subst here
      rcases h with h | ⟨ahead, behind, whole, split⟩
      · exact passed h _ _
      · -- the worker is at the barrier, so nothing is before it, and all that has started is done
        have none : ahead = [] := by
          cases ahead with
          | nil => rfl
          | cons message ahead =>
            obtain rfl := (List.cons.inj (first.symm.trans whole)).1
            have two : 2 ≤ (s.channel w).countP Message.isBarrier := by
              rw [whole, List.cons_append, List.countP_cons_of_pos rfl, List.countP_append,
                List.countP_cons_of_pos rfl]
              omega
            have once := barred w
            split at once <;> omega
        have done := (flow w).hand
        rw [idle] at done
        rw [none, done] at split
        refine passed ?_ _ _
        rw [split]
        simp
    · exact h.quiet rfl (prefix_update_of_ne s here rest)
  | @start lane letter rest idle first =>
    by_cases here : w = lane
    · subst here
      rcases h with h | ⟨ahead, behind, whole, split⟩
      · exact passed h _ _
      · rw [first] at whole
        cases ahead with
        | nil => cases whole
        | cons message ahead =>
          obtain ⟨rfl, rfl⟩ := List.cons.inj whole
          have own : inLane w letter = true := beq_iff_eq.mpr ((flow w).mem_channel first)
          refine .inr ⟨ahead, behind, Function.update_self .., ?_⟩
          rw [split, letters_concat]
          simp [Event.letter?, Message.letter?, own]
    · have other : inLane w letter = false :=
        beq_eq_false_iff_ne.mpr fun same => here (same ▸ (flow lane).mem_channel first)
      refine h.quiet ?_ (prefix_update_of_ne s here rest)
      simp [Event.letter?, other]

end Settled

/-! ## Every run -/

structure Kept (n : Nat) (t : List (Event α)) (s : Pool α) : Prop where
  filed : Filed n t s
  flow : ∀ w, Flow w t s
  barred : Barred n s
  settled : ∀ before owner, before ++ [.asks (.flush owner)] <+: t →
    Settled (owner.toNat % n) before t s

theorem Kept.fresh (n : Nat) (warnAbove : Option Nat) : Kept n [] (fresh n warnAbove : Pool α) where
  filed := ⟨rfl, nofun, nofun, rfl⟩
  flow _ := ⟨rfl, rfl, rfl⟩
  barred _ := rfl
  settled before owner first := by
    have nothing := List.prefix_nil.mp first
    simp at nothing

theorem Kept.step {n : Nat} {t : List (Event α)} {s s' : Pool α} {e : Event α} (h : Kept n t s)
    (step : Step s e s') : Kept n (t ++ [e]) s' where
  filed := h.filed.step step
  flow := Flow.step h.flow step
  barred := h.barred.step h.filed.workers step
  settled before owner first := by
    rcases List.prefix_concat_iff.mp first with last | earlier
    · obtain ⟨rfl, same⟩ := List.append_inj' last rfl
      obtain rfl := List.singleton_inj.mp same
      -- the barrier is put behind all that is in the channel
      cases step with
      | flush ready =>
        have lane : s.books.laneOf owner = owner.toNat % n :=
          h.filed.workers ▸ s.books.laneOf_eq owner
        refine .inr ⟨s.channel (owner.toNat % n), [], ?_, ?_⟩
        · rw [← lane]
          exact Function.update_self ..
        · rw [letters_concat]
          exact (h.flow _).channel.trans (by simp [Event.letter?])
    · exact (h.settled before owner earlier).step h.flow h.barred step

theorem Run.kept {n : Nat} {warnAbove : Option Nat} {t : List (Event α)} {s : Pool α}
    (run : Run (fresh n warnAbove) t s) : Kept n t s := by
  induction run with
  | nil => exact .fresh n warnAbove
  | concat _ step ih => exact ih.step step

/-! ## One owner, one letter -/

theorem filter_letters {stage : Stage} {P Q : Letter α → Bool} {t : List (Event α)}
    (within : ∀ l ∈ dealt stage t, P l = true → Q l = true) :
    (letters stage Q t).filter P = letters stage P t := by
  rw [letters, List.filter_filter]
  apply List.filter_congr
  intro l member
  cases told : P l with
  | false => rfl
  | true => exact within l member told

theorem filter_runs {P Q : Letter α → Bool} {t : List (Event α)}
    (within : ∀ stage, ∀ l ∈ dealt stage t, P l = true → Q l = true) :
    (runs Q t).filter (·.runs P) = runs P t := by
  rw [runs, List.filter_filter]
  apply List.filter_congr
  intro e member
  cases told : e.runs P with
  | false => rfl
  | true =>
    rw [Bool.true_and]
    cases e with
    | asks | accounts | acknowledges | returns => cases told
    | deals stage l =>
      have isDealt : l ∈ dealt stage t := List.mem_filterMap.mpr ⟨_, member, if_pos rfl⟩
      cases stage with
      | sends => cases told
      | starts => exact within .starts l isDealt told
      | finishes => exact within .finishes l isDealt told

theorem filter_whole (P : Letter α → Bool) (ls : List (Letter α)) :
    (ls.flatMap Letter.whole).filter (·.runs P) = (ls.filter P).flatMap Letter.whole := by
  induction ls with
  | nil => rfl
  | cons l ls ih =>
    rw [List.flatMap_cons, List.filter_append, ih]
    cases told : P l <;> simp [Letter.whole, Event.runs, told]

namespace Kept
variable {n : Nat} {t : List (Event α)} {s : Pool α} (h : Kept n t s)
include h

theorem mem_sends {stage : Stage} {l : Letter α} (member : l ∈ dealt stage t) :
    l ∈ dealt .sends t := by
  have flow := h.flow l.parcel.lane
  have own : inLane l.parcel.lane l = true := beq_self_eq_true _
  have here : l ∈ letters stage (inLane l.parcel.lane) t := mem_letters.mpr ⟨member, own⟩
  have started : l ∈ letters .starts (inLane l.parcel.lane) t →
      l ∈ letters .sends (inLane l.parcel.lane) t := by
    intro started
    rw [flow.channel]
    exact List.mem_append_left _ started
  cases stage with
  | sends => exact member
  | starts => exact (mem_letters.mp (started here)).1
  | finishes =>
    refine (mem_letters.mp (started ?_)).1
    rw [flow.hand]
    exact List.mem_append_left _ here

theorem runs_eq {w : Nat} {P : Letter α → Bool}
    (within : ∀ l ∈ dealt .sends t, P l = true → inLane w l = true) :
    runs P t = ((letters .finishes (inLane w) t).filter P).flatMap Letter.whole ++
      ((s.hand w).toList.filter P).map (.deals .starts ·) := by
  have all := (h.flow w).runs
  rw [← filter_runs fun stage l member => within l (h.mem_sends member), all, List.filter_append,
    filter_whole, List.filter_map]
  rfl

theorem sends_eq {w : Nat} {P : Letter α → Bool}
    (within : ∀ l ∈ dealt .sends t, P l = true → inLane w l = true) :
    letters .sends P t = (letters .finishes (inLane w) t).filter P ++
      ((s.hand w).toList.filter P ++ ((s.channel w).filterMap Message.letter?).filter P) := by
  rw [← filter_letters within, (h.flow w).channel, (h.flow w).hand, List.filter_append,
    List.filter_append, List.append_assoc]

theorem inLane_of_owner {owner : ThreadId} {l : Letter α} (sent : l ∈ dealt .sends t)
    (own : ofOwner owner l = true) : inLane (owner.toNat % n) l = true :=
  beq_iff_eq.mpr (h.filed.addressed l sent owner (beq_iff_eq.mp own))

/-- The jobs of an owner run one after the other, in the order in which they were sent. -/
theorem runs_prefix (owner : ThreadId) :
    runs (ofOwner owner) t <+: (letters .sends (ofOwner owner) t).flatMap Letter.whole := by
  have within : ∀ l ∈ dealt .sends t, ofOwner owner l = true → inLane (owner.toNat % n) l = true :=
    fun _ sent own => h.inLane_of_owner sent own
  rw [h.runs_eq within, h.sends_eq within, List.flatMap_append, List.flatMap_append]
  apply (List.prefix_append_right_inj _).mpr
  -- a worker runs one job at most
  cases s.hand (owner.toNat % n) with
  | none => exact List.nil_prefix
  | some l => cases own : ofOwner owner l <;> simp [own, Letter.whole]

omit h in
theorem filter_numbered {ls : List (Letter α)} (distinct : (ls.map (·.number)).Nodup) {l : Letter α}
    (member : l ∈ ls) : ls.filter (numbered l.number) = [l] := by
  induction ls with
  | nil => cases member
  | cons first ls ih =>
    obtain ⟨fresh, distinct⟩ := List.nodup_cons.mp distinct
    rcases List.mem_cons.mp member with rfl | member
    · have others : ls.filter (numbered l.number) = [] := by
        apply List.filter_eq_nil_iff.mpr
        intro other isOther same
        exact fresh (List.mem_map.mpr ⟨other, isOther, beq_iff_eq.mp same⟩)
      simp [numbered, others]
    · have other : numbered l.number first = false := by
        apply beq_eq_false_iff_ne.mpr
        intro same
        exact fresh (List.mem_map.mpr ⟨l, member, same.symm⟩)
      rw [List.filter_cons_of_neg (by rw [other]; decide), ih distinct member]

/-- All that is done with a letter whose job is done is that it was run, once. -/
theorem runs_once {w : Nat} {l : Letter α} (done : l ∈ letters .finishes (inLane w) t) :
    runs (numbered l.number) t = l.whole := by
  have distinct : ((dealt .sends t).map (·.number)).Nodup := by
    rw [h.filed.numbers]
    exact List.nodup_range
  have isDealt := h.mem_sends (mem_letters.mp done).1
  have within : ∀ other ∈ dealt .sends t, numbered l.number other = true →
      inLane w other = true := by
    intro other sent same
    have both : other ∈ (dealt .sends t).filter (numbered l.number) :=
      List.mem_filter.mpr ⟨sent, same⟩
    rw [filter_numbered distinct isDealt] at both
    rw [List.mem_singleton.mp both]
    exact (mem_letters.mp done).2
  have whole := h.sends_eq within
  rw [letters, filter_numbered distinct isDealt] at whole
  have first : l ∈ (letters .finishes (inLane w) t).filter (numbered l.number) :=
    List.mem_filter.mpr ⟨done, beq_self_eq_true _⟩
  -- the letter itself is the only one with its number, and it is done
  obtain ⟨finished, rest⟩ : (letters .finishes (inLane w) t).filter (numbered l.number) = [l] ∧
      (s.hand w).toList.filter (numbered l.number) = [] := by
    cases is : (letters .finishes (inLane w) t).filter (numbered l.number) with
    | nil => rw [is] at first; cases first
    | cons other others =>
      rw [is] at whole
      obtain ⟨rfl, nothing⟩ := List.cons.inj whole
      obtain ⟨none, others⟩ := List.append_eq_nil_iff.mp nothing.symm
      exact ⟨by rw [none], (List.append_eq_nil_iff.mp others).1⟩
  rw [h.runs_eq within, finished, rest]
  exact List.append_nil _

end Kept

/-- What has happened, in `t`, to the jobs of an owner when a flush for it returns whose barrier was
put into the channel after `before`. -/
structure Upheld (owner : ThreadId) (before t : List (Event α)) : Prop where
  /-- Each job that was sent before the barrier was run, once. -/
  once : ∀ l ∈ letters .sends (ofOwner owner) before, runs (numbered l.number) t = l.whole
  /-- All jobs of the owner that ran did so one after the other, in the order of the letters. -/
  inOrder : runs (ofOwner owner) t <+: (letters .sends (ofOwner owner) t).flatMap Letter.whole

/-- When no barrier is awaited, what was sent before any of them is done. -/
theorem Kept.passed {n : Nat} {t before : List (Event α)} {s : Pool α} (h : Kept n t s)
    (through : s.flushing.lane n = none) {owner : ThreadId}
    (asked : before ++ [.asks (.flush owner)] <+: t) :
    letters .sends (inLane (owner.toNat % n)) before <+:
      letters .finishes (inLane (owner.toNat % n)) t := by
  rcases h.settled before owner asked with done | ⟨ahead, behind, whole, -⟩
  · exact done
  · have none := h.barred (owner.toNat % n)
    rw [through, whole, List.countP_append, List.countP_cons_of_pos rfl] at none
    change _ = 0 at none
    omega

theorem Run.flushing_of_returns {first s : Pool α} {t : List (Event α)} {owner : ThreadId}
    (run : Run first (t ++ [.returns owner]) s) : s.flushing = .no := by
  generalize whole : t ++ [.returns owner] = t' at run
  cases run with
  | nil => simp at whole
  | concat _ step =>
    obtain ⟨-, same⟩ := List.append_inj' whole rfl
    obtain rfl := List.singleton_inj.mp same
    cases step
    rfl

/-- What has happened when a flush returns: something before its barrier was put into a channel, and
something between that and the return. -/
def history (owner : ThreadId) (before between : List (Event α)) : List (Event α) :=
  before ++ .asks (.flush owner) :: between ++ [.returns owner]

theorem Run.upheld {n : Nat} {warnAbove : Option Nat} {owner : ThreadId}
    {before between : List (Event α)} {s : Pool α}
    (run : Run (fresh n warnAbove) (history owner before between) s) :
    Upheld owner before (history owner before between) := by
  have kept := run.kept
  have through : s.flushing.lane n = none := by
    rw [run.flushing_of_returns]
    rfl
  have asked : before ++ [.asks (.flush owner)] <+: history owner before between :=
    ⟨between ++ [.returns owner], by simp [history]⟩
  refine ⟨fun l sent => ?_, kept.runs_prefix owner⟩
  obtain ⟨sent, own⟩ := mem_letters.mp sent
  have later : l ∈ dealt .sends (history owner before between) :=
    (((List.prefix_append _ _).trans asked).filterMap _).subset sent
  have inLane := kept.inLane_of_owner later own
  exact kept.runs_once ((kept.passed through asked).subset (mem_letters.mpr ⟨sent, inLane⟩))

end Pool

end SpanWeave
