import SpanWeave.Proofs.WorkQueue.Barrier
import SpanWeave.Proofs.WorkQueue.Order

set_option autoImplicit false

/-!
# Calls of a queue with workers

What a queue with workers does when it is asked for something, with whatever turns of its workers,
is one of the ways in which its threads may take their steps: the driver makes the call, and
meanwhile each turn of a worker takes one job from its start to its end.
-/
namespace SpanWeave
variable {α : Type}

namespace Pool

def calls (t : List (Event α)) : List (Request α) :=
  t.filterMap fun | .asks request => some request | _ => none

theorem Run.trans {a b c : Pool α} {t more : List (Event α)} (h : Run a t b) (k : Run b more c) :
    Run a (t ++ more) c := by
  induction k with
  | nil => rwa [List.append_nil]
  | concat _ step ih =>
    rw [← List.append_assoc]
    exact ih.concat step

theorem Run.single {a b : Pool α} {e : Event α} (step : Step a e b) : Run a [e] b :=
  Run.concat .nil step

def Goes (s s' : Pool α) : Prop := ∃ t, Run s t s' ∧ calls t = []

namespace Goes

theorem refl (s : Pool α) : s.Goes s := ⟨[], .nil, rfl⟩

theorem trans {a b c : Pool α} (h : a.Goes b) (k : b.Goes c) : a.Goes c := by
  obtain ⟨t, run, none⟩ := h
  obtain ⟨more, run', none'⟩ := k
  refine ⟨t ++ more, run.trans run', ?_⟩
  rw [calls, List.filterMap_append]
  exact List.append_eq_nil_iff.mpr ⟨none, none'⟩

theorem step {a b : Pool α} {e : Event α} (step : Step a e b) (none : calls [e] = []) : a.Goes b :=
  ⟨[e], .single step, none⟩

end Goes

structure Sound (s : Pool α) : Prop where
  workers : 0 < s.books.workers
  running : s.books.stopped = false
  barred : Barred s.books.workers s

theorem Step.books {s s' : Pool α} {e : Event α} (step : Step s e s') :
    s'.books.workers = s.books.workers ∧ s'.books.stopped = s.books.stopped := by
  cases step with
  | @account thread owner => cases owner <;> exact ⟨rfl, rfl⟩
  | submit | spawn | flush | send | start | finish | acknowledge | «return» => exact ⟨rfl, rfl⟩

theorem Sound.step {s s' : Pool α} {e : Event α} (h : s.Sound) (step : Step s e s') :
    s'.Sound := by
  obtain ⟨workers, stopped⟩ := step.books
  refine ⟨workers ▸ h.workers, stopped ▸ h.running, ?_⟩
  rw [workers]
  exact h.barred.step rfl step

theorem Sound.run {s s' : Pool α} {t : List (Event α)} (h : s.Sound) (run : Run s t s') :
    s'.Sound := by
  induction run with
  | nil => exact h
  | concat _ step ih => exact ih.step step

theorem Sound.goes {s s' : Pool α} (h : s.Sound) (goes : s.Goes s') : s'.Sound := by
  obtain ⟨t, run, -⟩ := goes
  exact h.run run

theorem Goes.workers {s s' : Pool α} (goes : s.Goes s') : s'.books.workers = s.books.workers := by
  obtain ⟨t, run, -⟩ := goes
  induction run with
  | nil => rfl
  | concat _ step ih => exact step.books.1.trans ih

/-! ## One job -/

/-- The books are those of the queue, and what waits in it is in the channels. -/
structure Shows (s : Pool α) (q : WorkQueue α) : Prop where
  books : s.books = { q with waiting := [], turns := [] }
  channel : ∀ w, ((s.channel w).filterMap Message.letter?).map (·.parcel) =
    q.waiting.filter (·.lane == w)

theorem Shows.workers {s : Pool α} {q : WorkQueue α} (h : s.Shows q) :
    q.workers = s.books.workers := by
  rw [h.books]

theorem Shows.stopped {s : Pool α} {q : WorkQueue α} (h : s.Shows q) :
    q.stopped = s.books.stopped := by
  rw [h.books]

theorem Shows.runsAtOnce {s : Pool α} {q : WorkQueue α} (h : s.Shows q) (sound : s.Sound)
    (owner : Option ThreadId) : q.runsAtOnce owner = false := by
  have some : q.workers ≠ 0 := Nat.ne_of_gt (h.workers ▸ sound.workers)
  simp [WorkQueue.runsAtOnce, h.stopped, sound.running, some]

theorem update_back {β γ : Type} [DecidableEq β] {f : β → γ} {c : γ} (all : f = fun _ => c) (b : β)
    (v : γ) : Function.update (Function.update f b v) b c = fun _ => c := by
  rw [Function.update_idem, all]
  exact Function.update_eq_self b fun _ => c

theorem Shows.handIn {s : Pool α} {q : WorkQueue α} (shows : s.Shows q) (sound : s.Sound)
    {thread : Option Nat} {script : Script α} (outbox : s.outbox thread = { left := script }) :
    ∃ s', s.Goes s' ∧ s'.Shows (WorkQueue.handIn script q) ∧
      s'.outbox = Function.update s.outbox thread {} ∧ s'.hand = s.hand ∧
      s'.flushing = s.flushing ∧ ∀ w, s.channel w <+: s'.channel w := by
  induction script generalizing s q with
  | done =>
    refine ⟨s, .refl s, shows, ?_, rfl, rfl, fun w => List.prefix_refl _⟩
    exact (Function.update_eq_self_iff.mpr outbox.symm).symm
  | job owner effect followUps fails rest _ ih =>
    let j : Job α := ⟨effect, followUps, fails⟩
    let p := s.books.account.address owner j
    let accounted : Pool α :=
      { s.write thread { left := rest, draft := p } with
        books := (s.books.account.enqueue owner j).holding [] }
    -- between the two steps others may take theirs, but here none does
    let sent : Pool α :=
      { (accounted.post p.lane (.run ⟨s.sent, p⟩)).write thread { left := rest } with
        sent := s.sent + 1 }
    have first : Step s .accounts accounted := .account outbox
    have second : Step accounted (.deals .sends ⟨s.sent, p⟩) sent :=
      .send (Function.update_self ..)
    have goes : s.Goes sent := (Goes.step first rfl).trans (.step second rfl)
    have address : p = q.account.address owner j := by
      change s.books.account.address owner j = _
      rw [shows.books]
      rfl
    have shows' : sent.Shows (q.account.enqueue owner j) := by
      constructor
      · change (s.books.account.enqueue owner j).holding [] = _
        rw [shows.books]
        cases owner <;> rfl
      · intro w
        rw [WorkQueue.waiting_enqueue, List.filter_append, ← address]
        change _ = q.waiting.filter _ ++ _
        rw [← shows.channel w]
        by_cases here : w = p.lane
        · subst here
          simp [sent, write, post, accounted, Message.letter?]
        · have other : (p.lane == w) = false := beq_eq_false_iff_ne.mpr (Ne.symm here)
          simp [sent, write, post, accounted, here, other]
    obtain ⟨s', goes', shown, outboxes, hands, flushing, channels⟩ :=
      ih shows' (sound.goes goes) (Function.update_self ..)
    have grows : ∀ w, s.channel w <+: sent.channel w := prefix_post accounted p.lane _
    refine ⟨s', goes.trans goes', ?_, ?_, hands, flushing, fun w => (grows w).trans (channels w)⟩
    · rw [WorkQueue.handIn_of_later (shows.runsAtOnce sound owner)]
      exact shown
    · rw [outboxes]
      simp [sent, accounted, write, post]

/-! ## One turn -/

/-- In a flush for the owner the driver need not wait any more, or there are at most `k` letters
before its barrier; with no owner the driver is in no flush. -/
def Nears (n : Nat) (asked : Option ThreadId) (k : Nat) (s : Pool α) : Prop :=
  match asked with
  | none => s.flushing = .no
  | some owner => s.flushing = .through owner ∨ s.flushing = .waiting owner ∧
      ∃ ahead behind, s.channel (owner.toNat % n) = ahead ++ .barrier :: behind ∧
        (ahead.filterMap Message.letter?).length ≤ k

/-- Nobody is at work, and what waits in the queue is in the channels. -/
structure Rests (n : Nat) (asked : Option ThreadId) (k : Nat) (s : Pool α) (q : WorkQueue α) :
    Prop where
  sound : s.Sound
  shows : s.Shows q
  workers : s.books.workers = n
  outbox : s.outbox = fun _ => {}
  hand : s.hand = fun _ => none
  nears : s.Nears n asked k

def spent (n : Nat) (asked : Option ThreadId) (lanes : List Nat) : Nat :=
  match asked with
  | none => 0
  | some owner => lanes.count (owner.toNat % n)

theorem Nears.mono {n k k' : Nat} {asked : Option ThreadId} {s s' : Pool α}
    (h : s.Nears n asked k) (less : k ≤ k') (flushing : s'.flushing = s.flushing)
    (channel : ∀ w, s.channel w <+: s'.channel w) : s'.Nears n asked k' := by
  cases asked with
  | none => exact flushing.trans h
  | some owner =>
    rcases h with through | ⟨waiting, ahead, behind, whole, before⟩
    · exact .inl (flushing.trans through)
    · obtain ⟨new, grown⟩ := channel (owner.toNat % n)
      refine .inr ⟨flushing.trans waiting, ahead, behind ++ new, ?_, Nat.le_trans before less⟩
      rw [← grown, whole, List.append_assoc]
      rfl

theorem Nears.pop {n k lane : Nat} {asked : Option ThreadId} {s s' : Pool α} {letter : Letter α}
    {rest : List (Message α)} (h : s.Nears n asked k) (first : s.channel lane = .run letter :: rest)
    (flushing : s'.flushing = s.flushing)
    (channel : s'.channel = Function.update s.channel lane rest) :
    s'.Nears n asked (k - spent n asked [lane]) := by
  cases asked with
  | none => exact flushing.trans h
  | some owner =>
    rcases h with through | ⟨waiting, ahead, behind, whole, before⟩
    · exact .inl (flushing.trans through)
    · refine .inr ⟨flushing.trans waiting, ?_⟩
      rw [channel]
      by_cases here : owner.toNat % n = lane
      · subst here
        rw [first] at whole
        cases ahead with
        | nil => cases whole
        | cons message ahead =>
          obtain ⟨rfl, rfl⟩ := List.cons.inj whole
          refine ⟨ahead, behind, Function.update_self .., ?_⟩
          change (ahead.filterMap Message.letter?).length + 1 ≤ k at before
          rw [spent, List.count_singleton_self]
          omega
      · refine ⟨ahead, behind, (Function.update_of_ne here ..).trans whole, ?_⟩
        rw [spent, List.count_singleton, if_neg (by simpa using Ne.symm here)]
        exact before

theorem filter_of_takeFirst {lane : Nat} {ps rest : List (Parcel α)} {p : Parcel α}
    (found : WorkQueue.takeFirst lane ps = some (p, rest)) (w : Nat) :
    ps.filter (·.lane == w) =
      (if w = lane then [p] else []) ++ rest.filter (·.lane == w) := by
  obtain ⟨here, before, after, rfl, rfl, others⟩ := WorkQueue.takeFirst_split found
  subst here
  rw [List.filter_append, List.filter_append, List.filter_cons]
  by_cases same : w = p.lane
  · subst same
    have none : before.filter (·.lane == p.lane) = [] := by
      apply List.filter_eq_nil_iff.mpr
      intro b member
      simpa using others b member
    simp [none]
  · simp [same, Ne.symm same]

namespace Rests
variable {n k : Nat} {asked : Option ThreadId} {s : Pool α} {q q' : WorkQueue α}

theorem congr_turns (h : s.Rests n asked k q) (turns : List (List Nat)) :
    s.Rests n asked k { q with turns } :=
  ⟨h.sound, ⟨h.shows.books, h.shows.channel⟩, h.workers, h.outbox, h.hand, h.nears⟩

/-- A worker that comes to the barrier lets the driver go on. -/
theorem acknowledge (h : s.Rests n asked k q) {lane : Nat} {rest : List (Message α)}
    (first : s.channel lane = .barrier :: rest) :
    ∃ s' owner, s.Goes s' ∧ s'.Rests n asked k q ∧ asked = some owner ∧
      s'.flushing = .through owner ∧ s'.channel lane = rest := by
  have step := Step.acknowledge (congrFun h.hand lane) first
  have counted := h.sound.barred lane
  rw [first, List.countP_cons_of_pos rfl] at counted
  have nears := h.nears
  cases asked with
  | none =>
    have flushing : s.flushing = .no := nears
    rw [flushing] at counted
    cases counted
  | some owner =>
    rcases nears with through | ⟨waiting, -⟩
    · rw [through] at counted
      cases counted
    · have through : s.flushing.acknowledged = .through owner := by
        rw [waiting]
        rfl
      refine ⟨_, owner, .step step rfl, ⟨h.sound.step step, ⟨h.shows.books, fun w => ?_⟩,
        h.workers, h.outbox, h.hand, .inl through⟩, rfl, through, Function.update_self ..⟩
      rw [← h.shows.channel w]
      exact congrArg _ (letters_past_barrier first w)

/-- Where a parcel waits, the worker has come to a letter, if need be behind the barrier. -/
theorem letter (h : s.Rests n asked k q) {lane : Nat} {p : Parcel α} {ps : List (Parcel α)}
    (waits : q.waiting.filter (·.lane == lane) = p :: ps) :
    ∃ s' letter rest, s.Goes s' ∧ s'.Rests n asked k q ∧ s'.channel lane = .run letter :: rest := by
  have parcels := (h.shows.channel lane).trans waits
  cases first : s.channel lane with
  | nil =>
    rw [first] at parcels
    cases parcels
  | cons message rest =>
    cases message with
    | run letter => exact ⟨s, letter, rest, .refl s, h, first⟩
    | barrier =>
      obtain ⟨s', owner, goes, rests, -, through, channel⟩ := h.acknowledge first
      have parcels' := (rests.shows.channel lane).trans waits
      have counted := rests.sound.barred lane
      rw [channel] at parcels' counted
      rw [through] at counted
      cases rest with
      | nil => cases parcels'
      | cons message rest =>
        cases message with
        | run letter => exact ⟨s', letter, rest, goes, rests, channel⟩
        | barrier =>
          -- there is no second barrier behind the one that is awaited
          rw [List.countP_cons_of_pos rfl] at counted
          cases counted

/-- The job of the first letter runs from its start to its end. -/
theorem run_letter (h : s.Rests n asked k q) {lane : Nat} {letter : Letter α}
    {rest : List (Message α)} {others : List (Parcel α)}
    (first : s.channel lane = .run letter :: rest)
    (waits : ∀ w, q.waiting.filter (·.lane == w) =
      (if w = lane then [letter.parcel] else []) ++ others.filter (·.lane == w)) :
    ∃ s', s.Goes s' ∧ s'.Rests n asked (k - spent n asked [lane])
      ((q.holding others).run letter.parcel.job) := by
  let begun : Pool α :=
    { s.write (some lane) { left := letter.parcel.job.followUps } with
      books := s.books.start letter.parcel.job.effect
      channel := Function.update s.channel lane rest
      hand := Function.update s.hand lane (some letter) }
  have started : Step s (.deals .starts letter) begun := .start (congrFun h.hand lane) first
  have shows : begun.Shows ((q.holding others).start letter.parcel.job.effect) := by
    constructor
    · change s.books.start _ = _
      rw [h.shows.books]
      rfl
    · intro w
      have parcels := (h.shows.channel w).trans (waits w)
      by_cases here : w = lane
      · subst here
        rw [first, if_pos rfl] at parcels
        simp only [begun, Function.update_self]
        exact (List.cons.inj parcels).2
      · rw [if_neg here] at parcels
        simp only [begun, Function.update_of_ne here]
        exact parcels
  obtain ⟨s₂, goes, shown, outboxes, hands, flushing, channels⟩ :=
    shows.handIn (h.sound.step started) (Function.update_self ..)
  have holds : s₂.hand lane = some letter := by
    rw [hands]
    exact Function.update_self ..
  have done : s₂.outbox (some lane) = {} := by
    rw [outboxes]
    exact Function.update_self ..
  have finished := Step.finish holds done
  have goes' := ((Goes.step started rfl).trans goes).trans (.step finished rfl)
  refine ⟨_, goes', h.sound.goes goes', ⟨?_, shown.channel⟩, goes'.workers.trans h.workers, ?_, ?_,
    ?_⟩
  · change s₂.books.finish _ = _
    rw [shown.books]
    rfl
  · exact outboxes.trans (update_back h.outbox (some lane) _)
  · change Function.update s₂.hand lane none = _
    rw [hands]
    exact update_back h.hand lane _
  · have popped : begun.Nears n asked (k - spent n asked [lane]) := h.nears.pop first rfl rfl
    exact popped.mono (Nat.le_refl _) flushing channels

theorem turn (h : s.Rests n asked k q) {lane : Nat} (stepped : q.step? lane = some q') :
    ∃ s', s.Goes s' ∧ s'.Rests n asked (k - spent n asked [lane]) q' := by
  obtain ⟨⟨p, others⟩, found, rfl⟩ := Option.map_eq_some_iff.mp stepped
  have waits := filter_of_takeFirst found
  have here := waits lane
  rw [if_pos rfl] at here
  obtain ⟨s₁, letter, rest, goes, rests, first⟩ := h.letter here
  have parcels := (rests.shows.channel lane).trans here
  rw [first] at parcels
  obtain ⟨rfl, -⟩ := List.cons.inj parcels
  obtain ⟨s₂, goes', rests'⟩ := rests.run_letter first waits
  exact ⟨s₂, goes.trans goes', rests'⟩

theorem weaken {k' : Nat} (h : s.Rests n asked k q) (less : k ≤ k') : s.Rests n asked k' q :=
  ⟨h.sound, h.shows, h.workers, h.outbox, h.hand,
    h.nears.mono less rfl fun _ => List.prefix_refl _⟩

/-- Where nothing waits for the worker, nothing is before the barrier. -/
theorem stuck {owner : ThreadId} (h : s.Rests n (some owner) k q)
    (stuck : q.step? (owner.toNat % n) = none) : s.Rests n (some owner) 0 q := by
  refine ⟨h.sound, h.shows, h.workers, h.outbox, h.hand, ?_⟩
  rcases h.nears with through | ⟨waiting, ahead, behind, whole, -⟩
  · exact .inl through
  · refine .inr ⟨waiting, ahead, behind, whole, ?_⟩
    have absent : q.waiting.filter (·.lane == owner.toNat % n) = [] := by
      have others := WorkQueue.takeFirst_eq_none_iff.mp (Option.map_eq_none_iff.mp stuck)
      simpa using others
    have none := (h.shows.channel (owner.toNat % n)).trans absent
    rw [whole, List.filterMap_append] at none
    rw [(List.append_eq_nil_iff.mp (List.map_eq_nil_iff.mp none)).1]
    exact Nat.le_refl _

theorem idle (h : s.Rests n asked k q) {lane : Nat} (stuck : q.step? lane = none) :
    s.Rests n asked (k - spent n asked [lane]) q := by
  cases asked with
  | none => exact h
  | some owner =>
    rw [spent, List.count_singleton]
    split
    case isFalse => exact h
    case isTrue here =>
      rw [beq_iff_eq.mp here] at stuck
      exact (h.stuck stuck).weaken (Nat.zero_le _)

theorem turns (h : s.Rests n asked k q) (lanes : List Nat) :
    ∃ s', s.Goes s' ∧ s'.Rests n asked (k - spent n asked lanes)
      (lanes.foldl (fun q lane => (q.step? lane).getD q) q) := by
  induction lanes generalizing s k q with
  | nil =>
    have none : spent n asked [] = 0 := by cases asked <;> rfl
    rw [none]
    exact ⟨s, .refl s, h⟩
  | cons lane lanes ih =>
    have more : k - spent n asked (lane :: lanes) =
        k - spent n asked [lane] - spent n asked lanes := by
      cases asked with
      | none => rfl
      | some owner =>
        simp only [spent, List.count_cons, List.count_nil]
        omega
    rw [more, List.foldl_cons]
    cases stepped : q.step? lane with
    | none => exact ih (h.idle stepped)
    | some q' =>
      obtain ⟨s₁, goes, rests⟩ := h.turn stepped
      obtain ⟨s₂, goes', rests'⟩ := ih rests
      exact ⟨s₂, goes.trans goes', rests'⟩

theorem tick (h : s.Rests n asked k q) :
    ∃ s', s.Goes s' ∧ s'.Rests n asked (k - spent n asked q.turn) q.tick :=
  (h.congr_turns q.turns.tail).turns q.turn

/-! ## One call -/

/-- The worker that the driver waits for runs all that is before the barrier. -/
theorem runLane {owner : ThreadId} (h : s.Rests n (some owner) k q) :
    ∃ s', s.Goes s' ∧ s'.Rests n (some owner) 0 (WorkQueue.runLane (owner.toNat % n) k q) := by
  induction k generalizing s q with
  | zero => exact ⟨s, .refl s, h⟩
  | succ k ih =>
    have one : k + 1 - spent n (some owner) [owner.toNat % n] = k := by
      rw [spent, List.count_singleton_self]
      rfl
    rw [WorkQueue.runLane]
    cases stepped : q.step? (owner.toNat % n) with
    | none => exact ⟨s, .refl s, h.stuck stepped⟩
    | some q' =>
      obtain ⟨s₁, goes, rests⟩ := h.turn stepped
      rw [one] at rests
      obtain ⟨s₂, goes', rests'⟩ := ih rests
      exact ⟨s₂, goes.trans goes', rests'⟩

theorem handIn {e : Event α} (h : s.Rests n none k q) {script : Script α}
    (called : s.Ready → Step s e (s.write none { left := script })) :
    ∃ t s', Run s ([e] ++ t) s' ∧ calls t = [] ∧
      s'.Rests n none 0 (WorkQueue.handIn script q).tick := by
  have step := called ⟨congrFun h.outbox none, h.nears⟩
  have shows : (s.write none { left := script }).Shows q := ⟨h.shows.books, h.shows.channel⟩
  obtain ⟨s₁, goes, shown, outboxes, hands, flushing, -⟩ :=
    shows.handIn (h.sound.step step) (Function.update_self ..)
  have rests : s₁.Rests n none 0 (WorkQueue.handIn script q) := by
    refine ⟨(h.sound.step step).goes goes, shown, goes.workers.trans h.workers, ?_, ?_, ?_⟩
    · exact outboxes.trans (update_back h.outbox none _)
    · exact hands.trans h.hand
    · exact flushing.trans h.nears
  obtain ⟨s₂, goes', rests'⟩ := rests.tick
  obtain ⟨t, run, none⟩ := goes.trans goes'
  exact ⟨t, s₂, (Run.single step).trans run, none, rests'⟩

/-- Nothing is before the barrier, so the worker comes to it. -/
theorem through {owner : ThreadId} (h : s.Rests n (some owner) 0 q) :
    ∃ s', s.Goes s' ∧ s'.Rests n (some owner) 0 q ∧ s'.flushing = .through owner := by
  rcases h.nears with through | ⟨-, ahead, behind, whole, before⟩
  · exact ⟨s, .refl s, h, through⟩
  · have none := List.eq_nil_of_length_eq_zero (Nat.le_zero.mp before)
    have first : ∃ rest, s.channel (owner.toNat % n) = .barrier :: rest := by
      cases ahead with
      | nil => exact ⟨behind, whole⟩
      | cons message ahead =>
        cases message with
        | run letter => cases none
        | barrier => exact ⟨_, whole⟩
    obtain ⟨rest, first⟩ := first
    obtain ⟨s', other, goes, rests, same, through, -⟩ := h.acknowledge first
    cases same
    exact ⟨s', goes, rests, through⟩

theorem flush (h : s.Rests n none k q) (owner : ThreadId) :
    ∃ t s', Run s ([.asks (.flush owner)] ++ t ++ [.returns owner]) s' ∧ calls t = [] ∧
      s'.Rests n none 0 (q.flush owner) := by
  have lane : s.books.laneOf owner = owner.toNat % n := h.workers ▸ s.books.laneOf_eq owner
  have asked := Step.flush ⟨congrFun h.outbox none, h.nears⟩ owner
  have waits : ({ s.post (s.books.laneOf owner) .barrier with
      flushing := .waiting owner } : Pool α).Rests n (some owner) (q.owed (owner.toNat % n)) q := by
    refine ⟨h.sound.step asked, ⟨h.shows.books, fun w => ?_⟩, h.workers, h.outbox, h.hand, ?_⟩
    · rw [← h.shows.channel w]
      exact congrArg _ (letters_post_barrier s _ w)
    · refine .inr ⟨rfl, s.channel (owner.toNat % n), [], ?_, ?_⟩
      · simp only [post, lane, Function.update_self]
      · -- all that is in the channel now is before the barrier
        have parcels := congrArg List.length (h.shows.channel (owner.toNat % n))
        rw [List.length_map, ← List.countP_eq_length_filter] at parcels
        exact Nat.le_of_eq parcels
  have pooled : q.workers = n := h.shows.workers.trans h.workers
  have flush : q.flush owner = WorkQueue.runLane (owner.toNat % n)
      (q.owed (owner.toNat % n) - spent n (some owner) q.turn) q.tick := by
    have some : q.workers ≠ 0 := Nat.ne_of_gt (h.shows.workers ▸ h.sound.workers)
    rw [WorkQueue.flush, if_neg some, q.laneOf_eq, pooled]
    rfl
  obtain ⟨s₁, goes, rests⟩ := waits.tick
  obtain ⟨s₂, goes', rests⟩ := rests.runLane
  obtain ⟨s₃, goes'', rests, through⟩ := rests.through
  obtain ⟨t, run, none⟩ := (goes.trans goes').trans goes''
  have returned := Step.return through
  refine ⟨t, _, ((Run.single asked).trans run).concat returned, none, ?_⟩
  rw [flush]
  exact ⟨rests.sound.step returned, ⟨rests.shows.books, rests.shows.channel⟩, rests.workers,
    rests.outbox, rests.hand, rfl⟩

theorem ask (h : s.Rests n none k q) {request : Request α} (goesOn : request ≠ .stop) :
    ∃ t s', Run s t s' ∧ calls t = [request] ∧ s'.Rests n none 0 (q.ask request) := by
  cases request with
  | submit owner j =>
    obtain ⟨t, s', run, none, rests⟩ := h.handIn fun ready => Step.submit ready owner j
    exact ⟨_, s', run, congrArg (_ :: ·) none, rests⟩
  | spawn j =>
    obtain ⟨t, s', run, none, rests⟩ := h.handIn fun ready => Step.spawn ready j
    exact ⟨_, s', run, congrArg (_ :: ·) none, rests⟩
  | flush owner =>
    obtain ⟨t, s', run, none, rests⟩ := h.flush owner
    refine ⟨_, s', run, ?_, rests⟩
    rw [calls, List.filterMap_append, List.filterMap_append]
    exact congrArg (fun more => [Request.flush owner] ++ more ++ []) none
  | stop => exact absurd rfl goesOn

theorem askAll (h : s.Rests n none 0 q) {requests : List (Request α)}
    (goesOn : Request.stop ∉ requests) :
    ∃ t s', Run s t s' ∧ calls t = requests ∧ s'.Rests n none 0 (q.askAll requests) := by
  induction requests generalizing s q with
  | nil => exact ⟨[], s, .nil, rfl, h⟩
  | cons request requests ih =>
    have first : request ≠ .stop := fun same => goesOn (same ▸ List.mem_cons_self)
    have others : Request.stop ∉ requests := fun member => goesOn (List.mem_cons_of_mem _ member)
    obtain ⟨t, s₁, run, call, rests⟩ := h.ask first
    obtain ⟨more, s₂, run', calls', rests'⟩ := ih rests others
    refine ⟨t ++ more, s₂, run.trans run', ?_, rests'⟩
    rw [calls, List.filterMap_append]
    exact congr (congrArg _ call) calls'

end Rests

theorem rests_fresh {n : Nat} (workers : 0 < n) (warnAbove : Option Nat)
    (turns : List (List Nat)) :
    (fresh n warnAbove : Pool α).Rests n none 0 { workers := n, warnAbove, turns } where
  sound := ⟨workers, rfl, fun _ => rfl⟩
  shows := ⟨rfl, fun _ => rfl⟩
  workers := rfl
  outbox := rfl
  hand := rfl
  nears := rfl

theorem Run.started {n : Nat} {warnAbove : Option Nat} {t : List (Event α)} {s : Pool α}
    (run : Run (fresh n warnAbove) t s) :
    s.books.started.toList = (dealt .starts t).map (·.parcel.job.effect) := by
  induction run with
  | nil => rfl
  | @concat t s s' e _ step ih =>
    rw [dealt_concat, List.map_append, ← ih]
    cases step with
    | submit | spawn | flush | send | finish | acknowledge | «return» =>
      exact (List.append_nil _).symm
    | @account thread owner => cases owner <;> exact (List.append_nil _).symm
    | start => exact Array.toList_push

/-- For any number of workers: whatever the steps of the threads, when a flush returns, the jobs
that were sent for its owner before its barrier have run, each once, and the owner's jobs ran one
after the other as they were sent. What the queue itself does when it is asked for something and
then flushed, with any turns, is one such run, with the same jobs started in the same order. -/
theorem flush_is_barrier {n : Nat} (workers : 0 < n) (warnAbove : Option Nat) :
    (∀ (owner : ThreadId) (before between : List (Event α)) (s : Pool α),
      Run (fresh n warnAbove) (history owner before between) s →
        Upheld owner before (history owner before between)) ∧
    ∀ (turns : List (List Nat)) (requests : List (Request α)) (owner : ThreadId),
      .stop ∉ requests → ∃ (q : WorkQueue α) (before between : List (Event α)) (s : Pool α),
        q = (({ workers := n, warnAbove, turns } : WorkQueue α).askAll requests).flush owner ∧
        Run (fresh n warnAbove) (history owner before between) s ∧
        calls before = requests ∧ calls between = [] ∧ s.Shows q ∧
        q.started.toList =
          (dealt .starts (history owner before between)).map (·.parcel.job.effect) := by
  refine ⟨fun owner before between s run => run.upheld, fun turns requests owner goesOn => ?_⟩
  obtain ⟨before, s₁, run, calls, rests⟩ := (rests_fresh workers warnAbove turns).askAll goesOn
  obtain ⟨between, s₂, run', none, rests'⟩ := rests.flush owner
  have whole : Run (fresh n warnAbove) (history owner before between) s₂ := by
    have joined := run.trans run'
    rw [← List.append_assoc] at joined
    exact joined
  refine ⟨_, before, between, s₂, rfl, whole, calls, none, rests'.shows, ?_⟩
  rw [← whole.started, rests'.shows.books]

/-- A job that fails hands in two others for its owner; a job of nobody and one of an owner with the
same worker come in between, and the workers have turns meanwhile. -/
theorem flush_is_barrier_of_two_workers :
    let requests : List (Request Nat) :=
      [.submit 1 ⟨10, .job (some 1) 12 .done false (.job (some 1) 13 .done false .done), true⟩,
        .spawn ⟨20, .done, false⟩, .submit 3 ⟨30, .done, false⟩, .submit 1 ⟨11, .done, false⟩]
    0 < 2 ∧ .stop ∉ requests ∧ ∃ (before between : List (Event Nat)) (s : Pool Nat),
      Run (fresh 2 none) (history 1 before between) s ∧ calls before = requests ∧
        Upheld 1 before (history 1 before between) ∧
        (dealt .starts (history 1 before between)).map (·.parcel.job.effect) =
          [10, 20, 12, 13, 30, 11] := by
  intro requests
  have goesOn : .stop ∉ requests := by simp [requests]
  obtain ⟨upheld, calls⟩ := flush_is_barrier (α := Nat) (n := 2) (by decide) none
  obtain ⟨q, before, between, s, rfl, run, asked, -, -, started⟩ :=
    calls [[], [1], [0], [0]] requests 1 goesOn
  refine ⟨by decide, goesOn, before, between, s, run, asked, upheld 1 before between s run, ?_⟩
  rw [← started]
  rfl

end Pool

end SpanWeave
