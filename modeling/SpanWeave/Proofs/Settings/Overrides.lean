import Mathlib.Tactic.SplitIfs
import SpanWeave.Settings.Environment
import SpanWeave.Proofs.Text.Parts

set_option autoImplicit false

/-!
# Settings taken from the environment

Which settings come out of which variables, said of their texts alone, and which fault is reported
if none do. A variable that is set stands for a truth value or a number of 64 bits, or its text is
kept as it is. Every number comes out as it is denoted, with one exception: of the iterations only
the lower 32 bits are kept.
-/
namespace SpanWeave.Settings
open Text

/-! ## What a text stands for -/

def Encloses (raw : String) (inner : List Char) : Prop :=
  ∃ w w', (∀ c ∈ w, isBlank c = true) ∧ (∀ c ∈ w', isBlank c = true) ∧
    raw.toList = w ++ (inner ++ w')

def wordsFor : Bool → List String
  | true => ["1", "true", "yes", "on"]
  | false => ["0", "false", "no", "off"]

def DenotesFlag (raw : String) (b : Bool) : Prop :=
  ∃ word ∈ wordsFor b, ∃ inner, Encloses raw inner ∧ inner.map Char.toLower = word.toList

def DenotesNumber (raw : String) (n : Nat) : Prop :=
  ∃ sign digits, Encloses raw (sign ++ digits) ∧ (sign = [] ∨ sign = ['+']) ∧ digits ≠ [] ∧
    (∀ c ∈ digits, c.isDigit = true) ∧ Nat.ofDigitChars 10 digits 0 = n ∧ n < UInt64.size

theorem trimChars_of_encloses {raw : String} {inner : List Char} (encloses : Encloses raw inner)
    (bare : IsBare inner) : trimChars raw.toList = inner :=
  trimChars_eq_iff.mpr ⟨bare, encloses⟩

theorem encloses_trimChars (raw : String) : Encloses raw (trimChars raw.toList) :=
  (trimChars_eq_iff.mp rfl).2

/-! ### Words -/

theorem isBlank_toLower_of_isBlank {c : Char} (blank : isBlank c = true) :
    isBlank c.toLower = true := by
  by_cases upper : 'A'.val ≤ c.val ∧ c.val ≤ 'Z'.val
  · have number : c.val.toNat = c.toNat := rfl
    have first : 'A'.val.toNat = 65 := rfl
    have last : 'Z'.val.toNat = 90 := rfl
    simp only [UInt32.le_iff_toNat_le] at upper
    simp only [isBlank, Bool.or_eq_true, Bool.and_eq_true, beq_iff_eq, decide_eq_true_eq] at blank
    omega
  · have small : c.toLower = c := dif_neg upper
    rw [small]
    exact blank

theorem bare_wordsFor (b : Bool) : ∀ word ∈ wordsFor b,
    word.toList.head?.all (!isBlank ·) = true ∧ word.toList.getLast?.all (!isBlank ·) = true := by
  cases b <;> decide

/-- What has no blank at its ends in small letters has none in any letters. -/
theorem bare_of_map_toLower {inner : List Char} {b : Bool} {word : String}
    (member : word ∈ wordsFor b) (small : inner.map Char.toLower = word.toList) :
    IsBare inner := by
  obtain ⟨first, last⟩ := bare_wordsFor b word member
  rw [← small, List.head?_map] at first
  rw [← small, List.getLast?_map] at last
  have visible : ∀ c : Char, (!isBlank c.toLower) = true → isBlank c = false := by
    intro c
    cases blank : isBlank c with
    | false => simp
    | true => simp [isBlank_toLower_of_isBlank blank]
  constructor
  · intro c eq
    rw [eq] at first
    exact visible c first
  · intro c eq
    rw [eq] at last
    exact visible c last

theorem truthWord?_eq_some_iff {word : String} {b : Bool} :
    truthWord? word = some b ↔ word ∈ wordsFor b := by
  have apart : ∀ w ∈ wordsFor true, w ∉ wordsFor false := by decide
  change (if word ∈ wordsFor true then _ else if word ∈ wordsFor false then _ else _) = _ ↔ _
  cases b with
  | true => split_ifs with yes no <;> simp [yes]
  | false =>
    split_ifs with yes no
    · simp [apart word yes]
    · simp [no]
    · simp [no]

theorem flag_iff {raw : String} {b : Bool} :
    truthWord? (lowerAscii (trim raw)) = some b ↔ DenotesFlag raw b := by
  have letters : (lowerAscii (trim raw)).toList = (trimChars raw.toList).map Char.toLower := by
    rw [lowerAscii, String.toList_map, trim, String.toList_ofList]
  rw [truthWord?_eq_some_iff]
  constructor
  · intro member
    exact ⟨_, member, trimChars raw.toList, encloses_trimChars raw, letters.symm⟩
  · rintro ⟨word, member, inner, encloses, small⟩
    have trimmed := trimChars_of_encloses encloses (bare_of_map_toLower member small)
    rw [trimmed, small, String.toList_inj] at letters
    rwa [letters]

/-! ### Numbers -/

theorem isBlank_of_isDigit {c : Char} (digit : c.isDigit = true) : isBlank c = false := by
  have number : c.val.toNat = c.toNat := rfl
  have first : '0'.val.toNat = 48 := rfl
  have last : '9'.val.toNat = 57 := rfl
  simp only [Char.isDigit, Bool.and_eq_true, decide_eq_true_eq, UInt32.le_iff_toNat_le] at digit
  simp only [isBlank, Bool.or_eq_false_iff, Bool.and_eq_false_iff, beq_eq_false_iff_ne,
    decide_eq_false_iff_not]
  omega

theorem digits?_eq_some_iff {bound n : Nat} {ds : List Char} :
    (if ds.isEmpty || !ds.all Char.isDigit then none
      else if ofDigits ds < bound then some (ofDigits ds) else none) = some n ↔
    ds ≠ [] ∧ (∀ c ∈ ds, c.isDigit = true) ∧ Nat.ofDigitChars 10 ds 0 = n ∧ n < bound := by
  have value : ofDigits ds = Nat.ofDigitChars 10 ds 0 := rfl
  have refused : (ds.isEmpty || !ds.all Char.isDigit) = true ↔
      ¬ (ds ≠ [] ∧ ∀ c ∈ ds, c.isDigit = true) := by
    rw [Bool.or_eq_true, List.isEmpty_iff, Bool.not_eq_true', ← Bool.not_eq_true,
      List.all_eq_true, Classical.not_and_iff_not_or_not, Classical.not_not]
  rw [value]
  split_ifs with bad fits
  · simp only [false_iff]
    exact fun h => refused.mp bad ⟨h.1, h.2.1⟩
  · have good := Classical.not_not.mp (mt refused.mpr bad)
    simp only [Option.some.injEq]
    exact ⟨fun eq => ⟨good.1, good.2, eq, eq ▸ fits⟩, fun h => h.2.2.1⟩
  · simp only [false_iff]
    rintro ⟨_, _, rfl, small⟩
    exact fits small

/-- There is one way to take a sign off, since no digit is a sign. -/
theorem natural?_eq_some_iff {bound n : Nat} {s : List Char} : natural? bound s = some n ↔
    ∃ sign digits, s = sign ++ digits ∧ (sign = [] ∨ sign = ['+']) ∧ digits ≠ [] ∧
      (∀ c ∈ digits, c.isDigit = true) ∧ Nat.ofDigitChars 10 digits 0 = n ∧ n < bound := by
  unfold natural?
  split
  · rename_i ds
    rw [digits?_eq_some_iff]
    constructor
    · exact fun written => ⟨['+'], ds, rfl, .inr rfl, written⟩
    · rintro ⟨sign, digits, eq, rfl | rfl, some, all, value⟩
      · rw [List.nil_append] at eq
        have plus : Char.isDigit '+' = true := all '+' (eq ▸ List.mem_cons_self)
        exact absurd plus (by decide)
      · rw [List.singleton_append, List.cons.injEq] at eq
        exact eq.2 ▸ ⟨some, all, value⟩
  · rename_i unsigned
    rw [digits?_eq_some_iff]
    constructor
    · exact fun written => ⟨[], s, rfl, .inl rfl, written⟩
    · rintro ⟨sign, digits, eq, rfl | rfl, written⟩
      · exact eq ▸ written
      · exact absurd eq (unsigned digits)

theorem number_iff {raw : String} {n : Nat} :
    natural? UInt64.size (trim raw).toList = some n ↔ DenotesNumber raw n := by
  rw [natural?_eq_some_iff, trim, String.toList_ofList]
  constructor
  · rintro ⟨sign, digits, eq, written⟩
    exact ⟨sign, digits, eq ▸ encloses_trimChars raw, written⟩
  · rintro ⟨sign, digits, encloses, signed, some, all, value⟩
    have visible : ∀ c ∈ sign ++ digits, isBlank c = false := by
      intro c member
      rcases List.mem_append.mp member with inSign | inDigits
      · have plus : c = '+' := by
          rcases signed with rfl | rfl
          · simp at inSign
          · simpa using inSign
        subst plus
        decide
      · exact isBlank_of_isDigit (all c inDigits)
    have bare : IsBare (sign ++ digits) :=
      ⟨fun c first => visible c (List.mem_of_mem_head? first),
        fun c last => visible c (List.mem_of_getLast? last)⟩
    exact ⟨sign, digits, trimChars_of_encloses encloses bare, signed, some, all, value⟩

/-! ## Variables -/

inductive Reads {β : Type} (Denotes : String → β → Prop) (complaint : String → SettingsFault) :
    Option String → Except Fault (Option β) → Prop
  | unset : Reads Denotes complaint none (.ok none)
  | value {raw : String} {b : β} (denotes : Denotes raw b) :
      Reads Denotes complaint (some raw) (.ok (some b))
  | fault {raw : String} (nothing : ∀ b, ¬ Denotes raw b) :
      Reads Denotes complaint (some raw) (.error (.badSettings (complaint raw)))

theorem reads_flag (env : Environment) (name : String) :
    Reads DenotesFlag (fun raw => .notBoolean name (lowerAscii (trim raw))) (env name)
      (flag? env name) := by
  unfold flag?
  cases env name with
  | none => exact .unset
  | some raw =>
    dsimp only
    cases read : truthWord? (lowerAscii (trim raw)) with
    | some b => exact .value (flag_iff.mp read)
    | none =>
      refine .fault fun b denotes => ?_
      rw [flag_iff.mpr denotes] at read
      cases read

theorem reads_number (env : Environment) (name : String) :
    Reads DenotesNumber (.notInteger name) (env name) (number? env name) := by
  unfold number?
  cases env name with
  | none => exact .unset
  | some raw =>
    dsimp only
    cases read : natural? UInt64.size (trim raw).toList with
    | some n => exact .value (number_iff.mp read)
    | none =>
      refine .fault fun n denotes => ?_
      rw [number_iff.mpr denotes] at read
      cases read

theorem bind_eq_ok_iff {ε α β : Type} {x : Except ε α} {f : α → Except ε β} {b : β} :
    x.bind f = .ok b ↔ ∃ a, x = .ok a ∧ f a = .ok b := by
  cases x <;> simp [Except.bind]

namespace Reads
variable {β : Type} {Denotes : String → β → Prop} {complaint : String → SettingsFault}
  {var : Option String} {r : Except Fault (Option β)}

theorem ok_iff (h : Reads Denotes complaint var r) :
    r.map (fun _ => ()) = .ok () ↔ ∀ raw, var = some raw → ∃ b, Denotes raw b := by
  cases h with
  | unset => simp [Except.map]
  | value denotes => simpa [Except.map] using ⟨_, denotes⟩
  | fault nothing => simpa [Except.map] using nothing

theorem error_iff (h : Reads Denotes complaint var r) {fault : Fault} :
    r.map (fun _ => ()) = .error fault ↔
      ∃ raw, var = some raw ∧ (¬ ∃ b, Denotes raw b) ∧ fault = .badSettings (complaint raw) := by
  cases h with
  | unset => simp [Except.map]
  | value denotes =>
    simp only [Except.map, reduceCtorEq, Option.some.injEq, false_iff]
    rintro ⟨raw, rfl, nothing, _⟩
    exact nothing ⟨_, denotes⟩
  | fault nothing =>
    simp only [Except.map, Except.error.injEq, Option.some.injEq, exists_eq_left']
    constructor
    · exact fun eq => ⟨fun ⟨b, denotes⟩ => nothing b denotes, eq.symm⟩
    · exact fun h => h.2.symm

end Reads

inductive Variable where
  | flag (name : String)
  | number (name : String)

namespace Variable

def name : Variable → String
  | flag name | number name => name

def Denoted : Variable → String → Prop
  | flag _, raw => ∃ b, DenotesFlag raw b
  | number _, raw => ∃ n, DenotesNumber raw n

def complaint : Variable → String → SettingsFault
  | flag name, raw => .notBoolean name (lowerAscii (trim raw))
  | number name, raw => .notInteger name raw

def InOrder (env : Environment) (v : Variable) : Prop :=
  ∀ raw, env v.name = some raw → v.Denoted raw

def check (env : Environment) : Variable → Except Fault Unit
  | flag name => (flag? env name).map fun _ => ()
  | number name => (number? env name).map fun _ => ()

theorem check_eq_ok_iff {env : Environment} {v : Variable} :
    v.check env = .ok () ↔ v.InOrder env := by
  cases v with
  | flag name => exact (reads_flag env name).ok_iff
  | number name => exact (reads_number env name).ok_iff

theorem check_eq_error_iff {env : Environment} {v : Variable} {fault : Fault} :
    v.check env = .error fault ↔
      ∃ raw, env v.name = some raw ∧ ¬ v.Denoted raw ∧ fault = .badSettings (v.complaint raw) := by
  cases v with
  | flag name => exact (reads_flag env name).error_iff
  | number name => exact (reads_number env name).error_iff

theorem checkAll_eq_ok_iff {env : Environment} {vs : List Variable} :
    vs.forM (check env) = .ok () ↔ ∀ v ∈ vs, v.InOrder env := by
  induction vs with
  | nil => simp [pure, Except.pure]
  | cons v vs ih =>
    change (v.check env).bind (fun _ => vs.forM (check env)) = _ ↔ _
    rw [bind_eq_ok_iff, List.forall_mem_cons]
    constructor
    · rintro ⟨⟨⟩, here, others⟩
      exact ⟨check_eq_ok_iff.mp here, ih.mp others⟩
    · rintro ⟨here, others⟩
      exact ⟨(), check_eq_ok_iff.mpr here, ih.mpr others⟩

/-- The first variable that is not in order is the one that counts. -/
theorem checkAll_eq_error_iff {env : Environment} {vs : List Variable} {fault : Fault} :
    vs.forM (check env) = .error fault ↔ ∃ before v after, vs = before ++ v :: after ∧
      (∀ u ∈ before, u.InOrder env) ∧ v.check env = .error fault := by
  induction vs with
  | nil => simp [pure, Except.pure]
  | cons v vs ih =>
    change (v.check env).bind (fun _ => vs.forM (check env)) = _ ↔ _
    cases here : v.check env with
    | error own =>
      change Except.error own = _ ↔ _
      constructor
      · rintro ⟨rfl⟩
        exact ⟨[], v, vs, rfl, List.forall_mem_nil _, here⟩
      · rintro ⟨before, u, after, eq, fine, found⟩
        cases before with
        | nil =>
          obtain ⟨rfl, rfl⟩ := List.cons.inj eq
          exact here.symm.trans found
        | cons w before =>
          obtain ⟨rfl, rfl⟩ := List.cons.inj eq
          have wrong := check_eq_ok_iff.mpr (fine v List.mem_cons_self)
          rw [here] at wrong
          cases wrong
    | ok =>
      have fineHere : v.InOrder env := check_eq_ok_iff.mp here
      change vs.forM (check env) = _ ↔ _
      rw [ih]
      constructor
      · rintro ⟨before, u, after, rfl, fine, found⟩
        exact ⟨v :: before, u, after, rfl, List.forall_mem_cons.mpr ⟨fineHere, fine⟩, found⟩
      · rintro ⟨before, u, after, eq, fine, found⟩
        cases before with
        | nil =>
          obtain ⟨rfl, rfl⟩ := List.cons.inj eq
          rw [here] at found
          cases found
        | cons w before =>
          obtain ⟨rfl, rfl⟩ := List.cons.inj eq
          exact ⟨before, u, after, rfl, (List.forall_mem_cons.mp fine).2, found⟩

end Variable

def valueVariables : List Variable :=
  [.flag useClockSkewVariable, .number skewIterationsVariable, .number workersVariable,
    .flag timelineVariable, .flag flatVariable, .number lapRetentionVariable]

/-! ## Settings -/

/-- A setting under its variable: as it was where the variable is not set, else what the text of
the variable stands for. -/
inductive Takes {α β : Type} (Denotes : String → β → Prop) (keep : β → α) (base : α) :
    Option String → α → Prop
  | unset : Takes Denotes keep base none base
  | value {raw : String} {b : β} (denotes : Denotes raw b) :
      Takes Denotes keep base (some raw) (keep b)

/-- A text under its variable, which counts as not set where it is blank. -/
inductive TakesText (base : Option String) : Option String → Option String → Prop
  | unset : TakesText base none base
  | blank {raw : String} (blank : ∀ c ∈ raw.toList, isBlank c = true) :
      TakesText base (some raw) base
  | text {raw : String} (visible : ¬ ∀ c ∈ raw.toList, isBlank c = true) :
      TakesText base (some raw) (some raw)

structure Overridden (s : Settings) (env : Environment) (s' : Settings) : Prop where
  useClockSkew : Takes DenotesFlag id s.useClockSkew (env useClockSkewVariable) s'.useClockSkew
  /-- Only the lower 32 bits are kept. -/
  skewIterations : Takes DenotesNumber (· % UInt32.size) s.skewIterations
    (env skewIterationsVariable) s'.skewIterations
  workers : Takes DenotesNumber id s.workers (env workersVariable) s'.workers
  timeline : Takes DenotesFlag id s.timeline (env timelineVariable) s'.timeline
  flat : Takes DenotesFlag id s.flat (env flatVariable) s'.flat
  callFilter : TakesText s.callFilter (env callFilterVariable) s'.callFilter
  lapRetention : Takes DenotesNumber (fun n => if n = 0 then .unbounded else .bounded n)
    s.lapRetention (env lapRetentionVariable) s'.lapRetention
  /-- There are no variables for the others. -/
  others : s' = { s with
    useClockSkew := s'.useClockSkew, skewIterations := s'.skewIterations, workers := s'.workers,
    timeline := s'.timeline, flat := s'.flat, callFilter := s'.callFilter,
    lapRetention := s'.lapRetention }

structure Workable (s : Settings) : Prop where
  iterations : s.skewIterations ≠ 0
  retention : s.lapRetention ≠ .bounded 0

/-- Why there are no settings. -/
inductive Rejected (s : Settings) (env : Environment) : SettingsFault → Prop
  | meaningless {before after : List Variable} {v : Variable} {raw : String}
      (listed : valueVariables = before ++ v :: after) (fine : ∀ u ∈ before, u.InOrder env)
      (set : env v.name = some raw) (nothing : ¬ v.Denoted raw) : Rejected s env (v.complaint raw)
  | noIterations {s' : Settings} (overridden : s.Overridden env s')
      (zero : s'.skewIterations = 0) : Rejected s env .noIterations
  | noRetention {s' : Settings} (overridden : s.Overridden env s')
      (iterations : s'.skewIterations ≠ 0) (zero : s'.lapRetention = .bounded 0) :
      Rejected s env .noRetention

theorem DenotesFlag.unique {raw : String} {b b' : Bool} (h : DenotesFlag raw b)
    (h' : DenotesFlag raw b') : b = b' :=
  Option.some.inj ((flag_iff.mpr h).symm.trans (flag_iff.mpr h'))

theorem DenotesNumber.unique {raw : String} {n n' : Nat} (h : DenotesNumber raw n)
    (h' : DenotesNumber raw n') : n = n' :=
  Option.some.inj ((number_iff.mpr h).symm.trans (number_iff.mpr h'))

namespace Takes
variable {α β : Type} {Denotes : String → β → Prop} {keep : β → α} {base a a' : α}
  {var : Option String}

theorem unique (h : Takes Denotes keep base var a)
    (functional : ∀ {raw b b'}, Denotes raw b → Denotes raw b' → b = b')
    (h' : Takes Denotes keep base var a') : a = a' := by
  cases h with
  | unset => cases h'; rfl
  | value denotes =>
    cases h' with
    | value denotes' => rw [functional denotes denotes']

theorem denoted (h : Takes Denotes keep base var a) :
    ∀ raw, var = some raw → ∃ b, Denotes raw b := by
  cases h with
  | unset => exact nofun
  | value denotes =>
    rintro raw ⟨rfl⟩
    exact ⟨_, denotes⟩

theorem eq_of_denotes {raw : String} {b : β} (h : Takes Denotes keep base (some raw) a)
    (functional : ∀ {raw b b'}, Denotes raw b → Denotes raw b' → b = b')
    (denotes : Denotes raw b) : a = keep b :=
  h.unique functional (.value denotes)

end Takes

theorem TakesText.unique {base var a a' : Option String} (h : TakesText base var a)
    (h' : TakesText base var a') : a = a' := by
  cases h with
  | unset => cases h'; rfl
  | blank blank =>
    cases h' with
    | blank => rfl
    | text visible => exact absurd blank visible
  | text visible =>
    cases h' with
    | blank blank => exact absurd blank visible
    | text => rfl

namespace Overridden
variable {s s' s'' : Settings} {env : Environment}

theorem unique (h : s.Overridden env s') (h' : s.Overridden env s'') : s' = s'' := by
  rw [h.others, h.useClockSkew.unique DenotesFlag.unique h'.useClockSkew,
    h.skewIterations.unique DenotesNumber.unique h'.skewIterations,
    h.workers.unique DenotesNumber.unique h'.workers,
    h.timeline.unique DenotesFlag.unique h'.timeline, h.flat.unique DenotesFlag.unique h'.flat,
    h.callFilter.unique h'.callFilter,
    h.lapRetention.unique DenotesNumber.unique h'.lapRetention]
  exact h'.others.symm

theorem inOrder (h : s.Overridden env s') : ∀ v ∈ valueVariables, v.InOrder env := by
  simp only [valueVariables, List.forall_mem_cons]
  exact ⟨h.useClockSkew.denoted, h.skewIterations.denoted, h.workers.denoted, h.timeline.denoted,
    h.flat.denoted, h.lapRetention.denoted, List.forall_mem_nil _⟩

end Overridden

/-! ## Reading the environment -/

def changed (s : Settings) (env : Environment) : Settings :=
  let flag (name : String) (base : Bool) : Bool := (flag? env name).toOption.join.getD base
  let number (name : String) : Option Nat := (number? env name).toOption.join
  { s with
    useClockSkew := flag useClockSkewVariable s.useClockSkew
    skewIterations := ((number skewIterationsVariable).map iterationsOf).getD s.skewIterations
    workers := (number workersVariable).getD s.workers
    timeline := flag timelineVariable s.timeline
    flat := flag flatVariable s.flat
    callFilter := (text? env callFilterVariable).orElse fun _ => s.callFilter
    lapRetention := ((number lapRetentionVariable).map retentionOf).getD s.lapRetention }

theorem override_eq (s : Settings) (env : Environment) : s.override env =
    (valueVariables.forM (Variable.check env)).bind fun _ => (s.changed env).validate := by
  simp only [override, changed, valueVariables, List.forM_eq_forM, List.forM_cons, List.forM_nil,
    Variable.check]
  -- the first read that fails ends both sides
  cases flag? env useClockSkewVariable with
  | error => rfl
  | ok => ?_
  cases number? env skewIterationsVariable with
  | error => rfl
  | ok => ?_
  cases number? env workersVariable with
  | error => rfl
  | ok => ?_
  cases flag? env timelineVariable with
  | error => rfl
  | ok => ?_
  cases flag? env flatVariable with
  | error => rfl
  | ok => ?_
  cases number? env lapRetentionVariable with
  | error => rfl
  | ok => rfl

theorem validate_eq_ok_iff {s s' : Settings} : s.validate = .ok s' ↔ s = s' ∧ s.Workable := by
  unfold validate
  split_ifs with iterations retention
  · simp only [false_iff]
    exact fun h => h.2.iterations iterations
  · simp only [false_iff]
    exact fun h => h.2.retention retention
  · simp only [Except.ok.injEq]
    exact ⟨fun eq => ⟨eq, iterations, retention⟩, fun h => h.1⟩

theorem validate_eq_error_iff {s : Settings} {fault : Fault} : s.validate = .error fault ↔
    (s.skewIterations = 0 ∧ fault = .badSettings .noIterations) ∨
      (s.skewIterations ≠ 0 ∧ s.lapRetention = .bounded 0 ∧ fault = .badSettings .noRetention) := by
  unfold validate
  split_ifs with iterations retention
  · simp [iterations, eq_comm]
  · simp [iterations, retention, eq_comm]
  · simp [iterations, retention]

theorem Reads.takes {α β : Type} {Denotes : String → β → Prop}
    {complaint : String → SettingsFault} {var : Option String} {r : Except Fault (Option β)}
    (h : Reads Denotes complaint var r) (fine : ∀ raw, var = some raw → ∃ b, Denotes raw b)
    (keep : β → α) (base : α) :
    Takes Denotes keep base var ((r.toOption.join.map keep).getD base) := by
  cases h with
  | unset => exact .unset
  | value denotes => exact .value denotes
  | fault nothing =>
    obtain ⟨b, denotes⟩ := fine _ rfl
    exact absurd denotes (nothing b)

theorem Reads.takes_self {β : Type} {Denotes : String → β → Prop}
    {complaint : String → SettingsFault} {var : Option String} {r : Except Fault (Option β)}
    (h : Reads Denotes complaint var r) (fine : ∀ raw, var = some raw → ∃ b, Denotes raw b)
    (base : β) : Takes Denotes id base var (r.toOption.join.getD base) := by
  have taken := h.takes fine id base
  rwa [Option.map_id_apply] at taken

theorem isEmpty_trim_iff {raw : String} :
    (trim raw).isEmpty = true ↔ ∀ c ∈ raw.toList, isBlank c = true := by
  rw [trim, String.isEmpty_iff, ← String.toList_eq_nil_iff, String.toList_ofList]
  constructor
  · intro empty
    obtain ⟨w, w', before, behind, eq⟩ := encloses_trimChars raw
    rw [eq, empty, List.nil_append]
    exact List.forall_mem_append.mpr ⟨before, behind⟩
  · exact trimChars_blank

theorem takesText (env : Environment) (name : String) (base : Option String) :
    TakesText base (env name) ((text? env name).orElse fun _ => base) := by
  unfold text?
  cases env name with
  | none => exact .unset
  | some raw =>
    by_cases empty : (trim raw).isEmpty = true
    · rw [Option.filter_some, empty]
      exact .blank (isEmpty_trim_iff.mp empty)
    · rw [Option.filter_some, Bool.eq_false_iff.mpr empty]
      exact .text (mt isEmpty_trim_iff.mpr empty)

theorem overridden_changed (s : Settings) {env : Environment}
    (fine : ∀ v ∈ valueVariables, v.InOrder env) : s.Overridden env (s.changed env) := by
  simp only [valueVariables, List.forall_mem_cons] at fine
  obtain ⟨useClockSkew, skewIterations, workers, timeline, flat, lapRetention, _⟩ := fine
  exact {
    useClockSkew := (reads_flag env _).takes_self useClockSkew _
    skewIterations := (reads_number env _).takes skewIterations _ _
    workers := (reads_number env _).takes_self workers _
    timeline := (reads_flag env _).takes_self timeline _
    flat := (reads_flag env _).takes_self flat _
    callFilter := takesText env _ _
    lapRetention := (reads_number env _).takes lapRetention _ _
    others := rfl }

theorem Overridden.eq_changed {s s' : Settings} {env : Environment} (h : s.Overridden env s') :
    s' = s.changed env := h.unique (overridden_changed s h.inOrder)

theorem override_eq_ok_iff {s s' : Settings} {env : Environment} :
    s.override env = .ok s' ↔ s.Overridden env s' ∧ s'.Workable := by
  rw [override_eq, bind_eq_ok_iff]
  constructor
  · rintro ⟨⟨⟩, fine, valid⟩
    obtain ⟨rfl, workable⟩ := validate_eq_ok_iff.mp valid
    exact ⟨overridden_changed s (Variable.checkAll_eq_ok_iff.mp fine), workable⟩
  · rintro ⟨overridden, workable⟩
    obtain rfl := overridden.eq_changed
    exact ⟨(), Variable.checkAll_eq_ok_iff.mpr overridden.inOrder,
      validate_eq_ok_iff.mpr ⟨rfl, workable⟩⟩

theorem Rejected.override_eq_error {s : Settings} {env : Environment} {cause : SettingsFault}
    (h : s.Rejected env cause) : s.override env = .error (.badSettings cause) := by
  rw [override_eq]
  cases h with
  | meaningless listed fine set nothing =>
    have wrong := Variable.check_eq_error_iff.mpr ⟨_, set, nothing, rfl⟩
    rw [Variable.checkAll_eq_error_iff.mpr ⟨_, _, _, listed, fine, wrong⟩]
    rfl
  | noIterations overridden zero =>
    obtain rfl := overridden.eq_changed
    rw [Variable.checkAll_eq_ok_iff.mpr overridden.inOrder]
    exact validate_eq_error_iff.mpr (.inl ⟨zero, rfl⟩)
  | noRetention overridden iterations zero =>
    obtain rfl := overridden.eq_changed
    rw [Variable.checkAll_eq_ok_iff.mpr overridden.inOrder]
    exact validate_eq_error_iff.mpr (.inr ⟨iterations, zero, rfl⟩)

theorem exists_rejected {s : Settings} {env : Environment} {fault : Fault}
    (refused : s.override env = .error fault) :
    ∃ cause, fault = .badSettings cause ∧ s.Rejected env cause := by
  rw [override_eq] at refused
  cases checked : valueVariables.forM (Variable.check env) with
  | error first =>
    obtain ⟨before, v, after, listed, fine, wrong⟩ := Variable.checkAll_eq_error_iff.mp checked
    obtain ⟨raw, set, nothing, rfl⟩ := Variable.check_eq_error_iff.mp wrong
    rw [checked] at refused
    cases refused
    exact ⟨_, rfl, .meaningless listed fine set nothing⟩
  | ok =>
    have overridden := overridden_changed s (Variable.checkAll_eq_ok_iff.mp checked)
    rw [checked] at refused
    rcases validate_eq_error_iff.mp refused with ⟨zero, rfl⟩ | ⟨iterations, zero, rfl⟩
    · exact ⟨_, rfl, .noIterations overridden zero⟩
    · exact ⟨_, rfl, .noRetention overridden iterations zero⟩

/-- The environment decides what the settings are, or why there are none. The iterations are those
that their variable denotes exactly when 32 bits hold that number. -/
theorem override_decided (s : Settings) (env : Environment) :
    (∀ s', s.override env = .ok s' ↔ s.Overridden env s' ∧ s'.Workable) ∧
      (∀ fault, s.override env = .error fault ↔
        ∃ cause, fault = .badSettings cause ∧ s.Rejected env cause) ∧
      ∀ s' raw n, s.override env = .ok s' → env skewIterationsVariable = some raw →
        DenotesNumber raw n → (s'.skewIterations = n ↔ n < UInt32.size) := by
  refine ⟨fun s' => override_eq_ok_iff, fun fault => ⟨exists_rejected, ?_⟩, ?_⟩
  · rintro ⟨cause, rfl, rejected⟩
    exact rejected.override_eq_error
  · intro s' raw n taken set denotes
    have iterations := (override_eq_ok_iff.mp taken).1.skewIterations
    rw [set] at iterations
    rw [iterations.eq_of_denotes DenotesNumber.unique denotes]
    exact Nat.mod_eq_iff_lt (by decide)

/-- Flags and numbers between blanks, a filter, and a bound that is taken away. -/
theorem override_decided_of_seven :
    let env : Environment := fun name =>
      [(useClockSkewVariable, " Off"), (skewIterationsVariable, "+4294967295 "),
        (workersVariable, "4"), (timelineVariable, "YES"), (flatVariable, "1"),
        (callFilterVariable, " trace=launch"), (lapRetentionVariable, "00")].lookup name
    let s : Settings := { lapRetention := .bounded 0, callFilter := some "exclude=launch" }
    let s' : Settings :=
      { useClockSkew := false, skewIterations := 4294967295, workers := 4, timeline := true,
        flat := true, callFilter := some " trace=launch" }
    s.override env = .ok s' ∧ s.Overridden env s' ∧
      (s'.skewIterations = 4294967295 ↔ 4294967295 < UInt32.size) := by
  intro env s s'
  have iterations : DenotesNumber "+4294967295 " 4294967295 := number_iff.mp (by decide +kernel)
  have workers : DenotesNumber "4" 4 := number_iff.mp (by decide +kernel)
  have bound : DenotesNumber "00" 0 := number_iff.mp (by decide +kernel)
  have off : DenotesFlag " Off" false := flag_iff.mp (by decide +kernel)
  have yes : DenotesFlag "YES" true := flag_iff.mp (by decide +kernel)
  have one : DenotesFlag "1" true := flag_iff.mp (by decide +kernel)
  have visible : ¬ ∀ c ∈ " trace=launch".toList, isBlank c = true :=
    fun blank => Bool.false_ne_true (blank 't' (by decide))
  have overridden : s.Overridden env s' := ⟨.value off, .value iterations, .value workers,
    .value yes, .value one, .text visible, .value bound, rfl⟩
  have taken := ((override_decided s env).1 s').mpr ⟨overridden, by decide, by decide⟩
  exact ⟨taken, overridden, (override_decided s env).2.2 s' _ _ taken rfl iterations⟩

/-- Of a number above 32 bits the upper part is lost. -/
theorem iterations_cut :
    let env : Environment := fun name =>
      [(skewIterationsVariable, "4294967297")].lookup name
    DenotesNumber "4294967297" 4294967297 ∧
      ({} : Settings).override env = .ok { skewIterations := 1 } := by
  refine ⟨?_, ?_⟩
  · exact number_iff.mp (by decide +kernel)
  · rfl

end SpanWeave.Settings
