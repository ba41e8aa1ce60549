import SpanWeave.Text.Blank

set_option autoImplicit false

/-!
# Parts of a text

What splitting a text at a separator and trimming the pieces gives, said without doing either: a
part stands between separators or ends of the text, with nothing but blanks around it.
-/
namespace SpanWeave.Text

/-! ## Trimming -/

theorem trimChars_blank_append {w : List Char} (blank : ∀ c ∈ w, isBlank c = true)
    (s : List Char) : trimChars (w ++ s) = trimChars s := by
  rw [trimChars, List.dropWhile_append_of_pos blank, trimChars]

theorem trimChars_append_blank {w : List Char} (blank : ∀ c ∈ w, isBlank c = true)
    (s : List Char) : trimChars (s ++ w) = trimChars s := by
  unfold trimChars
  rw [List.dropWhile_append]
  cases s.dropWhile isBlank with
  | nil =>
    rw [← List.append_nil w, List.dropWhile_append_of_pos blank]
    rfl
  | cons c t =>
    have blank' : ∀ d ∈ w.reverse, isBlank d = true := fun d member =>
      blank d (List.mem_reverse.mp member)
    rw [List.isEmpty_cons, if_neg Bool.false_ne_true, List.reverse_append,
      List.dropWhile_append_of_pos blank']

theorem trimChars_blank {w : List Char} (blank : ∀ c ∈ w, isBlank c = true) :
    trimChars w = [] := by
  rw [← List.append_nil w, trimChars_blank_append blank]
  rfl

theorem dropWhile_of_head {s : List Char} (first : ∀ c ∈ s.head?, isBlank c = false) :
    s.dropWhile isBlank = s := by
  cases s with
  | nil => rfl
  | cons c t => rw [List.dropWhile_cons, first c rfl, if_neg Bool.false_ne_true]

/-- A text whose first and last characters are not blank is left as it is. -/
theorem trimChars_of_ends {s : List Char} (first : ∀ c ∈ s.head?, isBlank c = false)
    (last : ∀ c ∈ s.getLast?, isBlank c = false) : trimChars s = s := by
  rw [← List.head?_reverse] at last
  rw [trimChars, dropWhile_of_head first, dropWhile_of_head last, List.reverse_reverse]

/-- What is not blank at the beginning stays there. -/
theorem trimChars_cons {c : Char} (visible : isBlank c = false) (s : List Char) :
    ∃ t, trimChars (c :: s) = c :: t := by
  have head : ∀ s : List Char, ∀ d ∈ (c :: s).head?, isBlank d = false :=
    fun _ _ eq => Option.some.inj eq ▸ visible
  rw [trimChars, dropWhile_of_head (head s), List.reverse_cons, List.dropWhile_append]
  cases s.reverse.dropWhile isBlank with
  | nil =>
    rw [List.isEmpty_nil, if_pos rfl, dropWhile_of_head (head [])]
    exact ⟨[], rfl⟩
  | cons d t =>
    rw [List.isEmpty_cons, if_neg Bool.false_ne_true, List.reverse_concat]
    exact ⟨_, rfl⟩

structure IsBare (s : List Char) : Prop where
  first : ∀ c ∈ s.head?, isBlank c = false
  last : ∀ c ∈ s.getLast?, isBlank c = false

theorem dropWhile_isBlank_head (s : List Char) :
    ∀ c ∈ (s.dropWhile isBlank).head?, isBlank c = false := by
  have h := List.head?_dropWhile_not isBlank s
  intro c first
  rw [first] at h
  exact h

theorem exists_dropWhile_isBlank (s : List Char) :
    ∃ w, (∀ c ∈ w, isBlank c = true) ∧ s = w ++ s.dropWhile isBlank :=
  ⟨s.takeWhile isBlank, List.all_eq_true.mp List.all_takeWhile,
    List.takeWhile_append_dropWhile.symm⟩

theorem trimChars_eq_iff {s t : List Char} : trimChars s = t ↔ IsBare t ∧
    ∃ w w', (∀ c ∈ w, isBlank c = true) ∧ (∀ c ∈ w', isBlank c = true) ∧ s = w ++ (t ++ w') := by
  constructor
  · rintro rfl
    obtain ⟨w, front, begins⟩ := exists_dropWhile_isBlank s
    obtain ⟨w', back, ends⟩ := exists_dropWhile_isBlank (s.dropWhile isBlank).reverse
    have ends' : s.dropWhile isBlank = trimChars s ++ w'.reverse := by
      rw [trimChars, ← List.reverse_append, ← ends, List.reverse_reverse]
    refine ⟨⟨fun c first => ?_, fun c last => ?_⟩, w, w'.reverse, front,
      fun c member => back c (List.mem_reverse.mp member), ends' ▸ begins⟩
    · refine dropWhile_isBlank_head s c ?_
      rw [ends', List.head?_append, first]
      rfl
    · rw [trimChars, List.getLast?_reverse] at last
      exact dropWhile_isBlank_head _ c last
  · rintro ⟨bare, w, w', front, back, rfl⟩
    rw [trimChars_blank_append front, trimChars_append_blank back,
      trimChars_of_ends bare.first bare.last]

/-! ## Splitting -/

/-- A piece of the text without a separator, from a separator or the beginning up to a separator or
the end. -/
def IsPiece (separator : Char) (s piece : List Char) : Prop :=
  ∃ front back, s = front ++ (piece ++ back) ∧ separator ∉ piece ∧
    (front = [] ∨ ∃ s', front = s' ++ [separator]) ∧ (back = [] ∨ ∃ s', back = separator :: s')

theorem isPiece_of_mem_splitOn {separator : Char} {piece : List Char} :
    ∀ {s : List Char}, piece ∈ s.splitOn separator → IsPiece separator s piece := by
  intro s
  induction n : s.length using Nat.strongRecOn generalizing s with
  | ind n ih =>
    intro member
    by_cases separated : separator ∈ s
    · obtain ⟨first, rest, rfl, absent⟩ := List.eq_append_cons_of_mem separated
      rw [List.splitOn_append_cons_self_of_not_mem absent] at member
      rcases List.mem_cons.mp member with rfl | member
      · exact ⟨[], separator :: rest, rfl, absent, .inl rfl, .inr ⟨rest, rfl⟩⟩
      · rw [List.length_append, List.length_cons] at n
        obtain ⟨front, back, rfl, inside, before, behind⟩ := ih _ (by omega) rfl member
        refine ⟨first ++ [separator] ++ front, back, ?_, inside, .inr ?_, behind⟩
        · rw [List.append_assoc, List.append_assoc]
          rfl
        · rcases before with rfl | ⟨s', rfl⟩
          · exact ⟨first, List.append_nil _⟩
          · exact ⟨first ++ [separator] ++ s', (List.append_assoc ..).symm⟩
    · rw [List.splitOn_eq_singleton separated] at member
      cases List.eq_of_mem_singleton member
      exact ⟨[], [], (List.append_nil _).symm, separated, .inl rfl, .inl rfl⟩

theorem mem_splitOn_iff {separator : Char} {s piece : List Char} :
    piece ∈ s.splitOn separator ↔ IsPiece separator s piece := by
  refine ⟨isPiece_of_mem_splitOn, ?_⟩
  rintro ⟨front, back, rfl, absent, before, behind⟩
  have inside : piece ∈ (piece ++ back).splitOn separator := by
    rcases behind with rfl | ⟨s', rfl⟩
    · rw [List.append_nil, List.splitOn_eq_singleton absent]
      exact List.mem_singleton_self piece
    · rw [List.splitOn_append_cons_self_of_not_mem absent]
      exact List.mem_cons_self
  rcases before with rfl | ⟨s', rfl⟩
  · exact inside
  · rw [List.append_assoc, List.singleton_append, List.splitOn_append_cons_self]
    exact List.mem_append_right _ inside

theorem after?_eq_some_iff {lead s rest : String} :
    after? lead s = some rest ↔ s = lead ++ rest := by
  unfold after?
  constructor
  · intro h
    by_cases leads : lead.toList.isPrefixOf s.toList = true
    · obtain ⟨tail, eq⟩ := List.isPrefixOf_iff_prefix.mp leads
      rw [if_pos leads, ← eq, List.drop_left] at h
      cases h
      rw [← String.toList_inj, String.toList_append, String.toList_ofList, eq]
    · rw [if_neg leads] at h
      cases h
  · rintro rfl
    rw [String.toList_append, if_pos (List.isPrefixOf_iff_prefix.mpr (List.prefix_append ..)),
      List.drop_left, String.ofList_toList]

/-! ## Parts -/

/-- A part of the text: it is not empty, no blank stands at either end of it, and between it and the
nearest separators or ends of the text there are only blanks. -/
structure IsPart (separator : Char) (s part : String) : Prop where
  visible : part ≠ ""
  bare : IsBare part.toList
  between : ∃ w w', (∀ c ∈ w, isBlank c = true) ∧ (∀ c ∈ w', isBlank c = true) ∧
    IsPiece separator s.toList (w ++ (part.toList ++ w'))

theorem IsPart.separator_not_mem {separator : Char} {s part : String}
    (h : IsPart separator s part) : separator ∉ part.toList := by
  obtain ⟨w, w', _, _, _, _, _, absent, _⟩ := h.between
  exact fun member => absent (List.mem_append_right _ (List.mem_append_left _ member))

theorem IsPart.mem {separator c : Char} {s part : String} (h : IsPart separator s part)
    (member : c ∈ part.toList) : c ∈ s.toList := by
  obtain ⟨w, w', _, _, front, back, eq, _⟩ := h.between
  rw [eq]
  exact List.mem_append_right _ (List.mem_append_left _
    (List.mem_append_right _ (List.mem_append_left _ member)))

theorem mem_trimmed_iff {separator : Char} {s part : String} :
    part ∈ ((splitAt separator s).map trim).filter (!·.isEmpty) ↔ IsPart separator s part := by
  have visible : (!part.isEmpty) = true ↔ part ≠ "" := by
    rw [Bool.not_eq_true', ← Bool.not_eq_true, String.isEmpty_iff]
  unfold splitAt
  rw [List.mem_filter, visible, List.map_map, List.mem_map]
  constructor
  · rintro ⟨⟨piece, member, trimmed⟩, visible⟩
    have same : trimChars piece = part.toList := by
      rw [← trimmed, Function.comp_apply, trim, String.toList_ofList, String.toList_ofList]
    obtain ⟨bare, w, w', before, behind, rfl⟩ := trimChars_eq_iff.mp same
    exact ⟨visible, bare, w, w', before, behind, mem_splitOn_iff.mp member⟩
  · rintro ⟨visible, bare, w, w', before, behind, between⟩
    refine ⟨⟨_, mem_splitOn_iff.mpr between, ?_⟩, visible⟩
    rw [Function.comp_apply, trim, String.toList_ofList,
      trimChars_eq_iff.mpr ⟨bare, w, w', before, behind, rfl⟩, String.ofList_toList]

end SpanWeave.Text
