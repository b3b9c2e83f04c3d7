import Checkup.Text.Search

/-!
# Cutting a text at a word

`cut?` cuts a text at the first occurrence of a word (`cut?_eq_some_iff`). What follows some
occurrence follows the first one too (`FirstAt.suffix`): whoever looks for something behind a word
need not look behind any but the first.
-/

namespace Checkup.Text

/-- The word stands between `before` and `after`, and nowhere further left. -/
structure FirstAt (word text before after : List Char) : Prop where
  whole : text = before ++ word ++ after
  least : ∀ front back, text = front ++ word ++ back → before.length ≤ front.length

variable {word text before after : List Char}

theorem FirstAt.unique (first : FirstAt word text before after) {front back : List Char}
    (other : FirstAt word text front back) : before = front ∧ after = back := by
  have length : before.length = front.length :=
    Nat.le_antisymm (first.least front back other.whole) (other.least before after first.whole)
  have same := first.whole.symm.trans other.whole
  rw [List.append_assoc, List.append_assoc] at same
  obtain ⟨sameBefore, rest⟩ := List.append_inj same length
  exact ⟨sameBefore, List.append_cancel_left rest⟩

/-- What follows some occurrence of the word is also found behind the first. -/
theorem FirstAt.suffix (first : FirstAt word text before after) {front back : List Char}
    (occurs : text = front ++ word ++ back) : back <:+ after := by
  have further := first.least front back occurs
  have here : back <:+ text := occurs ▸ List.suffix_append _ _
  have there : after <:+ text := first.whole ▸ List.suffix_append _ _
  have lengths := congrArg List.length (first.whole.symm.trans occurs)
  simp only [List.length_append] at lengths
  exact List.suffix_of_suffix_length_le here there (by omega)

theorem firstAt_nil (word : List Char) (after : List Char) : FirstAt word (word ++ after) [] after :=
  ⟨rfl, fun _ _ _ => Nat.zero_le _⟩

theorem firstAt_iff_ends :
    FirstAt word text before after ↔ text = before ++ word ++ after ∧
      ∀ front back, before ++ word = front ++ word ++ back → back = [] := by
  constructor
  · rintro ⟨whole, least⟩
    refine ⟨whole, ?_⟩
    intro front back occurs
    have further := least front (back ++ after) (by rw [whole, occurs]; simp)
    have lengths := congrArg List.length occurs
    simp only [List.length_append] at lengths
    exact List.length_eq_zero_iff.mp (by omega)
  · rintro ⟨whole, ends⟩
    refine ⟨whole, ?_⟩
    intro front back occurs
    apply Nat.le_of_not_lt
    intro nearer
    have short : (front ++ word).length ≤ (before ++ word).length := by
      simp only [List.length_append]
      omega
    have here : front ++ word <+: text := occurs ▸ List.prefix_append _ _
    have there : before ++ word <+: text := whole ▸ List.prefix_append _ _
    obtain ⟨rest, inside⟩ := List.prefix_of_prefix_length_le here there short
    have lengths := congrArg List.length inside
    rw [ends front rest inside.symm] at lengths
    simp only [List.append_nil, List.length_append] at lengths
    omega

theorem firstAt_singleton_iff {c : Char} :
    FirstAt [c] text before after ↔ text = before ++ [c] ++ after ∧ c ∉ before := by
  constructor
  · rintro ⟨whole, least⟩
    refine ⟨whole, ?_⟩
    intro inside
    obtain ⟨front, back, rfl⟩ := List.append_of_mem inside
    have further := least front (back ++ [c] ++ after) (by rw [whole]; simp)
    simp only [List.length_append, List.length_cons] at further
    omega
  · rintro ⟨whole, absent⟩
    refine ⟨whole, ?_⟩
    intro front back occurs
    apply Nat.le_of_not_lt
    intro nearer
    have short : (front ++ [c]).length ≤ before.length := by
      simp only [List.length_append, List.length_singleton]
      omega
    have here : front ++ [c] <+: text := occurs ▸ List.prefix_append _ _
    have there : before <+: text :=
      whole ▸ List.append_assoc before _ _ ▸ List.prefix_append _ _
    have inside := List.prefix_of_prefix_length_le here there short
    exact absent (inside.subset (by simp))

/-- A word that does not begin with this character is first found behind it. -/
theorem firstAt_cons_iff {c : Char} (missed : ∀ rest, c :: text ≠ word ++ rest) :
    FirstAt word (c :: text) before after ↔
      ∃ front, before = c :: front ∧ FirstAt word text front after := by
  constructor
  · intro first
    cases before with
    | nil => exact absurd first.whole (missed after)
    | cons d front =>
      obtain ⟨rfl, whole⟩ := List.cons.inj first.whole
      refine ⟨front, rfl, whole, ?_⟩
      intro other back occurs
      have further := first.least (c :: other) back (congrArg (c :: ·) occurs)
      simpa using further
  · rintro ⟨front, rfl, whole, least⟩
    refine ⟨congrArg (c :: ·) whole, ?_⟩
    intro other back occurs
    cases other with
    | nil => exact absurd occurs (missed back)
    | cons d other =>
      obtain ⟨rfl, later⟩ := List.cons.inj occurs
      simpa using least other back later

theorem cut?_eq_some_iff : cut? word text = some (before, after) ↔ FirstAt word text before after := by
  induction text generalizing before with
  | nil =>
    rw [cut?]
    constructor
    · intro found
      split at found
      · next empty =>
        cases found
        obtain rfl := List.isEmpty_iff.mp empty
        exact firstAt_nil [] []
      · cases found
    · intro first
      have parts := first.whole
      simp only [List.nil_eq, List.append_eq_nil_iff] at parts
      obtain ⟨⟨rfl, rfl⟩, rfl⟩ := parts
      rfl
  | cons c text ih =>
    rw [cut?]
    split
    · next rest taken =>
      have here : FirstAt word (c :: text) [] rest :=
        after?_eq_some_iff.mp taken ▸ firstAt_nil word rest
      constructor
      · intro found
        cases found
        exact here
      · intro first
        obtain ⟨rfl, rfl⟩ := here.unique first
        rfl
    · next missed =>
      have elsewhere : ∀ rest, c :: text ≠ word ++ rest := by
        intro rest here
        rw [after?_eq_some_iff.mpr here] at missed
        cases missed
      rw [firstAt_cons_iff elsewhere, Option.map_eq_some_iff]
      constructor
      · rintro ⟨⟨front, back⟩, found, same⟩
        cases same
        exact ⟨front, rfl, ih.mp found⟩
      · rintro ⟨front, rfl, first⟩
        exact ⟨(front, after), ih.mpr first, rfl⟩

theorem exists_firstAt (occurs : word <:+: text) : ∃ before after, FirstAt word text before after := by
  induction text with
  | nil =>
    obtain rfl := List.eq_nil_of_infix_nil occurs
    exact ⟨[], [], firstAt_nil [] []⟩
  | cons c text ih =>
    by_cases here : word <+: c :: text
    · obtain ⟨rest, here⟩ := here
      exact ⟨[], rest, here ▸ firstAt_nil word rest⟩
    · have later := (List.infix_cons_iff.mp occurs).resolve_left here
      obtain ⟨before, after, first⟩ := ih later
      have missed : ∀ rest, c :: text ≠ word ++ rest := fun rest opens => here ⟨rest, opens.symm⟩
      exact ⟨c :: before, after, (firstAt_cons_iff missed).mpr ⟨before, rfl, first⟩⟩

theorem occursIn_iff_infix {word : String} :
    occursIn word text = true ↔ word.toList <:+: text := by
  rw [occursIn, Option.isSome_iff_exists]
  constructor
  · rintro ⟨⟨before, after⟩, found⟩
    exact ⟨before, after, (cut?_eq_some_iff.mp found).whole.symm⟩
  · intro occurs
    obtain ⟨before, after, first⟩ := exists_firstAt occurs
    exact ⟨(before, after), cut?_eq_some_iff.mpr first⟩

/-- Text before that lacks the first character of a word is passed over. -/
theorem cut?_append {c : Char} {front : List Char} (absent : c ∉ front) (word text : List Char) :
    cut? (c :: word) (front ++ text) =
      (cut? (c :: word) text).map fun (before, after) => (front ++ before, after) := by
  induction front with
  | nil => simp
  | cons d front ih =>
    rw [List.mem_cons, not_or] at absent
    rw [List.cons_append, cut?, after?, if_neg absent.1, ih absent.2, Option.map_map]
    rfl

/-- Text behind that has no character of a word only adds to what follows the word. -/
theorem after?_append_of_apart {back : List Char} (apart : ∀ c ∈ back, c ∉ word)
    (text : List Char) : after? word (text ++ back) = (after? word text).map (· ++ back) := by
  induction word generalizing text with
  | nil => rfl
  | cons w word ih =>
    have apartRest : ∀ c ∈ back, c ∉ word := fun c inBack inWord =>
      apart c inBack (List.mem_cons_of_mem w inWord)
    cases text with
    | nil =>
      cases back with
      | nil => rfl
      | cons d back =>
        have different : w ≠ d := fun same =>
          apart d List.mem_cons_self (same ▸ List.mem_cons_self)
        exact if_neg different
    | cons c text =>
      rw [List.cons_append, after?, after?]
      split
      · exact ih apartRest text
      · rfl

theorem cut?_append_of_apart {back : List Char} (apart : ∀ c ∈ back, c ∉ word)
    (text : List Char) :
    cut? word (text ++ back) =
      (cut? word text).map fun (before, after) => (before, after ++ back) := by
  induction text with
  | nil =>
    cases word with
    | nil => cases back <;> rfl
    | cons w word =>
      have absent : w ∉ back := fun inBack => apart w inBack List.mem_cons_self
      have passed := cut?_append absent word []
      rw [List.append_nil] at passed
      exact passed
  | cons c text ih =>
    have here := after?_append_of_apart apart (c :: text)
    rw [List.cons_append] at here ⊢
    rw [cut?, cut?, here]
    cases after? word (c :: text) with
    | some after => rfl
    | none =>
      dsimp only [Option.map_none]
      rw [ih, Option.map_map, Option.map_map]
      rfl

end Checkup.Text
