import Checkup.Text.Search

/-!
# Pieces of a text

How the pieces of a text lie among the pieces of a longer one. `getElem?_pieces_between` says it
for a text with something before and after it: only its first and last piece may be longer there.
Pieces that are joined again give the text (`intercalate_pieces`).
-/

namespace Checkup.Text

theorem pieces_nil (separator : Char) : pieces separator [] = [[]] := rfl

theorem pieces_separator (separator : Char) (text : List Char) :
    pieces separator (separator :: text) = [] :: pieces separator text := by
  rw [pieces, if_pos rfl]

theorem pieces_cons_ne {separator c : Char} (different : c ≠ separator) (text : List Char) :
    pieces separator (c :: text) =
      (c :: (pieces separator text).head?.getD []) :: (pieces separator text).tail := by
  rw [pieces, if_neg different]
  cases pieces separator text with
  | nil => rfl
  | cons piece more => rfl

theorem length_pieces (separator : Char) (text : List Char) :
    (pieces separator text).length = text.count separator + 1 := by
  induction text with
  | nil => rfl
  | cons c text ih =>
    by_cases same : c = separator
    · subst same
      rw [pieces_separator, List.length_cons, ih, List.count_cons_self]
    · rw [pieces_cons_ne same, List.length_cons, List.length_tail, ih, List.count_cons_of_ne same]
      omega

theorem pieces_ne_nil (separator : Char) (text : List Char) : pieces separator text ≠ [] := by
  intro none
  have length := length_pieces separator text
  rw [none, List.length_nil] at length
  omega

theorem getElem?_pieces_cons_ne {separator c : Char} (different : c ≠ separator) (text : List Char)
    {i : Nat} (later : i ≠ 0) :
    (pieces separator (c :: text))[i]? = (pieces separator text)[i]? := by
  rw [pieces_cons_ne different]
  cases i with
  | zero => exact absurd rfl later
  | succ i => rw [List.getElem?_cons_succ, List.getElem?_tail]

theorem getElem?_pieces_cons_ne_zero {separator c : Char} (different : c ≠ separator)
    {text piece : List Char} (first : (pieces separator text)[0]? = some piece) :
    (pieces separator (c :: text))[0]? = some (c :: piece) := by
  rw [pieces_cons_ne different, List.getElem?_cons_zero, List.head?_eq_getElem?, first]
  rfl

/-- Text before moves the pieces on; the first is continued from it. -/
theorem getElem?_pieces_append_right {separator : Char} (before : List Char)
    {text piece : List Char} {i : Nat} (read : (pieces separator text)[i]? = some piece) :
    ∃ front, (pieces separator (before ++ text))[before.count separator + i]? =
      some (front ++ piece) ∧ (i ≠ 0 → front = []) := by
  induction before with
  | nil => exact ⟨[], by rw [List.count_nil, Nat.zero_add]; exact read, fun _ => rfl⟩
  | cons c before ih =>
    obtain ⟨front, found, whole⟩ := ih
    by_cases same : c = separator
    · subst same
      refine ⟨front, ?_, whole⟩
      rw [List.cons_append, pieces_separator, List.count_cons_self,
        show before.count c + 1 + i = before.count c + i + 1 by omega, List.getElem?_cons_succ]
      exact found
    · rw [List.cons_append, List.count_cons_of_ne same]
      by_cases start : before.count separator + i = 0
      · rw [start] at found ⊢
        refine ⟨c :: front, getElem?_pieces_cons_ne_zero same found, ?_⟩
        intro later
        omega
      · refine ⟨front, ?_, whole⟩
        rw [getElem?_pieces_cons_ne same _ start]
        exact found

/-- Text after leaves the pieces where they are; the last is continued into it. -/
theorem getElem?_pieces_append_left {separator : Char} {text piece : List Char} {i : Nat}
    (read : (pieces separator text)[i]? = some piece) (after : List Char) :
    ∃ back, (pieces separator (text ++ after))[i]? = some (piece ++ back) ∧
      (i + 1 < (pieces separator text).length → back = []) := by
  induction text generalizing i piece with
  | nil =>
    rw [pieces_nil] at read ⊢
    cases i with
    | zero =>
      rw [List.getElem?_cons_zero, Option.some_inj] at read
      subst read
      cases found : pieces separator after with
      | nil => exact absurd found (pieces_ne_nil separator after)
      | cons first more =>
        refine ⟨first, by rw [List.nil_append, found]; rfl, ?_⟩
        intro inner
        exact absurd inner (by simp)
    | succ i => cases read
  | cons c text ih =>
    by_cases same : c = separator
    · subst same
      rw [List.cons_append, pieces_separator, pieces_separator, List.length_cons] at *
      cases i with
      | zero =>
        rw [List.getElem?_cons_zero, Option.some_inj] at read
        subst read
        exact ⟨[], rfl, fun _ => rfl⟩
      | succ i =>
        obtain ⟨back, found, whole⟩ := ih read
        exact ⟨back, found, fun inner => whole (by omega)⟩
    · have length : (pieces separator (c :: text)).length = (pieces separator text).length := by
        rw [length_pieces, length_pieces, List.count_cons_of_ne same]
      rw [length, List.cons_append]
      cases i with
      | zero =>
        cases found : (pieces separator text)[0]? with
        | none =>
          rw [List.getElem?_eq_none_iff, length_pieces] at found
          omega
        | some rest =>
          rw [getElem?_pieces_cons_ne_zero same found, Option.some_inj] at read
          subst read
          obtain ⟨back, continued, whole⟩ := ih found
          exact ⟨back, getElem?_pieces_cons_ne_zero same continued, whole⟩
      | succ i =>
        rw [getElem?_pieces_cons_ne same _ (Nat.succ_ne_zero i)] at read ⊢
        exact ih read

/-- A piece of a text is part of the piece of a longer text that stands as much further on as there
are separators before, and it is that piece unless it is the first or the last. -/
theorem getElem?_pieces_between {separator : Char} (before after : List Char)
    {text piece : List Char} {i : Nat} (read : (pieces separator text)[i]? = some piece) :
    ∃ whole, (pieces separator (before ++ text ++ after))[before.count separator + i]? =
        some whole ∧ piece <:+: whole ∧
      (0 < i → i + 1 < (pieces separator text).length → piece = whole) := by
  obtain ⟨back, found, last⟩ := getElem?_pieces_append_left read after
  obtain ⟨front, continued, first⟩ := getElem?_pieces_append_right before found
  rw [← List.append_assoc] at continued
  refine ⟨front ++ (piece ++ back), continued, ⟨front, back, List.append_assoc _ _ _⟩, ?_⟩
  intro later inner
  rw [first (by omega), last inner, List.nil_append, List.append_nil]

/-! ### Joining -/

theorem pieces_eq_splitOn (separator : Char) (text : List Char) :
    pieces separator text = text.splitOn separator := by
  induction text with
  | nil => rfl
  | cons c text ih =>
    rw [List.splitOn_cons_eq_if_modifyHead, pieces, ← ih]
    simp only [beq_iff_eq]
    split
    · rfl
    · cases found : pieces separator text with
      | nil => exact absurd found (pieces_ne_nil separator text)
      | cons piece more => rfl

theorem mem_of_mem_pieces {separator : Char} {text piece : List Char}
    (member : piece ∈ pieces separator text) {c : Char} (inside : c ∈ piece) :
    c ∈ text ∧ c ≠ separator := by
  induction text generalizing piece with
  | nil =>
    obtain rfl := List.mem_singleton.mp member
    cases inside
  | cons d text ih =>
    have rest : ∀ {other : List Char}, other ∈ pieces separator text → c ∈ other →
        c ∈ d :: text ∧ c ≠ separator := by
      intro other later inOther
      obtain ⟨inText, different⟩ := ih later inOther
      exact ⟨List.mem_cons_of_mem d inText, different⟩
    by_cases same : d = separator
    · subst same
      rw [pieces_separator] at member
      rcases List.mem_cons.mp member with rfl | later
      · cases inside
      · exact rest later inside
    · cases found : pieces separator text with
      | nil => exact absurd found (pieces_ne_nil separator text)
      | cons first more =>
        rw [found] at rest
        rw [pieces_cons_ne same, found] at member
        rcases List.mem_cons.mp member with rfl | later
        · rcases List.mem_cons.mp inside with rfl | inFirst
          · exact ⟨List.mem_cons_self, same⟩
          · exact rest List.mem_cons_self inFirst
        · exact rest (List.mem_cons_of_mem _ later) inside

theorem not_mem_of_mem_pieces {separator : Char} {text piece : List Char}
    (member : piece ∈ pieces separator text) : separator ∉ piece := by
  intro inside
  exact (mem_of_mem_pieces member inside).2 rfl

theorem pieces_intercalate {separator : Char} {parts : List (List Char)} (nonempty : parts ≠ [])
    (clean : ∀ part ∈ parts, separator ∉ part) :
    pieces separator ([separator].intercalate parts) = parts := by
  rw [pieces_eq_splitOn, List.splitOn_intercalate separator clean nonempty]

theorem intercalate_pieces (separator : Char) (text : List Char) :
    [separator].intercalate (pieces separator text) = text := by
  rw [pieces_eq_splitOn, List.intercalate_splitOn]

theorem suffix_of_getLast?_pieces {separator : Char} {text piece : List Char}
    (last : (pieces separator text).getLast? = some piece) : piece <:+ text := by
  obtain ⟨front, whole⟩ := List.getLast?_eq_some_iff.mp last
  have ends : ∀ front : List (List Char), piece <:+ [separator].intercalate (front ++ [piece]) := by
    intro front
    induction front with
    | nil => exact ⟨[], List.intercalate_singleton.symm⟩
    | cons first front ih =>
      rw [List.cons_append, List.intercalate_cons_of_ne_nil (by simp)]
      exact ih.trans (List.suffix_append _ _)
  rw [← intercalate_pieces separator text, whole]
  exact ends front

/-! ### Cutting -/

theorem cut?_eq_some {word text before after : List Char}
    (found : cut? word text = some (before, after)) : text = before ++ word ++ after := by
  induction text generalizing before with
  | nil =>
    rw [cut?] at found
    split at found
    · next empty =>
      rw [List.isEmpty_iff] at empty
      cases found
      rw [empty]
      rfl
    · cases found
  | cons c text ih =>
    rw [cut?] at found
    split at found
    · next rest taken =>
      cases found
      exact after?_eq_some_iff.mp taken
    · next missed =>
      obtain ⟨⟨front, back⟩, later, same⟩ := Option.map_eq_some_iff.mp found
      cases same
      rw [ih later]
      rfl

end Checkup.Text
