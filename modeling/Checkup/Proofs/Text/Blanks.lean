import Checkup.Text.Blank
import Checkup.Text.Search
import Checkup.Text.Word
import Mathlib.Data.List.DropRight

/-!
# Blanks

Blanks are no word characters: the ranges of the two classes lie apart (`isWord_of_isBlank`). A word
without blanks opens a trimmed line where it comes first on the line itself (`opens_trim_iff`).
-/

namespace Checkup.Text

theorem Ranges.covers_iff {ranges : Ranges} {n : Nat} :
    ranges.covers n = true ↔ ∃ range ∈ ranges, range.1 ≤ n ∧ n ≤ range.2 := by
  simp [covers]

/-- No range of the one lies across a range of the other. -/
def Ranges.apart (first second : Ranges) : Bool :=
  first.all fun x => second.all fun y => x.2 < y.1 || y.2 < x.1

theorem Ranges.not_covers_of_apart {first second : Ranges} {n : Nat}
    (separate : first.apart second = true) (h : first.covers n = true) :
    ¬ second.covers n = true := by
  intro h'
  obtain ⟨x, hx, lx, ux⟩ := covers_iff.mp h
  obtain ⟨y, hy, ly, uy⟩ := covers_iff.mp h'
  have sides := List.all_eq_true.mp (List.all_eq_true.mp separate x hx) y hy
  simp only [Bool.or_eq_true, decide_eq_true_eq] at sides
  omega

/-- The blanks. -/
def blankRanges : Ranges :=
  [(0x09, 0x0D), (0x1C, 0x20), (0x85, 0x85), (0xA0, 0xA0), (0x1680, 0x1680), (0x2000, 0x200A),
    (0x2028, 0x2029), (0x202F, 0x202F), (0x205F, 0x205F), (0x3000, 0x3000)]

/-- The word characters below 0x80. -/
def asciiWordRanges : Ranges := [(0x30, 0x39), (0x41, 0x5A), (0x5F, 0x5F), (0x61, 0x7A)]

theorem covers_of_isBlank {c : Char} (blank : isBlank c = true) :
    blankRanges.covers c.toNat = true := by
  simp only [isBlank, Bool.or_eq_true, Bool.and_eq_true, decide_eq_true_eq, beq_iff_eq] at blank
  simp [blankRanges, Ranges.covers]
  omega

theorem covers_of_isWord {c : Char} (word : isWord c = true) :
    asciiWordRanges.covers c.toNat = true ∨ wordRanges.covers c.toNat = true := by
  rw [isWord] at word
  delta Char.isAlphanum Char.isAlpha Char.isUpper Char.isLower Char.isDigit at word
  simp only [Bool.or_eq_true, Bool.and_eq_true, decide_eq_true_eq, beq_iff_eq] at word
  rcases word with (((⟨h, h'⟩ | ⟨h, h'⟩) | ⟨h, h'⟩) | rfl) | ⟨-, h⟩
  · exact Or.inl (Ranges.covers_iff.mpr ⟨(0x41, 0x5A), by decide, h, h'⟩)
  · exact Or.inl (Ranges.covers_iff.mpr ⟨(0x61, 0x7A), by decide, h, h'⟩)
  · exact Or.inl (Ranges.covers_iff.mpr ⟨(0x30, 0x39), by decide, h, h'⟩)
  · exact Or.inl (by decide)
  · exact Or.inr h

theorem isWord_of_isBlank {c : Char} (blank : isBlank c = true) : isWord c = false := by
  have covered := covers_of_isBlank blank
  refine Bool.eq_false_iff.mpr fun word => ?_
  rcases covers_of_isWord word with ascii | other
  · exact Ranges.not_covers_of_apart (by decide) covered ascii
  · exact Ranges.not_covers_of_apart (by decide +kernel) covered other

/-! ### The first word of a line -/

/-- The word comes first on the line, or first after blanks. -/
def Leads (word line : List Char) : Prop :=
  ∃ gap rest, line = gap ++ word ++ rest ∧ ∀ c ∈ gap, isBlank c = true

theorem prefix_rdropWhile {p : Char → Bool} {word : List Char} (solid : ∀ c ∈ word, p c = false)
    (rest : List Char) : word <+: (word ++ rest).rdropWhile p := by
  induction rest using List.reverseRecOn with
  | nil =>
    have ends : ∀ nonempty : word ≠ [], ¬ p (word.getLast nonempty) = true := by
      intro nonempty
      simp [solid _ (List.getLast_mem nonempty)]
    have whole := List.rdropWhile_eq_self_iff.mpr ends
    exact ⟨[], by rw [List.append_nil, whole]⟩
  | append_singleton rest c ih =>
    rw [← List.append_assoc, List.rdropWhile_concat]
    split
    · exact ih
    · exact ⟨rest ++ [c], by simp⟩

theorem opens_trim_iff {word : String} {line : List Char} (nonempty : word.toList ≠ [])
    (solid : word.toList.any isBlank = false) :
    opens word (trim line) = true ↔ Leads word.toList line := by
  rw [opens, List.isPrefixOf_iff_prefix]
  generalize word.toList = word at nonempty solid ⊢
  have solid : ∀ c ∈ word, isBlank c = false := by simpa using solid
  have cut : trim line = (line.dropWhile isBlank).rdropWhile isBlank := rfl
  obtain ⟨first, others, rfl⟩ := List.exists_cons_of_ne_nil nonempty
  have hf := solid first List.mem_cons_self
  constructor
  · rintro h
    obtain ⟨rest, whole⟩ := (cut ▸ h).trans (List.rdropWhile_prefix _ _)
    refine ⟨line.takeWhile isBlank, rest, ?_, fun c => List.mem_takeWhile_imp⟩
    rw [List.append_assoc, whole, List.takeWhile_append_dropWhile]
  · rintro ⟨gap, rest, rfl, blank⟩
    rw [cut, List.append_assoc, List.dropWhile_append_of_pos blank, List.cons_append,
      List.dropWhile_cons_of_neg (by simp [hf]), ← List.cons_append]
    exact prefix_rdropWhile solid rest

end Checkup.Text
