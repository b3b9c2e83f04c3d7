import Checkup.Proofs.Pattern.Spans
import Checkup.Proofs.Script.Scans

/-!
# Dropped navigations

A line is near setup level if the text up to its end opens at most one brace more than it closes.
The scan keeps the difference, which may be negative, and reports the lines near setup level that
call `navigateTo` and do not return the call. `setupNavigations_listing` shows that it lists exactly
these lines, each once and in order, and that behind balanced lines it goes on as from the start.
-/

namespace Checkup.Script

open Pattern

/-- The text opens at most one brace more than it closes. -/
def NearSetup (text : List Char) : Prop := text.count '\x7b' ≤ text.count '\x7d' + 1

/-- The line calls `navigateTo`, with or without blanks before the parenthesis. -/
def CallsNavigation (line : List Char) : Prop :=
  ∃ before gap after, line = before ++ "navigateTo".toList ++ gap ++ '(' :: after ∧
    ∀ c ∈ gap, Text.isBlank c = true

/-- The line has the word for a return and, behind blanks, `navigateTo`. -/
def ReturnsNavigation (line : List Char) : Prop :=
  ∃ before gap after, line = before ++ "return".toList ++ gap ++ "navigateTo".toList ++ after ∧
    gap ≠ [] ∧ ∀ c ∈ gap, Text.isBlank c = true

variable {line : List Char}

/-! ### The patterns of the scan -/

theorem occursIn_navigation_iff : navigation.occursIn line = true ↔ CallsNavigation line := by
  simp only [occursIn_iff, navigation, spans_append_lit, spans_append_blanks, spans_lit]
  constructor
  · rintro ⟨before, _, after, rfl, _, rfl, _, gap, rfl, rfl, blank⟩
    exact ⟨before, gap, after, by simp, blank⟩
  · rintro ⟨before, gap, after, rfl, blank⟩
    exact ⟨before, _, after, by simp, _, rfl, _, gap, rfl, rfl, blank⟩

theorem occursIn_returnedNavigation_iff :
    returnedNavigation.occursIn line = true ↔ ReturnsNavigation line := by
  simp only [occursIn_iff, returnedNavigation, spans_append_lit, spans_append (q := someBlanks),
    spans_someBlanks, spans_lit]
  constructor
  · rintro ⟨before, _, after, rfl, _, rfl, _, gap, rfl, rfl, blanks⟩
    exact ⟨before, gap, after, by simp, blanks⟩
  · rintro ⟨before, gap, after, rfl, blanks⟩
    exact ⟨before, _, after, by simp, _, rfl, _, gap, rfl, rfl, blanks⟩

theorem dropsNavigation_iff :
    dropsNavigation line = true ↔ CallsNavigation line ∧ ¬ ReturnsNavigation line := by
  rw [dropsNavigation, Bool.and_eq_true, Bool.not_eq_true', ← Bool.not_eq_true,
    occursIn_navigation_iff, occursIn_returnedNavigation_iff]

/-! ### The depth -/

theorem braceBalance_le_one_iff {text : List Char} : braceBalance text ≤ 1 ↔ NearSetup text := by
  unfold braceBalance NearSetup
  omega

theorem braceBalance_eq_zero_iff {text : List Char} :
    braceBalance text = 0 ↔ text.count '\x7b' = text.count '\x7d' := by
  unfold braceBalance
  omega

/-- The scan goes on with the depth and the number that the lines before have left. -/
theorem navigationsFrom_append (depth : Int) (start : Nat) (lines more : List (List Char)) :
    navigationsFrom depth start (lines ++ more) =
      navigationsFrom depth start lines ++
        navigationsFrom (depth + braceBalance lines.flatten) (start + lines.length) more := by
  induction lines generalizing depth start with
  | nil => simp [navigationsFrom, braceBalance]
  | cons line rest ih =>
    have below : depth + braceBalance (line :: rest).flatten =
        depth + braceBalance line + braceBalance rest.flatten := by
      rw [List.flatten_cons, braceBalance_append]
      omega
    have further : start + (line :: rest).length = start + 1 + rest.length := by
      rw [List.length_cons]
      omega
    rw [List.cons_append, navigationsFrom, navigationsFrom, ih, below, further]
    split
    · rw [List.cons_append]
    · rfl

theorem navigationsFrom_add (depth : Int) (start offset : Nat) (lines : List (List Char)) :
    navigationsFrom depth (start + offset) lines =
      (navigationsFrom depth start lines).map (· + offset) := by
  induction lines generalizing depth start with
  | nil => rfl
  | cons line rest ih =>
    rw [navigationsFrom, navigationsFrom, show start + offset + 1 = start + 1 + offset by omega, ih]
    split
    · rw [List.map_cons]
    · rfl

/-! ### The scan -/

/-- The scan lists the lines near setup level that drop a navigation, each once and in order. Behind
lines that close as many braces as they open it lists what it would list at the start. -/
theorem setupNavigations_listing (lines : List (List Char)) :
    (∀ found, found = setupNavigations lines ↔ found.Pairwise (· < ·) ∧
      ∀ number, number ∈ found ↔ ∃ index line, lines[index]? = some line ∧ number = index + 1 ∧
        NearSetup (lines.take number).flatten ∧ CallsNavigation line ∧ ¬ ReturnsNavigation line) ∧
    ∀ more, lines.flatten.count '\x7b' = lines.flatten.count '\x7d' →
      setupNavigations (lines ++ more) =
        setupNavigations lines ++ (setupNavigations more).map (· + lines.length) := by
  have listed : ∀ number, number ∈ setupNavigations lines ↔ ∃ index line,
      lines[index]? = some line ∧ number = index + 1 ∧ NearSetup (lines.take number).flatten ∧
        CallsNavigation line ∧ ¬ ReturnsNavigation line := by
    intro number
    rw [setupNavigations, mem_navigationsFrom]
    simp only [Int.zero_add, braceBalance_le_one_iff, dropsNavigation_iff]
    constructor
    · rintro ⟨index, line, read, rfl, near, drops⟩
      exact ⟨index, line, read, by omega, by rwa [Nat.add_comm], drops⟩
    · rintro ⟨index, line, read, rfl, near, drops⟩
      exact ⟨index, line, read, by omega, near, drops⟩
  have sorted : (setupNavigations lines).Pairwise (· < ·) := pairwise_navigationsFrom 0 1 lines
  constructor
  · intro found
    constructor
    · rintro rfl
      exact ⟨sorted, listed⟩
    · rintro ⟨increasing, same⟩
      refine increasing.eq_of_mem_iff sorted ?_
      intro number
      rw [same, listed]
  · intro more balanced
    rw [setupNavigations, navigationsFrom_append, braceBalance_eq_zero_iff.mpr balanced,
      navigationsFrom_add]
    rfl

/-- Two braces that were never opened are closed again by the second line, and a third line counts
from there. -/
theorem setupNavigations_of_unopened :
    let lines := ["\x7d\x7d navigateTo(a)".toList, "\x7b\x7b".toList]
    let more := ["f(() => \x7b navigateTo (b)".toList, "\x7b navigateTo(c)".toList]
    lines.flatten.count '\x7b' = lines.flatten.count '\x7d' ∧
      setupNavigations (lines ++ more) = [1, 3] ∧
      setupNavigations (lines ++ more) =
        setupNavigations lines ++ (setupNavigations more).map (· + lines.length) := by
  intro lines more
  have balanced : lines.flatten.count '\x7b' = lines.flatten.count '\x7d' := by decide
  exact ⟨balanced, by decide +kernel, (setupNavigations_listing lines).2 more balanced⟩

end Checkup.Script
