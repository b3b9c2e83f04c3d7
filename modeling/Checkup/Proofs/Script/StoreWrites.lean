import Checkup.Proofs.Pattern.Spans
import Checkup.Proofs.Script.Scans
import Checkup.Proofs.Text.Runs
import Mathlib.Data.List.Infix

/-!
# Writes to a store

A line writes to a store if behind the store's name and a dot there is a member, and behind the
member an equals sign that no other follows. `storeWrites_listing` shows that the scan lists exactly
these lines and names, for names of any characters. The member ends where its run of word characters
ends, so that neither a comparison nor one of the store's own members, whose names begin with a
dollar sign, is taken for a write.
-/

namespace Checkup.Script

open Pattern

/-- `name` stands on the line where a word begins or ends, with a dot and then `text` behind it. -/
def Accesses (name : String) (line text : List Char) : Prop :=
  ∃ before, line = before ++ name.toList ++ '.' :: text ∧
    IsBorder before (name.toList ++ '.' :: text)

/-- The text begins with a member that is assigned to. -/
def AssignsMember (text : List Char) : Prop :=
  ∃ member gap value, Text.LongestRun Text.isWord text member (gap ++ '=' :: value) ∧
    member ≠ [] ∧ (∀ c ∈ gap, Text.isBlank c = true) ∧ value.head? ≠ some '='

/-- The text begins with a member that is compared by two equals signs or more. -/
def ComparesMember (text : List Char) : Prop :=
  ∃ member gap other, Text.LongestRun Text.isWord text member (gap ++ '=' :: '=' :: other) ∧
    member ≠ [] ∧ (∀ c ∈ gap, Text.isBlank c = true)

variable {name : String} {line text : List Char}

theorem AssignsMember.head?_ne_dollar (assigns : AssignsMember text) : text.head? ≠ some '$' := by
  obtain ⟨member, gap, value, longest, nonempty, -⟩ := assigns
  obtain ⟨c, others, rfl⟩ := List.exists_cons_of_ne_nil nonempty
  have word := longest.accepted c List.mem_cons_self
  rw [longest.whole]
  intro dollar
  obtain rfl : c = '$' := by simpa using dollar
  exact absurd word (by decide)

theorem AssignsMember.not_compares (assigns : AssignsMember text) : ¬ ComparesMember text := by
  obtain ⟨member, gap, value, longest, -, blank, single⟩ := assigns
  intro compares
  obtain ⟨member', gap', other, longest', -, blank'⟩ := compares
  obtain ⟨-, rest⟩ := longest.unique longest'
  -- Both rests begin with blanks and one equals sign, and differ only behind that.
  have left := Text.longestRun_blanks blank '=' (by decide) value
  have right := Text.longestRun_blanks blank' '=' (by decide) ('=' :: other)
  rw [← rest] at right
  obtain ⟨-, same⟩ := left.unique right
  obtain rfl : value = '=' :: other := (List.cons.inj same).2
  exact single rfl

/-! ### The pattern of the scan -/

theorem spans_memberAssignment {left piece right : List Char} :
    (memberAssignment name).Spans left piece right ↔ ∃ member gap,
      piece = name.toList ++ '.' :: (member ++ gap ++ ['=']) ∧ IsBorder left (piece ++ right) ∧
        (member ≠ [] ∧ ∀ c ∈ member, Text.isWord c = true) ∧
        (∀ c ∈ gap, Text.isBlank c = true) ∧ right.head? ≠ some '=' := by
  have sign : "=".toList = ['='] := rfl
  simp only [memberAssignment, spans_append_notAhead_sign sign, spans_append_lit,
    spans_append_blanks, spans_append (q := word), spans_word, spans_edge]
  constructor
  · intro spans
    obtain ⟨⟨_, rfl, _, gap, rfl, ⟨_, member, rfl, ⟨_, rfl, _, rfl, rfl, border⟩, word⟩, blank⟩,
      stops⟩ := spans
    exact ⟨member, gap, by simp, by simpa using border, word, blank, stops⟩
  · intro shape
    obtain ⟨member, gap, rfl, border, word, blank, stops⟩ := shape
    refine ⟨⟨_, ?_, _, gap, rfl, ⟨_, member, rfl, ⟨_, rfl, [], rfl, rfl, ?_⟩, word⟩, blank⟩, stops⟩
    · simp
    · simpa using border

theorem writesStore_iff : writesStore name line = true ↔
    ∃ text, Accesses name line text ∧ AssignsMember text := by
  rw [writesStore, occursIn_iff]
  simp only [spans_memberAssignment]
  constructor
  · intro occurs
    obtain ⟨before, _, value, rfl, member, gap, rfl, border, ⟨nonempty, word⟩, blank, stops⟩ := occurs
    have ends := Text.ends_of_blanks blank '=' (by decide) value
    refine ⟨member ++ (gap ++ '=' :: value), ⟨before, by simp, by simpa using border⟩, ?_⟩
    exact ⟨member, gap, value, ⟨rfl, word, ends⟩, nonempty, blank, stops⟩
  · intro written
    obtain ⟨_, ⟨before, rfl, border⟩, member, gap, value, ⟨rfl, word, _⟩, nonempty, blank, stops⟩ :=
      written
    exact ⟨before, _, value, by simp, member, gap, rfl, by simpa using border, ⟨nonempty, word⟩,
      blank, stops⟩

/-! ### The scan -/

/-- The scan lists the lines and names of writes to a store, each once and in their order. It leaves
out a name behind which the line has only the store's own members and comparisons. -/
theorem storeWrites_listing (names : List String) (lines : List (List Char)) :
    (∀ found, found = storeWrites names lines ↔ found.Pairwise Precedes ∧
      ∀ number name, (number, name) ∈ found ↔ ∃ index line, lines[index]? = some line ∧
        number = index + 1 ∧ name ∈ names ∧ ∃ text, Accesses name line text ∧ AssignsMember text) ∧
    ∀ index line name, lines[index]? = some line →
      (∀ text, Accesses name line text → text.head? = some '$' ∨ ComparesMember text) →
        (index + 1, name) ∉ storeWrites names lines := by
  constructor
  · intro found
    rw [storeWrites, eq_usages_iff]
    simp only [writesStore_iff]
  · intro index line name read harmless written
    obtain ⟨-, flagged⟩ := (mem_usages_of_read read).mp written
    obtain ⟨text, accesses, assigns⟩ := writesStore_iff.mp flagged
    rcases harmless text accesses with dollar | compares
    · exact assigns.head?_ne_dollar dollar
    · exact assigns.not_compares compares

/-- A line that patches the store `s` and compares a member of it. -/
def harmlessLine : List Char := "s.$patch(a); if (s.n === 1)".toList

theorem storeWrites_of_harmless_line :
    (∀ text, Accesses "s" harmlessLine text → text.head? = some '$' ∨ ComparesMember text) ∧
      (1, "s") ∉ storeWrites ["s"] [harmlessLine] := by
  have members : ∀ text ∈ harmlessLine.tails, 's' :: '.' :: text <:+ harmlessLine →
      text = "$patch(a); if (s.n === 1)".toList ∨ text = "n === 1)".toList := by
    decide +kernel
  have harmless : ∀ text, Accesses "s" harmlessLine text →
      text.head? = some '$' ∨ ComparesMember text := by
    intro text accesses
    obtain ⟨before, whole, -⟩ := accesses
    have behind : 's' :: '.' :: text <:+ harmlessLine := ⟨before, by simp [whole]⟩
    have tail : text <:+ harmlessLine := (List.suffix_append ['s', '.'] text).trans behind
    rcases members text ((List.mem_tails _ _).mpr tail) behind with rfl | rfl
    · exact Or.inl rfl
    · have member : Text.LongestRun Text.isWord "n === 1)".toList ['n'] " === 1)".toList :=
        ⟨rfl, List.all_eq_true.mp rfl, rfl⟩
      exact Or.inr ⟨['n'], [' '], "= 1)".toList, member, by decide, by simp [Text.isBlank]⟩
  exact ⟨harmless, (storeWrites_listing ["s"] [harmlessLine]).2 0 _ _ rfl harmless⟩

end Checkup.Script
