import Checkup.Proofs.Pattern.Spans
import Checkup.Proofs.Script.Scans
import Checkup.Proofs.Text.Cutting
import Checkup.Proofs.Text.Runs

/-!
# Replacing a reactive object

A line replaces a reactive object if it assigns to the name, and nothing with a dot. The scan for
such lines passes over those that wrap a new object and those with a declaration.
`exists_replacement_iff` shows that it reports no other lines, and all of these in which no longer
word ends in the spelling of a declarator. On one line at most one name is replaced
(`Reassigns.unique`).
-/

namespace Checkup.Script

open Pattern

/-- The line begins with the name, but for blanks, and assigns something without a dot to it. -/
def Reassigns (name : String) (line : List Char) : Prop :=
  ∃ indent gap value, line = indent ++ name.toList ++ gap ++ '=' :: value ∧
    (∀ c ∈ indent, Text.isBlank c = true) ∧ (∀ c ∈ gap, Text.isBlank c = true) ∧
    value.head? ≠ some '=' ∧ '.' ∉ value

/-- Some word of the line is a declarator before a space. -/
def Declares (line : List Char) : Prop :=
  ∃ keyword ∈ ["const", "let", "var"], ∃ before after,
    line = before ++ keyword.toList ++ ' ' :: after ∧ before.getLast?.any Text.isWord = false

/-- Some longer word of the line ends in a declarator before a space. -/
def EndsInDeclarator (line : List Char) : Prop :=
  ∃ keyword ∈ ["const", "let", "var"], ∃ before after,
    line = before ++ keyword.toList ++ ' ' :: after ∧ before.getLast?.any Text.isWord = true

variable {name : String} {line : List Char}

theorem Reassigns.toList_eq (reassigns : Reassigns name line) (identifier : Text.IsIdentifier name) :
    name.toList = (line.dropWhile Text.isBlank).takeWhile Text.isWord := by
  obtain ⟨indent, gap, value, rfl, before, between, -, -⟩ := reassigns
  have outer := identifier.longestRun_before before (gap ++ '=' :: value)
  have inner := identifier.longestRun between '=' (by decide) value
  rw [List.append_assoc, List.append_assoc, outer.dropWhile_eq, inner.takeWhile_eq]

theorem Reassigns.unique {other : String} (reassigns : Reassigns name line)
    (identifier : Text.IsIdentifier name) (reassigns' : Reassigns other line)
    (identifier' : Text.IsIdentifier other) : name = other := by
  apply String.toList_inj.mp
  rw [reassigns.toList_eq identifier, reassigns'.toList_eq identifier']

/-! ### The pattern of the scan -/

theorem spans_append_dotAhead {p : Pattern} {left piece right : List Char} :
    (p ++ notAhead (onLine ++ lit ".")).Spans left piece right ↔ p.Spans left piece right ∧
      ∀ before rest, right = before ++ '.' :: rest → '\n' ∈ before := by
  have dot : ".".toList = ['.'] := rfl
  rw [spans_append_notAhead]
  simp only [spans_append_lit, onLine, spans_upTo, dot]
  apply and_congr_right
  intro _
  constructor
  · intro none before rest whole
    by_contra oneLine
    exact none (before ++ ['.']) rest (by simp [whole]) ⟨before, rfl, oneLine⟩
  · intro broken ahead rest whole spans
    obtain ⟨before, rfl, oneLine⟩ := spans
    exact oneLine (broken before rest (by simp [whole]))

theorem spans_assignmentSign {left piece right : List Char} :
    (blanks ++ lit name ++ blanks ++ lit "=" ++ notAhead (lit "=")).Spans left piece right ↔
      ∃ indent gap, piece = indent ++ name.toList ++ gap ++ ['='] ∧
        (∀ c ∈ indent, Text.isBlank c = true) ∧ (∀ c ∈ gap, Text.isBlank c = true) ∧
        right.head? ≠ some '=' := by
  have sign : "=".toList = ['='] := rfl
  simp only [spans_append_notAhead_sign sign, spans_append_lit, spans_append_blanks, spans_blanks,
    sign]
  constructor
  · intro spans
    obtain ⟨⟨_, rfl, _, gap, rfl, ⟨indent, rfl, before⟩, between⟩, single⟩ := spans
    exact ⟨indent, gap, rfl, before, between, single⟩
  · intro shape
    obtain ⟨indent, gap, rfl, before, between, single⟩ := shape
    exact ⟨⟨_, rfl, _, gap, rfl, ⟨indent, rfl, before⟩, between⟩, single⟩

theorem opens_assignment_iff (oneLine : '\n' ∉ line) :
    (assignment name).opens line = true ↔ Reassigns name line := by
  rw [opens_iff, assignment]
  simp only [spans_append_dotAhead, spans_append_blanks, spans_assignmentSign]
  constructor
  · intro opened
    obtain ⟨_, right, rfl, ⟨_, run, rfl, ⟨indent, gap, rfl, before, between, single⟩, blank⟩,
      undotted⟩ := opened
    refine ⟨indent, gap, run ++ right, by simp, before, between, single, ?_⟩
    intro dotted
    rcases List.mem_append.mp dotted with inRun | inRight
    · exact absurd (blank _ inRun) (by decide)
    · obtain ⟨front, rest, rfl⟩ := List.append_of_mem inRight
      have broken := undotted front rest rfl
      exact oneLine (by simp [broken])
  · intro reassigns
    obtain ⟨indent, gap, value, rfl, before, between, single, noDot⟩ := reassigns
    refine ⟨indent ++ name.toList ++ gap ++ ['='], value, by simp,
      ⟨_, [], (List.append_nil _).symm, ?_, by simp⟩, ?_⟩
    · exact ⟨indent, gap, rfl, before, between, single⟩
    · intro front rest whole
      exact absurd (by simp [whole]) noDot

/-! ### The lines that are passed over -/

theorem declares_or_endsInDeclarator_iff : Declares line ∨ EndsInDeclarator line ↔
    ∃ mark ∈ ["const ", "let ", "var "], mark.toList <:+: line := by
  have marks : (∃ mark ∈ ["const ", "let ", "var "], mark.toList <:+: line) ↔
      ∃ keyword ∈ ["const", "let", "var"], ∃ before after,
        before ++ (keyword.toList ++ [' ']) ++ after = line := by
    simp [List.IsInfix]
  rw [marks]
  constructor
  · intro spelled
    rcases spelled with ⟨keyword, listed, before, after, rfl, -⟩ |
      ⟨keyword, listed, before, after, rfl, -⟩
    all_goals exact ⟨keyword, listed, before, after, by simp⟩
  · intro occurs
    obtain ⟨keyword, listed, before, after, rfl⟩ := occurs
    cases longer : before.getLast?.any Text.isWord with
    | false => exact Or.inl ⟨keyword, listed, before, after, by simp, longer⟩
    | true => exact Or.inr ⟨keyword, listed, before, after, by simp, longer⟩

theorem replaces_iff (oneLine : '\n' ∉ line) : replaces name line = true ↔
    Reassigns name line ∧ ¬ "reactive(".toList <:+: line ∧ ¬ Declares line ∧
      ¬ EndsInDeclarator line := by
  have passed : declarationMarks.any (Text.occursIn · line) = true ↔
      "reactive(".toList <:+: line ∨ Declares line ∨ EndsInDeclarator line := by
    rw [declares_or_endsInDeclarator_iff, declarationMarks]
    simp only [List.any_cons, List.any_nil, Bool.or_false, Bool.or_eq_true, Text.occursIn_iff_infix,
      List.exists_mem_cons_iff, List.not_mem_nil, false_and, exists_false, or_false]
  rw [replaces, Bool.and_eq_true, Bool.not_eq_true', ← Bool.not_eq_true, passed,
    opens_assignment_iff oneLine, not_or, not_or, and_comm]

/-! ### The scan -/

/-- The scan reports a line only if it assigns to one of the names, and neither wraps a new object
nor declares anything; and it reports each such line in which no longer word ends in a declarator. -/
theorem exists_replacement_iff (names : List String) (lines : List (List Char))
    (oneLine : ∀ line ∈ lines, '\n' ∉ line) (index : Nat) (line : List Char)
    (read : lines[index]? = some line) :
    ((∃ name, (index + 1, name) ∈ replacements names lines) →
      (∃ name ∈ names, Reassigns name line) ∧ ¬ "reactive(".toList <:+: line ∧ ¬ Declares line) ∧
    (¬ EndsInDeclarator line →
      (∃ name ∈ names, Reassigns name line) ∧ ¬ "reactive(".toList <:+: line ∧ ¬ Declares line →
        ∃ name, (index + 1, name) ∈ replacements names lines) := by
  have inLine := oneLine line (List.mem_of_getElem? read)
  simp only [replacements, mem_usages_of_read read, replaces_iff inLine]
  constructor
  · intro used
    obtain ⟨name, known, reassigns, unwrapped, undeclared, -⟩ := used
    exact ⟨⟨name, known, reassigns⟩, unwrapped, undeclared⟩
  · intro apart replaced
    obtain ⟨⟨name, known, reassigns⟩, unwrapped, undeclared⟩ := replaced
    exact ⟨name, known, reassigns, unwrapped, undeclared, apart⟩

theorem exists_replacement_on_second_line :
    let line := "  state = other".toList
    let lines := ["const state = reactive(first)".toList, line]
    (∀ line ∈ lines, '\n' ∉ line) ∧ lines[1]? = some line ∧
      ∃ name, (2, name) ∈ replacements ["state"] lines := by
  intro line lines
  have oneLine : ∀ line ∈ lines, '\n' ∉ line := by decide
  have unmarked : ¬ ∃ mark ∈ ["const ", "let ", "var "], mark.toList <:+: line := by
    decide +kernel
  rw [← declares_or_endsInDeclarator_iff, not_or] at unmarked
  have reassigns : Reassigns "state" line := by
    refine ⟨[' ', ' '], [' '], " other".toList, rfl, ?_, ?_, by decide, by decide⟩
    all_goals simp [Text.isBlank]
  have replaced := (exists_replacement_iff ["state"] lines oneLine 1 line rfl).2 unmarked.2
  refine ⟨oneLine, rfl, replaced ⟨⟨"state", by decide, reassigns⟩, ?_, unmarked.1⟩⟩
  decide +kernel

/-- A line that replaces an object and then declares something is passed over. -/
theorem not_replacement_before_declaration :
    let line := "state = 1; let x = 2".toList
    '\n' ∉ line ∧ Reassigns "state" line ∧ ¬ "reactive(".toList <:+: line ∧
      ∀ name, (1, name) ∉ replacements ["state"] [line] := by
  intro line
  refine ⟨by decide, ?_, by decide +kernel, ?_⟩
  · refine ⟨[], [' '], " 1; let x = 2".toList, rfl, ?_, ?_, by decide, by decide⟩
    all_goals simp [Text.isBlank]
  · intro name used
    have read : [line][0]? = some line := rfl
    obtain ⟨known, flagged⟩ := (mem_usages_of_read read).mp used
    obtain rfl : name = "state" := List.mem_singleton.mp known
    have passed : replaces "state" line = false := by decide +kernel
    rw [passed] at flagged
    cases flagged

end Checkup.Script
