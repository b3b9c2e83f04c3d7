import Checkup.Proofs.Pattern.Spans
import Checkup.Proofs.Script.Scans
import Checkup.Proofs.Text.Blanks
import Checkup.Proofs.Text.Cutting

/-!
# Operators on a ref

A line misuses a ref if it applies an operator to the name itself, and nowhere takes the value, and
is neither a declaration nor a comment nor evaluated later. `refMisuses_listing` shows that the scan
lists exactly these lines and names, for names of any characters. A name before an operator is never
before its value or within a longer word, so the look at what follows the name decides nothing
(`occursIn_bare`).
-/

namespace Checkup.Script

open Pattern

/-- The operators that a ref's value may be meant for. -/
def operators : List String := ["==", "!=", "<=", ">=", "+=", "-=", "*=", "/=", "++", "--"]

/-- The line takes the value of `name` somewhere. -/
def TakesValue (name : String) (line : List Char) : Prop :=
  ∃ before after, line = before ++ name.toList ++ ".value".toList ++ after ∧
    IsBorder before (name.toList ++ ".value".toList ++ after) ∧
    IsBorder (before ++ name.toList ++ ".value".toList) after

/-- The line applies an operator to `name` somewhere, with blanks or without. -/
def AppliesOperator (name : String) (line : List Char) : Prop :=
  ∃ before gap after, ∃ sign ∈ operators,
    line = before ++ name.toList ++ gap ++ sign.toList ++ after ∧
    (∀ c ∈ gap, Text.isBlank c = true) ∧
    IsBorder before (name.toList ++ gap ++ sign.toList ++ after) ∧
    IsBorder (before ++ name.toList) (gap ++ sign.toList ++ after)

/-- The line misuses the ref `name`. -/
structure MisusesRef (name : String) (line : List Char) : Prop where
  unmarked : ∀ mark ∈ ["= ref", "watch(", "computed(", "return"], ¬ mark.toList <:+: line
  uncommented : ∀ sign ∈ ["//", "*"], ¬ Text.Leads sign.toList line
  valueless : ¬ TakesValue name line
  operated : AppliesOperator name line

/-! ### The patterns of the scan -/

theorem spans_operator {left piece right : List Char} :
    operator.Spans left piece right ↔ ∃ sign ∈ operators, piece = sign.toList := by
  have compared : ∀ c, c ∈ "=!<>".toList ↔ c = '=' ∨ c = '!' ∨ c = '<' ∨ c = '>' := by simp
  have compound : ∀ c, c ∈ "+-*/".toList ↔ c = '+' ∨ c = '-' ∨ c = '*' ∨ c = '/' := by simp
  simp only [operator, spans_or, spans_append_lit, oneOf, spans_one, List.contains_iff_mem,
    spans_lit, compared, compound]
  constructor
  · rintro (((⟨_, rfl, c, rfl, hc⟩ | ⟨_, rfl, c, rfl, hc⟩) | rfl) | rfl)
    · rcases hc with rfl | rfl | rfl | rfl <;> simp [operators]
    · rcases hc with rfl | rfl | rfl | rfl <;> simp [operators]
    · exact ⟨"++", by decide, rfl⟩
    · exact ⟨"--", by decide, rfl⟩
  · rintro ⟨sign, listed, rfl⟩
    simp only [operators, List.mem_cons, List.not_mem_nil, or_false] at listed
    rcases listed with rfl | rfl | rfl | rfl | rfl | rfl | rfl | rfl | rfl | rfl <;> simp

theorem occursIn_unwrapped_iff {name : String} {line : List Char} :
    (unwrapped name).occursIn line = true ↔ TakesValue name line := by
  simp only [occursIn_iff, unwrapped, spans_append_edge, spans_append_lit, spans_edge]
  constructor
  · rintro ⟨before, _, after, rfl, ⟨_, rfl, _, rfl, rfl, opens⟩, closes⟩
    exact ⟨before, after, by simp, by simpa using opens, by simpa using closes⟩
  · rintro ⟨before, after, rfl, opens, closes⟩
    exact ⟨before, _, after, by simp, ⟨_, rfl, _, rfl, rfl, by simpa using opens⟩,
      by simpa using closes⟩

theorem spans_operated {name : String} {left piece right : List Char} :
    (operated name).Spans left piece right ↔ ∃ gap, ∃ sign ∈ operators,
      piece = name.toList ++ gap ++ sign.toList ∧ (∀ c ∈ gap, Text.isBlank c = true) ∧
        IsBorder left (name.toList ++ gap ++ sign.toList ++ right) ∧
        IsBorder (left ++ name.toList) (gap ++ sign.toList ++ right) := by
  rw [operated, spans_append]
  simp only [spans_operator, blanks, spans_append_many, spans_append_edge, spans_append_lit,
    spans_edge]
  constructor
  · rintro ⟨_, _, rfl, ⟨_, gap, rfl, ⟨⟨_, rfl, rfl, opens⟩, closes⟩, blank⟩, sign, listed, rfl⟩
    exact ⟨gap, sign, listed, by simp, blank, by simpa using opens, by simpa using closes⟩
  · rintro ⟨gap, sign, listed, rfl, blank, opens, closes⟩
    exact ⟨_, _, rfl, ⟨_, gap, rfl, ⟨⟨[], rfl, rfl, by simpa using opens⟩, by simpa using closes⟩,
      blank⟩, sign, listed, rfl⟩

theorem occursIn_operated_iff {name : String} {line : List Char} :
    (operated name).occursIn line = true ↔ AppliesOperator name line := by
  simp only [occursIn_iff, spans_operated]
  constructor
  · rintro ⟨before, _, after, rfl, gap, sign, listed, rfl, blank, opens, closes⟩
    exact ⟨before, gap, after, sign, listed, by simp, blank, opens, closes⟩
  · rintro ⟨before, gap, after, sign, listed, rfl, blank, opens, closes⟩
    exact ⟨before, _, after, by simp, gap, sign, listed, rfl, blank, opens, closes⟩

/-- What follows the name before an operator is no word character and no dot. -/
theorem head_of_operated {gap : List Char} {sign : String} (blank : ∀ c ∈ gap, Text.isBlank c = true)
    (listed : sign ∈ operators) (after : List Char) :
    ∃ c rest, gap ++ sign.toList ++ after = c :: rest ∧ Text.isWord c = false ∧ c ≠ '.' := by
  cases gap with
  | nil =>
    simp only [operators, List.mem_cons, List.not_mem_nil, or_false] at listed
    rcases listed with rfl | rfl | rfl | rfl | rfl | rfl | rfl | rfl | rfl | rfl
    all_goals exact ⟨_, _, rfl, by decide, by decide⟩
  | cons c gap =>
    have hc := blank c List.mem_cons_self
    refine ⟨c, _, rfl, Text.isWord_of_isBlank hc, ?_⟩
    rintro rfl
    cases hc

theorem occursIn_bare {name : String} {line : List Char}
    (h : (operated name).occursIn line = true) : (bare name).occursIn line = true := by
  obtain ⟨before, gap, after, sign, listed, rfl, blank, opens, closes⟩ := occursIn_operated_iff.mp h
  obtain ⟨c, rest, follows, noWord, noDot⟩ := head_of_operated blank listed after
  rw [occursIn_iff]
  refine ⟨before, name.toList, c :: rest, by simp [← follows], ?_⟩
  simp only [bare, spans_append_notAhead, spans_append_edge, spans_append_lit, spans_edge, spans_lit,
    spans_one]
  refine ⟨⟨⟨⟨[], rfl, rfl, ?_⟩, ?_⟩, ?_⟩, ?_⟩
  · simpa [← follows] using opens
  · simpa [← follows] using closes
  · rintro _ rest' value rfl
    exact noDot (List.cons.inj value).1
  · rintro _ rest' value ⟨d, rfl, word⟩
    rw [← (List.cons.inj value).1, noWord] at word
    cases word

/-! ### The scan -/

theorem deferred_iff {line : List Char} : deferred line = true ↔
    (∃ mark ∈ ["= ref", "watch(", "computed(", "return"], mark.toList <:+: line) ∨
      ∃ sign ∈ ["//", "*"], Text.Leads sign.toList line := by
  have slashes := @Text.opens_trim_iff "//" line (by decide) (by decide)
  have star := @Text.opens_trim_iff "*" line (by decide) (by decide)
  simp only [deferred, Bool.or_eq_true, slashes, star, deferralMarks, List.any_eq_true,
    Text.occursIn_iff_infix, List.exists_mem_cons_iff, List.not_mem_nil, false_and, exists_false,
    or_false, or_assoc]

theorem misusesRef_iff {name : String} {line : List Char} :
    misusesRef name line = true ↔ MisusesRef name line := by
  simp only [misusesRef, Bool.and_eq_true, Bool.not_eq_true', ← Bool.not_eq_true, deferred_iff,
    occursIn_unwrapped_iff, occursIn_operated_iff]
  constructor
  · rintro ⟨⟨⟨active, valueless⟩, -⟩, operated⟩
    rw [not_or] at active
    exact ⟨fun mark listed occurs => active.1 ⟨mark, listed, occurs⟩,
      fun sign listed leads => active.2 ⟨sign, listed, leads⟩, valueless, operated⟩
  · intro misused
    refine ⟨⟨⟨?_, misused.valueless⟩, ?_⟩, misused.operated⟩
    · rintro (⟨mark, listed, occurs⟩ | ⟨sign, listed, leads⟩)
      · exact misused.unmarked mark listed occurs
      · exact misused.uncommented sign listed leads
    · exact occursIn_bare (occursIn_operated_iff.mpr misused.operated)

/-- The scan lists the lines and names of misused refs, each once and in their order, and it lists
the same without the look at what follows a name. -/
theorem refMisuses_listing (names : List String) (lines : List (List Char)) :
    (∀ found, found = refMisuses names lines ↔ found.Pairwise Precedes ∧
      ∀ number name, (number, name) ∈ found ↔ ∃ index line, lines[index]? = some line ∧
        number = index + 1 ∧ name ∈ names ∧ MisusesRef name line) ∧
    usages (fun name line => !deferred line && !(unwrapped name).occursIn line &&
      (operated name).occursIn line) names lines = refMisuses names lines := by
  constructor
  · intro found
    rw [refMisuses, eq_usages_iff]
    simp only [misusesRef_iff]
  · refine congrArg (fun flags => usages flags names lines) (funext fun name => funext fun line => ?_)
    rw [misusesRef]
    cases operates : (operated name).occursIn line with
    | false => simp
    | true => simp [occursIn_bare operates]

end Checkup.Script
