import Checkup.Proofs.Health.Score
import Checkup.Render.Human

/-!
# What the lines of a view say

A line shows a text if it consists of the text and of codes for its style (`Shows`). The lines on a
finding say where it is, which rule it breaks and what is wrong (`IsDetail`, `IsMending`), and the
line on a category gives its numbers of errors and warnings (`IsRow`).
-/

namespace Checkup.Render

open Ansi

/-! ### Styled lines -/

/-- The line is the text with codes for its style in between. -/
inductive Shows : CodeText → CodeText → Prop
  | text (text : CodeText) : Shows text text
  | code {code : String} : code ∈ ["0", "1", "2", "4", "31", "32", "33"] →
      Shows (CodeText.ofString ("\x1b[" ++ code ++ "m")) ⟨[]⟩
  | append {a b s t : CodeText} : Shows a s → Shows b t → Shows (a ++ b) (s ++ t)

theorem Shows.before {codes line text : CodeText} (nothing : Shows codes ⟨[]⟩)
    (shown : Shows line text) : Shows (codes ++ line) text :=
  nothing.append shown

theorem Shows.after {codes line text : CodeText} (shown : Shows line text)
    (nothing : Shows codes ⟨[]⟩) : Shows (line ++ codes) text := by
  have both := shown.append nothing
  rwa [show text ++ ⟨[]⟩ = text from congrArg CodeText.mk (List.append_nil _)] at both

theorem shows_sequences {codes : List String}
    (known : ∀ code ∈ codes, code ∈ ["0", "1", "2", "4", "31", "32", "33"]) :
    Shows (CodeText.ofString (String.join (codes.map sequence))) ⟨[]⟩ := by
  induction codes with
  | nil => exact .text _
  | cons code rest ih =>
    rw [List.map_cons, String.join_cons, CodeText.ofString_append]
    obtain ⟨first, others⟩ := List.forall_mem_cons.mp known
    exact (Shows.code first).before (ih others)

theorem mem_codes (style : Style) :
    ∀ code ∈ style.codes, code ∈ ["0", "1", "2", "4", "31", "32", "33"] := by
  obtain ⟨color, bold, dim, underline⟩ := style
  unfold Style.codes
  intro code listed
  simp only [List.mem_append] at listed
  rcases listed with ((colored | weight) | weight) | drawn
  · cases color with
    | none => cases colored
    | some color =>
      obtain rfl := List.mem_singleton.mp colored
      cases color <;> decide
  · cases bold <;> simp_all
  · cases dim <;> simp_all
  · cases underline <;> simp_all

theorem shows_paint (style : Style) (text : CodeText) : Shows (style.paint text) text :=
  ((shows_sequences (mem_codes style)).before (.text text)).after (.code List.mem_cons_self)

theorem shows_dim (text : CodeText) : Shows (dim text) text := shows_paint _ _

theorem shows_bold (text : CodeText) : Shows (bold text) text := shows_paint _ _

theorem shows_colored (color : Color) (text : CodeText) : Shows (colored color text) text :=
  shows_paint _ _

/-! ### Lines of a text -/

/-- The text has these lines. -/
def HasLines (text : CodeText) (lines : List CodeText) : Prop :=
  text.points = [CodePoint.char '\n'].intercalate (lines.map CodeText.points)

theorem hasLines_unlines (lines : List CodeText) : HasLines (unlines lines) lines := by
  show (lines.intersperse (CodeText.ofString "\n")).flatMap CodeText.points = _
  induction lines with
  | nil => rfl
  | cons line rest ih =>
    cases rest with
    | nil => simp [List.intercalate]
    | cons next rest =>
      rw [List.intersperse_cons_cons, List.flatMap_cons, List.flatMap_cons, ih]
      rfl

/-! ### Numbers -/

/-- A number of things in words. -/
def worded (count : Nat) (noun : String) : String :=
  toString count ++ " " ++ noun ++ (if count = 1 then "" else "s")

theorem plural_natCast (count : Nat) (noun : String) : plural count noun = worded count noun := by
  have number : toString (count : Int) = toString count := rfl
  unfold plural worded
  rw [number]
  by_cases one : count = 1
  · simp [one]
  · simp [one]

/-- A category with its numbers of errors and warnings. -/
structure Row where
  category : String
  errors : Nat
  warnings : Nat
deriving DecidableEq

/-- The numbers of errors and warnings, where they are not zero. -/
def tally : Nat → Nat → String
  | 0, 0 => ""
  | errors, 0 => worded errors "error"
  | 0, warnings => worded warnings "warning"
  | errors, warnings => worded errors "error" ++ ", " ++ worded warnings "warning"

/-- The line on a category. -/
def IsRow (row : Row) (line : CodeText) : Prop :=
  Shows line ("  " ++ row.category ++ " — " ++ tally row.errors row.warnings)

theorem intercalate_singleton (between : String) (text : CodeText) :
    CodeText.intercalate between [text] = text :=
  congrArg CodeText.mk (List.append_nil _)

theorem intercalate_pair (between : String) (a b : CodeText) :
    CodeText.intercalate between [a, b] = a ++ CodeText.ofString between ++ b := by
  show CodeText.mk (a.points ++ (_ ++ (b.points ++ []))) = CodeText.mk (a.points ++ _ ++ b.points)
  rw [List.append_nil, List.append_assoc]

theorem isRow_countsLine (row : Row) :
    IsRow row (countsLine row.category row.errors row.warnings) := by
  obtain ⟨category, errors, warnings⟩ := row
  refine (((Shows.text _).append (shows_bold _)).append (.text _)).append ?_
  rw [plural_natCast, plural_natCast]
  cases errors with
  | zero =>
    cases warnings with
    | zero => exact .text _
    | succ warnings =>
      show Shows (CodeText.intercalate ", " [_]) _
      rw [intercalate_singleton]
      exact shows_colored _ _
  | succ errors =>
    cases warnings with
    | zero =>
      show Shows (CodeText.intercalate ", " [_]) _
      rw [intercalate_singleton]
      exact shows_colored _ _
    | succ warnings =>
      show Shows (CodeText.intercalate ", " [_, _])
        (CodeText.ofString (worded _ "error" ++ ", " ++ worded _ "warning"))
      rw [intercalate_pair, CodeText.ofString_append, CodeText.ofString_append]
      exact ((shows_colored _ _).append (.text _)).append (shows_colored _ _)

/-! ### Scores -/

/-- What stands between two parts of a view. -/
def dashes : String := "  " ++ String.ofList (List.replicate 40 '─')

/-- The lines on the score, with the numbers of errors and warnings. -/
inductive IsScore (diagnosis : Diagnosis) (errors warnings : Nat) : List CodeText → Prop
  | lines {separator health totals : CodeText} :
      Shows separator dashes →
      Shows health ("  Health Score: " ++ toString diagnosis.health.score ++ " (" ++
        diagnosis.health.grade.text ++ ")") →
      Shows totals ("  " ++ worded errors "error" ++ "  " ++ worded warnings "warning" ++ "  " ++
        seconds diagnosis.elapsed) →
      IsScore diagnosis errors warnings [separator, "", health, "", totals, ""]

theorem append_assoc (a b c : CodeText) : a ++ b ++ c = a ++ (b ++ c) :=
  congrArg CodeText.mk (List.append_assoc _ _ _)

theorem shows_healthLine (health : Health) : Shows (healthLine health)
    ("  Health Score: " ++ toString health.score ++ " (" ++ health.grade.text ++ ")") := by
  have parts : CodeText.ofString "  Health Score: " ++ toString health.score ++ " (" ++
      health.grade.text ++ ")" = CodeText.ofString "  " ++ "Health Score:" ++ " " ++
        toString health.score ++ " " ++ ("(" ++ health.grade.text ++ ")") := by
    have label : CodeText.ofString "  Health Score: " =
        CodeText.ofString "  " ++ "Health Score:" ++ " " := by
      rw [← CodeText.ofString_append, ← CodeText.ofString_append]
      rfl
    have opening : CodeText.ofString " (" = CodeText.ofString " " ++ "(" := by
      rw [← CodeText.ofString_append]
      rfl
    rw [label, opening]
    simp only [append_assoc]
  rw [parts]
  exact (((((Shows.text _).append (shows_bold _)).append (.text _)).append
    (shows_paint _ _)).append (.text _)).append (shows_colored _ _)

theorem isScore_score (diagnosis : Diagnosis) : ∃ lines,
    IsScore diagnosis (Health.errors diagnosis.findings) (Health.warnings diagnosis.findings)
      lines ∧ HasLines (score diagnosis) lines := by
  refine ⟨_, .lines (shows_dim rule) (shows_healthLine diagnosis.health) ?_, hasLines_unlines _⟩
  rw [← plural_natCast, ← plural_natCast]
  exact (((((Shows.text _).append (shows_colored _ _)).append (.text _)).append
    (shows_colored _ _)).append (.text _)).append (shows_dim _)

/-! ### Findings -/

/-- The file of a finding with its line and column. -/
def placeOf (finding : Finding) : String :=
  finding.file ++ ":" ++ toString finding.line ++ ":" ++ toString finding.column

/-- A finding with a help has a line on it. -/
inductive IsAdvice (label help : String) : List CodeText → Prop
  | none : help = "" → IsAdvice label help []
  | some {line : CodeText} : help ≠ "" → Shows line (CodeText.ofString (label ++ help)) →
      IsAdvice label help [line]

/-- The lines on a finding in full. -/
inductive IsDetail (finding : Finding) : List CodeText → Prop
  | lines {head : CodeText} {advice : List CodeText} :
      Shows head ("  " ++ (if finding.severity = .error then "✖" else "⚠") ++ " " ++
        finding.rule ++ " " ++ placeOf finding) →
      IsAdvice "    → " finding.help advice →
      IsDetail finding ([head, CodeText.ofString ("    " ++ finding.message)] ++ advice ++
        [("" : CodeText)])

/-- The lines on a finding that is to be mended. -/
inductive IsMending (finding : Finding) : List CodeText → Prop
  | lines {separator severity : CodeText} {advice : List CodeText} :
      Shows separator dashes →
      Shows severity
        ("  Severity: " ++ (if finding.severity = .error then "error" else "warning")) →
      IsAdvice "  Fix:      " finding.help advice →
      IsMending finding ([separator, CodeText.ofString ("  File:     " ++ placeOf finding),
        CodeText.ofString ("  Rule:     " ++ finding.rule), severity,
        CodeText.ofString ("  Issue:    " ++ finding.message)] ++ advice ++
        [("" : CodeText)])

theorem isAdvice_ite {label help : String} {line : CodeText}
    (shown : Shows line (CodeText.ofString (label ++ help))) :
    IsAdvice label help (if help.isEmpty then [] else [line]) := by
  split
  · next empty => exact .none (String.isEmpty_iff.mp empty)
  · next some_ => exact .some (fun none => some_ (String.isEmpty_iff.mpr none)) shown

theorem isDetail_findingLines (finding : Finding) : IsDetail finding (findingLines finding) := by
  have icon : (if finding.severity.isError then "✖" else "⚠") =
      if finding.severity = .error then "✖" else "⚠" := by
    simp [Severity.isError_eq]
  refine .lines ?_ (isAdvice_ite ?_)
  · rw [← icon]
    exact (((((Shows.text _).append (shows_colored _ _)).append (.text _)).append
      (shows_colored _ _)).append (.text _)).append (shows_dim _)
  · have label : CodeText.ofString ("    → " ++ finding.help) =
        CodeText.ofString "    " ++ (CodeText.ofString "→ " ++ CodeText.ofString finding.help) := by
      rw [← CodeText.ofString_append, ← CodeText.ofString_append, ← String.append_assoc]
      rfl
    rw [label]
    exact (Shows.text _).append (shows_dim _)

theorem isMending_fixLines {finding : Finding}
    (settled : finding.severity = .error ∨ finding.severity = .warning) :
    IsMending finding (fixLines finding) := by
  have word : finding.severity.text =
      CodeText.ofString (if finding.severity = .error then "error" else "warning") := by
    rcases settled with error | warning
    · rw [error]
      rfl
    · rw [warning]
      rfl
  have help : (if finding.help.isEmpty then []
      else ["  Fix:      " ++ finding.help]).map CodeText.ofString =
        if finding.help.isEmpty then []
        else [CodeText.ofString ("  Fix:      " ++ finding.help)] := by
    split
    · rfl
    · rfl
  rw [fixLines, help]
  refine .lines (shows_dim rule) ?_ (isAdvice_ite (.text _))
  rw [← word]
  exact (Shows.text _).append (shows_colored _ _)

end Checkup.Render
