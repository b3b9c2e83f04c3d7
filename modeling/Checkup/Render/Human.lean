import Checkup.Decimal.Fixed
import Checkup.Examination
import Checkup.Render.Ansi

/-!
# Diagnoses for people

The parts of a report on the terminal: a header on the project, the findings in short, in full or
as a list to work through, and the score.
-/

namespace Checkup.Render

open Ansi

def rule : String := "  " ++ String.ofList (List.replicate 40 '─')

def unlines (lines : List CodeText) : CodeText := .intercalate "\n" lines

def gap : CodeText := ""

def plural (count : Int) (noun : String) : String :=
  if count = 1 then toString count ++ " " ++ noun else toString count ++ " " ++ noun ++ "s"

def severityColor (severity : Severity) : Color := if severity.isError then .red else .yellow

def gradeColor : Grade → Color
  | .great => .green
  | .needsWork => .yellow
  | .critical => .red

def project (project : Project) : CodeText :=
  let version := match project.vueVersion with
    | some version => if version.isEmpty then [] else [CodeText.ofString "Vue " ++ version]
    | none => []
  let parts := [project.frameworkName] ++
    (if project.hasTypeScript then ["TypeScript"] else []) ++
    (if project.hasPinia then ["Pinia"] else []) ++ (if project.hasVuex then ["Vuex"] else []) ++
    (if project.hasRouter then ["Vue Router"] else [])
  let details := version ++ parts.map CodeText.ofString
  unlines
    [bold "  Vue Doctor", "",
      "  " ++ dim "Project:" ++ " " ++ .intercalate " · " details,
      "  " ++ dim "Files:" ++ "   " ++ toString project.sourceFiles ++ " source files", ""]

/-- The groups with one more finding, which comes last in the group of its category. A category
without a group gets one after all the others. -/
def filed : List (String × List Finding) → Finding → List (String × List Finding)
  | [], finding => [(finding.category, [finding])]
  | (category, items) :: rest, finding =>
    if category = finding.category then (category, items ++ [finding]) :: rest
    else (category, items) :: filed rest finding

/-- The findings by category, the categories in the order in which they first appear. -/
def groups (findings : List Finding) : List (String × List Finding) := findings.foldl filed []

def noFindings : CodeText := "  " ++ colored .green "✓" ++ " No issues found!\n"

/-- The line on a category with some numbers of errors and of other findings. A number that is
zero is left out. -/
def countsLine (category : String) (errors others : Nat) : CodeText :=
  let counts := (if errors = 0 then [] else [colored .red (plural errors "error")]) ++
    (if others = 0 then [] else [colored .yellow (plural others "warning")])
  "  " ++ bold category ++ " — " ++ .intercalate ", " counts

def categoryLine (category : String) (findings : List Finding) : CodeText :=
  countsLine category (Health.errors findings) (findings.length - Health.errors findings)

def summary (findings : List Finding) : CodeText :=
  if findings.isEmpty then noFindings
  else
    let lines := (groups findings).map fun (category, items) => categoryLine category items
    unlines (lines ++ [gap])

def location (finding : Finding) : String :=
  finding.file ++ ":" ++ toString finding.line ++ ":" ++ toString finding.column

def findingLines (finding : Finding) : List CodeText :=
  let color := severityColor finding.severity
  let icon := if finding.severity.isError then "✖" else "⚠"
  let help := if finding.help.isEmpty then [] else ["    " ++ dim ("→ " ++ finding.help)]
  ["  " ++ colored color icon ++ " " ++ colored color finding.rule ++ " " ++ dim (location finding),
    CodeText.ofString ("    " ++ finding.message)] ++ help ++ [gap]

def heading (category : String) : List CodeText :=
  ["  " ++ Style.paint { bold := true, underline := true } category, gap]

def details (findings : List Finding) : CodeText :=
  if findings.isEmpty then noFindings
  else unlines ((groups findings).flatMap fun (category, items) =>
    heading category ++ items.flatMap findingLines)

def fixLines (finding : Finding) : List CodeText :=
  let help := if finding.help.isEmpty then [] else ["  Fix:      " ++ finding.help]
  let severity := colored (severityColor finding.severity) finding.severity.text
  [dim rule, CodeText.ofString ("  File:     " ++ location finding),
    CodeText.ofString ("  Rule:     " ++ finding.rule), "  Severity: " ++ severity,
    CodeText.ofString ("  Issue:    " ++ finding.message)] ++ help.map CodeText.ofString ++ [gap]

def fixHeading : List CodeText := [bold "  Diagnostics for auto-fix:", gap]

def fixes (findings : List Finding) : CodeText :=
  if findings.isEmpty then "  No issues found — nothing to fix.\n"
  else unlines (fixHeading ++ findings.flatMap fixLines)

def seconds (milliseconds : Float) : String := Decimal.oneDecimal (milliseconds / 1000) ++ "s"

def healthLine (health : Health) : CodeText :=
  let color := gradeColor (.ofScore health.score)
  "  " ++ bold "Health Score:" ++ " " ++
    Style.paint { color := some color, bold := true } (toString health.score) ++ " " ++
    colored color ("(" ++ health.grade.text ++ ")")

def totalsLine (errors warnings : Nat) (elapsed : Float) : CodeText :=
  "  " ++ colored .red (plural errors "error") ++ "  " ++
    colored .yellow (plural warnings "warning") ++ "  " ++ dim (seconds elapsed)

def score (diagnosis : Diagnosis) : CodeText :=
  unlines
    [dim rule, gap, healthLine diagnosis.health, gap,
      totalsLine (Health.errors diagnosis.findings) (Health.warnings diagnosis.findings)
        diagnosis.elapsed,
      gap]

def scoreOnly (health : Health) : String := toString health.score

end Checkup.Render
