import Checkup.Finding
import Checkup.Glob
import Checkup.Path

/-!
# Reports

The findings of all analyzers in one list. Findings are first brought to a common form; then the
suppressed ones go, of several for the same issue the first stays, and what is left is ordered:
errors before warnings, and by file within each.
-/

namespace Checkup

structure Suppression where
  /-- Rules, by name or by analyzer and name. -/
  rules : List CodeText := []
  files : List CodeText := []

def Suppression.covers (suppression : Suppression) (finding : Finding) : Bool :=
  suppression.rules.contains finding.rule || suppression.rules.contains finding.qualifiedRule ||
    suppression.files.any (Glob.describes · finding.file)

namespace Finding

/-- A path as findings give it: an absolute one is written relative to the project. -/
def relativeFile (root : Path) (file : String) : String :=
  if Text.opens "/" file.toList then Path.relativeText root (.ofString file) else file

def settledCategory (category : String) : String :=
  if knownCategories.contains category then category else "Other"

def normalised (root : Path) (finding : Finding) : Finding :=
  { finding with
    file := relativeFile root finding.file
    severity := finding.severity.settled
    category := settledCategory finding.category }

/-- Errors come before everything else. -/
def rank (finding : Finding) : Nat := if finding.severity.isError then 0 else 1

/-- The order of a report: errors first, then by file in code-point order. -/
def notAfter (a b : Finding) : Bool :=
  a.rank < b.rank || (a.rank = b.rank && decide (a.file ≤ b.file))

end Finding

namespace Report

/-- The first finding of each issue. -/
def distinct : List Finding → List Finding
  | [] => []
  | finding :: rest => finding :: (distinct rest).filter (·.key != finding.key)

/-- The findings in the order of a report. Findings that compare equal keep their order. -/
def ordered (findings : List Finding) : List Finding := findings.mergeSort Finding.notAfter

def combine (root : Path) (suppression : Suppression) (sources : List (List Finding)) :
    List Finding :=
  let normal := sources.flatten.map (Finding.normalised root)
  ordered (distinct (normal.filter fun finding => !suppression.covers finding))

end Report

end Checkup
