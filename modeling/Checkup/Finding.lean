import Checkup.Severity

/-!
# Findings

An issue at a place in a file, reported by a rule of some analyzer. Two findings of one rule on one
line of one file are the same issue.
-/

namespace Checkup

def knownCategories : List String :=
  ["Reactivity", "Performance", "Security", "Correctness", "Architecture", "Accessibility",
    "Dead Code", "Best Practices", "Nuxt", "Other"]

@[ext]
structure Finding where
  file : String
  plugin : String
  rule : String
  severity : Severity
  message : String
  help : String
  line : Int
  column : Int
  category : String

namespace Finding

/-- What makes a finding: its file, line and rule. -/
def key (finding : Finding) : String × Int × String := (finding.file, finding.line, finding.rule)

def qualifiedRule (finding : Finding) : String := finding.plugin ++ "/" ++ finding.rule

end Finding

end Checkup
