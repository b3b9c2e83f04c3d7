import Checkup.Finding

/-!
# Health scores

A project starts with a hundred points. An error costs two, a warning half a point; a half is
rounded up, and the score stays between zero and a hundred.
-/

namespace Checkup

inductive Grade where
  | great
  | needsWork
  | critical

namespace Grade

/-- The least score of each grade but the last. -/
def greatFrom : Int := 75

def needsWorkFrom : Int := 50

def ofScore (score : Int) : Grade :=
  if greatFrom ≤ score then .great else if needsWorkFrom ≤ score then .needsWork else .critical

def text : Grade → String
  | .great => "Great"
  | .needsWork => "Needs work"
  | .critical => "Critical"

end Grade

structure Health where
  score : Int
  grade : Grade

namespace Health

def errors (findings : List Finding) : Nat := findings.countP (·.severity.isError)

def warnings (findings : List Finding) : Nat := findings.countP (·.severity.isWarning)

/-- The points that are left, in halves. -/
def halfPoints (errors warnings : Nat) : Int := 200 - 4 * errors - warnings

def ofFindings (findings : List Finding) : Health :=
  let halves := halfPoints (errors findings) (warnings findings)
  let score := max 0 (min 100 (Int.fdiv (halves + 1) 2))
  ⟨score, .ofScore score⟩

end Health

end Checkup
