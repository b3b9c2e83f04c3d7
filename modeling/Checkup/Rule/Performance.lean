import Checkup.Pattern
import Checkup.Rule

/-!
# Rules on rendering cost
-/

namespace Checkup.Rule

open Pattern

def componentLineLimit : Nat := 300

def methodInLoop : Pattern :=
  lit "v-for" ++ blanks ++ lit "=" ++ blanks ++ lit "\"" ++ upTo '"' ++ word ++ lit "(" ++
    upTo ')' ++ lit ")"

def findGiant : Predicate := fun content _ _ =>
  let count := (Text.lines content).length
  if count ≤ componentLineLimit then .ok []
  else .ok [ { line := 1
               message := some ("Component has " ++ toString count ++
                 " lines — consider splitting into smaller components") } ]

def performance : List Rule :=
  [ { id := "perf-giant-component"
      severity := .warning
      category := "Performance"
      message := "Giant component with too many lines"
      help := "Split components larger than " ++ toString componentLineLimit ++ " lines into " ++
        "smaller, focused sub-components"
      check := .predicate .file findGiant },
    { id := "perf-v-for-method-call"
      severity := .warning
      category := "Performance"
      message := "Method call inside v-for — this runs on every re-render"
      help := "Use a computed property instead of calling a method inside v-for"
      check := .lines none (some methodInLoop.occursIn) } ]

end Checkup.Rule
