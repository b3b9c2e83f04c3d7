import Checkup.Finding
import Checkup.Journal
import Checkup.Rule

/-!
# Inspecting a component

Rules are applied one by one. A rule whose check breaks down finds nothing in that component, and
the others are not affected.
-/

namespace Checkup

/-- The name under which the rules report. -/
def ruleEngine : String := "vue-doctor"

def Rule.finding (rule : Rule) (file : String) (hit : Hit) : Finding :=
  { file
    plugin := ruleEngine
    rule := rule.id
    severity := rule.severity
    message := hit.message.getD rule.message
    help := rule.help
    line := hit.line
    column := hit.column
    category := rule.category }

def Rule.inspect (rule : Rule) (file : String) (component : Component) :
    Journaled (List Finding) :=
  match rule.check.hits component with
  | .ok hits => pure (hits.map (rule.finding file))
  | .error failure => do
    Journaled.warn ("Rule " ++ rule.id ++ " failed on " ++ file ++ ": " ++ failure.text)
    pure []

def inspectText (rules : List Rule) (file : String) (content : List Char) :
    Journaled (List Finding) :=
  let component := Component.ofText content
  Journaled.collect (fun rule => rule.inspect file component) rules

end Checkup
