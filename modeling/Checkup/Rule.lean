import Checkup.Component
import Checkup.Failure
import Checkup.Severity

/-!
# Rules

A rule checks a component and gives hits by line. Some rules test each line of a region, others
apply a predicate to the texts of the component and its regions.
-/

namespace Checkup

/-- A place where a rule applies, with its own message if the rule's does not fit. -/
structure Hit where
  line : Int
  column : Int := 1
  message : Option String := none

/-- What the lines of a predicate's hits count from. -/
inductive LineBase where
  | script
  | file

/-- A test of one line, such as whether a pattern occurs in it. -/
abbrev LineTest := List Char → Bool

/-- A check on the texts of a component, its script and its template. -/
abbrev Predicate := (content script template : List Char) → Except Failure (List Hit)

inductive Check where
  /-- A test for the lines of the script, of the template, or of both. -/
  | lines (script template : Option LineTest)
  | predicate (base : LineBase) (find : Predicate)

structure Rule where
  id : String
  severity : Severity
  category : String
  message : String
  help : String
  frameworks : Option (List String) := none
  check : Check

/-- The lines of a region that meet a test. An empty region has none. -/
def Region.hits (region : Region) (test : LineTest) : List Hit :=
  if region.code.isEmpty then []
  else region.lines.zipIdx.filterMap fun (line, index) =>
    if test line then some { line := region.fileLine index } else none

/-- How many lines stand before the first of those that are counted. -/
def LineBase.offset (base : LineBase) (component : Component) : Int :=
  match base with
  | .script => component.script.startLine
  | .file => 0

namespace Check

/-- What a check finds in a component, by file line. -/
def hits (check : Check) (component : Component) : Except Failure (List Hit) :=
  match check with
  | .lines script template =>
    .ok ((script.map component.script.hits).getD [] ++
      (template.map component.template.hits).getD [])
  | .predicate base find =>
    (find component.content component.script.code component.template.code).map fun hits =>
      hits.map fun hit => { hit with line := hit.line + base.offset component }

def kind : Check → String
  | .lines .. => "pattern"
  | .predicate .. => "predicate"

end Check

def Rule.appliesTo (rule : Rule) (framework : String) : Bool :=
  match rule.frameworks with
  | none => true
  | some frameworks => frameworks.contains framework

end Checkup
