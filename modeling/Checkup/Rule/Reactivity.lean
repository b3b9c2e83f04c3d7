import Checkup.Rule
import Checkup.Script.Binding
import Checkup.Script.Usage

/-!
# Rules on lost reactivity
-/

namespace Checkup.Rule

open Pattern Script

/-- Braces around at least one character, as in a destructuring declaration. -/
def braced : Pattern := lit "\x7b" ++ someUpTo '\x7d' ++ lit "\x7d"

def propsDestructured : Pattern :=
  declarator ++ blanks ++ braced ++ blanks ++ lit "=" ++ blanks ++
    (lit "defineProps" ||| lit "props") ++ edge

def plainHits (lines : List Nat) : List Hit := lines.map fun (line : Nat) => { line := line }

def refHit (line : Nat) (name : String) : Hit :=
  { line := line
    message := some ("Ref \"" ++ name ++ "\" used without .value in script — this " ++
      "compares/assigns the Ref object, not its value") }

def findReplacements : Predicate := fun _ script _ =>
  let lines := Text.lines script
  .ok (plainHits ((replacements (reactiveNames lines) lines).map (·.1)))

def findRefMisuses : Predicate := fun _ script _ =>
  let lines := Text.lines script
  .ok ((refMisuses (refNames lines) lines).map fun (line, name) => refHit line name)

def reactivity : List Rule :=
  [ { id := "reactivity-destructure-props"
      severity := .error
      category := "Reactivity"
      message := "Destructuring props loses reactivity in Vue 3"
      help := "Use `toRefs(props)` or access `props.xxx` directly instead of destructuring"
      check := .lines (some propsDestructured.occursIn) none },
    { id := "reactivity-reactive-reassign"
      severity := .error
      category := "Reactivity"
      message := "Reassigning a reactive() variable replaces the proxy and breaks reactivity"
      help := "Use Object.assign(state, newData) or replace individual properties instead"
      check := .predicate .script findReplacements },
    { id := "reactivity-ref-no-value"
      severity := .warning
      category := "Reactivity"
      message := "Ref used without .value in script block"
      help := "Access ref values with .value in <script> " ++
        "(auto-unwrapping only works in <template>)"
      check := .predicate .script findRefMisuses } ]

end Checkup.Rule
