import Checkup.Pattern
import Checkup.Rule

/-!
# Rules on component architecture
-/

namespace Checkup.Rule

open Pattern

/-- An opening script tag with the word `setup` among its attributes. -/
def setupTag : Pattern := lit "<script" ++ upTo '>' ++ edge ++ lit "setup" ++ edge

def methodNamed (name : String) : Pattern :=
  lit name ++ blanks ++ lit "(" ++ blanks ++ lit ")"

def optionNamed (name : String) : Pattern := lit name ++ blanks ++ lit ":"

/-- An exported component object with one of the usual options somewhere after it. -/
def optionsApi : Pattern :=
  lit "export" ++ someBlanks ++ lit "default" ++ blanks ++ lit "\x7b" ++ anything ++
    (methodNamed "data" ||| optionNamed "methods" ||| optionNamed "computed" |||
      optionNamed "watch" ||| methodNamed "mounted" ||| methodNamed "created")

def compositionApi : Pattern :=
  edge ++
    (lit "ref" ||| lit "reactive" ||| lit "computed" ||| lit "watch" ||| lit "onMounted" |||
      lit "defineProps" ||| lit "defineEmits") ++
    blanks ++ lit "("

/-- Whether a component without a setup script uses both styles. -/
def mixesStyles (content : List Char) : Bool :=
  !setupTag.occursIn content && optionsApi.occursIn content && compositionApi.occursIn content

def findMixedStyles : Predicate := fun content _ _ =>
  if mixesStyles content then
    .ok [ { line := 1
            message := some ("Component mixes Options API and Composition API — " ++
              "pick one style for consistency") } ]
  else .ok []

def architecture : List Rule :=
  [ { id := "arch-mixed-api-styles"
      severity := .warning
      category := "Architecture"
      message := "Mixed Options API and Composition API in the same component"
      help := "Migrate to Composition API with <script setup> for consistency " ++
        "and better TypeScript support"
      check := .predicate .file findMixedStyles } ]

end Checkup.Rule
