import Checkup.Rule
import Checkup.Rule.Reactivity

/-!
# Rules for Pinia stores
-/

namespace Checkup.Rule

open Pattern Script

def storeDestructured : Pattern :=
  declarator ++ blanks ++ braced ++ blanks ++ lit "=" ++ blanks ++ storeCall

def findStoreWrites : Predicate := fun _ script _ =>
  let lines := Text.lines script
  .ok (plainHits ((storeWrites (storeNames lines) lines).map (·.1)))

def pinia : List Rule :=
  [ { id := "pinia-no-store-to-refs"
      severity := .warning
      category := "Reactivity"
      message := "Destructuring store without storeToRefs() loses reactivity"
      help := "Use `const \x7b count \x7d = storeToRefs(useCounterStore())` for reactive " ++
        "destructuring, or destructure only actions"
      check := .lines (some storeDestructured.occursIn) none },
    { id := "pinia-direct-state-mutation"
      severity := .warning
      category := "Best Practices"
      message := "Direct mutation of store state outside store actions"
      help := "Use store actions or $patch() for state mutations to maintain traceability"
      check := .predicate .script findStoreWrites } ]

end Checkup.Rule
