import Checkup.Rule
import Checkup.Rule.Reactivity
import Checkup.Script.Navigation

/-!
# Rules for Nuxt
-/

namespace Checkup.Rule

open Pattern Script

/-- A mount hook that fetches data on the same line. -/
def fetchInMounted : Pattern :=
  lit "onMounted" ++ blanks ++ lit "(" ++ blanks ++ optional (lit "async" ++ blanks) ++ lit "()" ++
    blanks ++ lit "=>" ++ blanks ++ lit "\x7b" ++ onLine ++
    (lit "useFetch" ||| lit "useAsyncData" ||| lit "$fetch") ++ edge

def findNavigations : Predicate := fun _ script _ =>
  .ok (plainHits (setupNavigations (Text.lines script)))

def nuxt : List Rule :=
  [ { id := "nuxt-fetch-in-mounted"
      severity := .error
      category := "Nuxt"
      message := "Data fetching composable used inside onMounted()"
      help := "Move useFetch/useAsyncData to the top level of <script setup> — " ++
        "they are designed to run during SSR"
      frameworks := some ["nuxt3"]
      check := .lines (some fetchInMounted.occursIn) none },
    { id := "nuxt-no-navigate-to-in-setup"
      severity := .warning
      category := "Nuxt"
      message := "navigateTo() called at setup level without return"
      help := "Use `return navigateTo('/path')` — without return, " ++
        "the navigation may not work correctly"
      frameworks := some ["nuxt3"]
      check := .predicate .script findNavigations } ]

end Checkup.Rule
