import Checkup.Rule.Architecture
import Checkup.Rule.Nuxt
import Checkup.Rule.Performance
import Checkup.Rule.Pinia
import Checkup.Rule.Reactivity

/-!
# The catalog

The built-in rules in their order, and the selection of a part of them by id. No catalog has two
rules of one id.
-/

namespace Checkup

def Rule.builtin : List Rule :=
  Rule.reactivity ++ Rule.performance ++ Rule.nuxt ++ Rule.pinia ++ Rule.architecture

structure Catalog where
  rules : List Rule
  distinct : (rules.map Rule.id).Nodup

namespace Catalog

inductive Fault where
  | duplicateRules (ids : List CodeText)
  | unknownRules (ids : List CodeText)

def Fault.message : Fault → CodeText
  | .duplicateRules ids => CodeText.ofString "Duplicate rule ids: " ++ .intercalate ", " ids
  | .unknownRules ids => CodeText.ofString "Unknown rule ids: " ++ .intercalate ", " ids

def repeated (ids : List String) : List CodeText :=
  CodeText.sortedDistinct ((ids.filter fun id => 1 < ids.count id).map CodeText.ofString)

def ofRules (rules : List Rule) : Except Fault Catalog :=
  if distinct : (rules.map Rule.id).Nodup then .ok ⟨rules, distinct⟩
  else .error (.duplicateRules (repeated (rules.map Rule.id)))

def ids (catalog : Catalog) : List String := catalog.rules.map Rule.id

def get? (catalog : Catalog) (id : CodeText) : Option Rule :=
  catalog.rules.find? fun rule => CodeText.ofString rule.id == id

def applicable (catalog : Catalog) (framework : String) : List Rule :=
  catalog.rules.filter (·.appliesTo framework)

def builtin : Catalog := ⟨Rule.builtin, by decide⟩

/-- The enabled rules, all if no list is given, without the disabled ones. -/
def select (enable disable : Option (List CodeText)) : Except Fault Catalog :=
  let known := builtin.ids.map CodeText.ofString
  let disabled := disable.getD []
  let unknown := (enable.getD [] ++ disabled).filter fun id => !known.contains id
  if unknown.isEmpty then
    let wanted := match enable with
      | none => known
      | some enabled => enabled.eraseDups
    ofRules ((wanted.filter fun id => !disabled.contains id).filterMap builtin.get?)
  else .error (.unknownRules (CodeText.sortedDistinct unknown))

end Catalog

end Checkup
