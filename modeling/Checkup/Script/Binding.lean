import Checkup.Pattern
import Checkup.Text.Search

/-!
# Bindings

The names that a script binds to a reactive object, a ref or a store. A line contributes the name
of its first declaration whose initial value has the wanted shape.
-/

namespace Checkup.Script

open Pattern

def declarators : List String := ["const", "let", "var"]

def declarator : Pattern := lit "const" ||| lit "let" ||| lit "var"

def initialised (initial : Pattern) : Pattern := blanks ++ lit "=" ++ blanks ++ initial

/-- The name that a declaration at the start of the text binds to such an initial value. -/
def nameHere? (initial : Pattern) (text : List Char) : Option String := do
  let after ← declarators.findSome? fun keyword => Text.after? keyword.toList text
  let gap := after.takeWhile Text.isBlank
  let fromName := after.dropWhile Text.isBlank
  let name := fromName.takeWhile Text.isWord
  let value : Place := ⟨name.getLast?, fromName.dropWhile Text.isWord⟩
  if !gap.isEmpty && !name.isEmpty && (initialised initial).matchesAt value then
    some (String.ofList name)
  else none

/-- The name that the line's first declaration with such an initial value binds. -/
def boundName? (initial : Pattern) : List Char → Option String
  | [] => none
  | c :: rest => (nameHere? initial (c :: rest)).or (boundName? initial rest)

/-- The names bound on some line, each once, in code-point order. -/
def boundNames (initial : Pattern) (lines : List (List Char)) : List String :=
  Text.sortedDistinct (lines.filterMap (boundName? initial))

def reactiveCall : Pattern := lit "reactive("

def refCall : Pattern := lit "ref" ++ blanks ++ oneOf "<("

def storeCall : Pattern := lit "use" ++ word ++ lit "Store" ++ blanks ++ lit "()"

def reactiveNames (lines : List (List Char)) : List String := boundNames reactiveCall lines

def refNames (lines : List (List Char)) : List String := boundNames refCall lines

def storeNames (lines : List (List Char)) : List String := boundNames storeCall lines

end Checkup.Script
