import Checkup.Pattern

/-!
# Navigations at setup level

A script navigates at setup level where it calls `navigateTo` outside any function body. Nesting is
judged by braces alone, also those in strings and comments, counted up to the end of the line.
-/

namespace Checkup.Script

open Pattern

def navigation : Pattern := lit "navigateTo" ++ blanks ++ lit "("

def returnedNavigation : Pattern := lit "return" ++ someBlanks ++ lit "navigateTo"

def braceBalance (line : List Char) : Int := (line.count '\x7b' : Int) - line.count '\x7d'

def dropsNavigation (line : List Char) : Bool :=
  navigation.occursIn line && !returnedNavigation.occursIn line

/-- The lines from `number` on, after text of the given brace depth, that drop a navigation at
depth one or less. -/
def navigationsFrom (depth : Int) (number : Nat) : List (List Char) → List Nat
  | [] => []
  | line :: rest =>
    let inside := depth + braceBalance line
    let later := navigationsFrom inside (number + 1) rest
    if inside ≤ 1 && dropsNavigation line then number :: later else later

/-- The lines, counted from one, that drop a navigation at setup level. -/
def setupNavigations (lines : List (List Char)) : List Nat := navigationsFrom 0 1 lines

end Checkup.Script
