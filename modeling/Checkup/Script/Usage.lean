import Checkup.Pattern
import Checkup.Text.Search

/-!
# Suspicious uses of a name

Three ways to lose reactivity through a name: replacing a reactive object, applying an operator to
a ref instead of its value, and writing to a store's state. Each scan gives the lines, counted from
one, and on each line the names in code-point order.
-/

namespace Checkup.Script

open Pattern

/-- The lines and names for which `flags` holds. -/
def usages (flags : String → List Char → Bool) (names : List String) (lines : List (List Char)) :
    List (Nat × String) :=
  (lines.zipIdx 1).flatMap fun (line, number) =>
    ((Text.sortedDistinct names).filter (flags · line)).map (number, ·)

/-! ### Replacing a reactive object -/

/-- An assignment to `name` at the start of a line, of something without a dot. -/
def assignment (name : String) : Pattern :=
  blanks ++ lit name ++ blanks ++ lit "=" ++ notAhead (lit "=") ++ blanks ++
    notAhead (onLine ++ lit ".")

def declarationMarks : List String := ["reactive(", "const ", "let ", "var "]

def replaces (name : String) (line : List Char) : Bool :=
  !declarationMarks.any (Text.occursIn · line) && (assignment name).opens line

def replacements : List String → List (List Char) → List (Nat × String) := usages replaces

/-! ### Operators on a ref -/

/-- Texts that mark a line as a declaration of a ref or as evaluated later. -/
def deferralMarks : List String := ["= ref", "watch(", "computed(", "return"]

/-- Whether the line is a comment or is passed over for its marks. -/
def deferred (line : List Char) : Bool :=
  let code := Text.trim line
  deferralMarks.any (Text.occursIn · line) || Text.opens "//" code || Text.opens "*" code

def unwrapped (name : String) : Pattern := edge ++ lit name ++ lit ".value" ++ edge

def bare (name : String) : Pattern :=
  edge ++ lit name ++ edge ++ notAhead (lit ".value") ++ notAhead (one Text.isWord)

def operator : Pattern :=
  (oneOf "=!<>" ++ lit "=") ||| (oneOf "+-*/" ++ lit "=") ||| lit "++" ||| lit "--"

def operated (name : String) : Pattern := edge ++ lit name ++ edge ++ blanks ++ operator

/-- Whether the line applies an operator to the ref `name` and nowhere takes its value. -/
def misusesRef (name : String) (line : List Char) : Bool :=
  !deferred line && !(unwrapped name).occursIn line && (bare name).occursIn line &&
    (operated name).occursIn line

def refMisuses : List String → List (List Char) → List (Nat × String) := usages misusesRef

/-! ### Writing to a store -/

def memberAssignment (name : String) : Pattern :=
  edge ++ lit name ++ lit "." ++ word ++ blanks ++ lit "=" ++ notAhead (lit "=")

def writesStore (name : String) (line : List Char) : Bool := (memberAssignment name).occursIn line

def storeWrites : List String → List (List Char) → List (Nat × String) := usages writesStore

end Checkup.Script
