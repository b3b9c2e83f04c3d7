import Checkup.Decimal.Shortest
import Checkup.Text.Quoted
import Checkup.Value

/-!
# Values as text

How a value is shown to a person. A text is shown as it is, and between quotes inside a list or a
table.
-/

namespace Checkup.Value

def boolText (b : Bool) : String := if b then "True" else "False"

mutual

/-- A value as it is shown inside another. -/
def inner : Value → String
  | .null => "None"
  | .bool b => boolText b
  | .int n => toString n
  | .float x => Decimal.shortestText x
  | .str text => Text.quoted text
  | .moment written => written
  | .list items => "[" ++ String.intercalate ", " (innerItems items) ++ "]"
  | .table entries => "\x7b" ++ String.intercalate ", " (innerEntries entries) ++ "\x7d"

def innerItems : List Value → List String
  | [] => []
  | item :: rest => inner item :: innerItems rest

def innerEntries : List (CodeText × Value) → List String
  | [] => []
  | (key, value) :: rest => (Text.quoted key ++ ": " ++ inner value) :: innerEntries rest

end

def display : Value → CodeText
  | .str text => text
  | value => value.inner

end Checkup.Value
