import Checkup.CodeText

/-!
# Values of data files

What a settings file or a manifest holds. A table keeps its entries in the order in which their
keys first appeared; a key that is given again keeps its place and takes the later value.
-/

namespace Checkup

inductive Value where
  | null
  | bool (b : Bool)
  | int (n : Int)
  | float (x : Float)
  | str (text : CodeText)
  /-- A date, a time of day, or both, as it was written. -/
  | moment (written : String)
  | list (items : List Value)
  | table (entries : List (CodeText × Value))
deriving Inhabited

abbrev Table := List (CodeText × Value)

namespace Table

def get? (table : Table) (key : CodeText) : Option Value := table.lookup key

def has (table : Table) (key : CodeText) : Bool := (table.get? key).isSome

/-- The table with `value` under `key`. A known key keeps its place. -/
def put (table : Table) (key : CodeText) (value : Value) : Table :=
  match table with
  | [] => [(key, value)]
  | (k, v) :: rest => if k = key then (k, value) :: rest else (k, v) :: put rest key value

end Table

namespace Value

inductive Overflow where
  | jsonList
  | jsonTable
  | toml

def Overflow.message : Overflow → String
  | .jsonList =>
    "maximum recursion depth exceeded while decoding a JSON array from a unicode string"
  | .jsonTable =>
    "maximum recursion depth exceeded while decoding a JSON object from a unicode string"
  | .toml => "maximum recursion depth exceeded"

inductive Fault where
  | malformed
  | longInteger (digits : Nat)
  | tooDeep (overflow : Overflow)

def digitLimit : Nat := 4300

def depthLimit : Nat := 980

def ofString (s : String) : Value := .str s

def ofTexts (texts : List CodeText) : Value := .list (texts.map .str)

def ofStrings (strings : List String) : Value := ofTexts (strings.map CodeText.ofString)

def ofOption (encode : α → Value) : Option α → Value
  | none => .null
  | some a => encode a

end Value

end Checkup
