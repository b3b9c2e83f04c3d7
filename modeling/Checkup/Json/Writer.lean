import Checkup.Decimal.Shortest
import Checkup.Text.Quoted
import Checkup.Value

/-!
# Writing JSON

A value on one line, in ASCII: the keys of a table in code-point order, a blank after each comma
and colon, and every other character than the printable ASCII ones escaped. Where values of any
origin are written, `holdsLong` finds the integers that are too long for it.
-/

namespace Checkup.Json

def unitEscape (unit : Nat) : List Char := '\\' :: 'u' :: Text.hexDigits 4 unit

def escape (c : Char) : List Char :=
  let n := c.toNat
  match c with
  | '"' => [ '\\', '"' ]
  | '\\' => [ '\\', '\\' ]
  | '\n' => [ '\\', 'n' ]
  | '\r' => [ '\\', 'r' ]
  | '\t' => [ '\\', 't' ]
  | '\x08' => [ '\\', 'b' ]
  | '\x0c' => [ '\\', 'f' ]
  | _ =>
    if 0x20 ≤ n && n ≤ 0x7E then [c]
    else if n < 0x10000 then unitEscape n
    else
      unitEscape (0xD800 + (n - 0x10000) / 0x400) ++ unitEscape (0xDC00 + (n - 0x10000) % 0x400)

def escapePoint : CodePoint → List Char
  | .char c => escape c
  | .half place => unitEscape (CodePoint.half place).toNat

def writeString (text : CodeText) : List Char :=
  '"' :: text.points.flatMap escapePoint ++ [ '"' ]

def writeFloat (x : Float) : String :=
  match Decimal.read x with
  | .nan => "NaN"
  | .infinite => if Decimal.isNegative x then "-Infinity" else "Infinity"
  | .finite _ => Decimal.shortestText x

def separated : List (List Char) → List Char
  | [] => []
  | [text] => text
  | text :: rest => text ++ ',' :: ' ' :: separated rest

def writeEntries (entries : List (CodeText × List Char)) : List Char :=
  let ordered := entries.mergeSort fun a b => a.1.notAfter b.1
  let written := ordered.map fun (key, value) => writeString key ++ ':' :: ' ' :: value
  '\x7b' :: separated written ++ [ '\x7d' ]

mutual

def writeValue : Value → List Char
  | .null => "null".toList
  | .bool b => (if b then "true" else "false").toList
  | .int n => (toString n).toList
  | .float x => (writeFloat x).toList
  | .str text => writeString text
  | .moment written => writeString written
  | .list items => '[' :: separated (writeItems items) ++ [ ']' ]
  | .table entries => writeEntries (writeFields entries)

def writeItems : List Value → List (List Char)
  | [] => []
  | item :: rest => writeValue item :: writeItems rest

def writeFields : List (CodeText × Value) → List (CodeText × List Char)
  | [] => []
  | (key, value) :: rest => (key, writeValue value) :: writeFields rest

end

def write (value : Value) : String := String.ofList (writeValue value)

def isLong (n : Int) : Bool := Nat.pow 10 Value.digitLimit ≤ n.natAbs

mutual

def holdsLong : Value → Bool
  | .int n => isLong n
  | .list items => anyHoldsLong items
  | .table entries => fieldHoldsLong entries
  | _ => false

def anyHoldsLong : List Value → Bool
  | [] => false
  | item :: rest => holdsLong item || anyHoldsLong rest

def fieldHoldsLong : List (CodeText × Value) → Bool
  | [] => false
  | (_, value) :: rest => holdsLong value || fieldHoldsLong rest

end

end Checkup.Json
