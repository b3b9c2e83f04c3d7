import Checkup.CodeText
import Checkup.Text.Printable

/-!
# Quoted text

A text between quotes for a person to read. Single quotes are used unless the text holds a single
quote and no double one. What is not printable is written by its code point, and so is half of a
surrogate pair. A text may also be shown without quotes; then only the control characters are
written so, and a backslash stays as it is.
-/

namespace Checkup.Text

/-- The last `width` hexadecimal digits of `n`, in lower case. -/
def hexDigits : Nat → Nat → List Char
  | 0, _ => []
  | width + 1, n => hexDigits width (n / 16) ++ [Nat.digitChar (n % 16)]

/-- A code point by its number, in as few digits as its kind of escape has. -/
def numberedEscape (n : Nat) : List Char :=
  if n < 0x100 then '\\' :: 'x' :: hexDigits 2 n
  else if n < 0x10000 then '\\' :: 'u' :: hexDigits 4 n
  else '\\' :: 'U' :: hexDigits 8 n

def quotedChar (quote c : Char) : List Char :=
  if c = '\\' || c = quote then [ '\\', c ]
  else if c = '\n' then [ '\\', 'n' ]
  else if c = '\r' then [ '\\', 'r' ]
  else if c = '\t' then [ '\\', 't' ]
  else if isPrintable c then [c]
  else numberedEscape c.toNat

def quotedPoint (quote : Char) : CodePoint → List Char
  | .char c => quotedChar quote c
  | .half place => numberedEscape (CodePoint.half place).toNat

def quoteFor (text : CodeText) : Char :=
  if text.points.contains (.char '\x27') && !text.points.contains (.char '"') then '"' else '\x27'

def quoted (text : CodeText) : String :=
  let quote := quoteFor text
  String.ofList (quote :: text.points.flatMap (quotedPoint quote) ++ [quote])

def isControl (c : Char) : Bool := c.toNat < 0x20 || (0x7F ≤ c.toNat && c.toNat ≤ 0x9F)

def unquoted (text : String) : String :=
  String.ofList (text.toList.flatMap fun c => if isControl c then numberedEscape c.toNat else [c])

end Checkup.Text
