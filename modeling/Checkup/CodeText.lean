/-!
# Texts by code point

A text of a data file is a sequence of code points. Nearly all of them are characters, but an escape
may name half of a surrogate pair alone, which is a code point and no character. Such a text is kept
as it is. A string is a text of characters only.
-/

namespace Checkup

inductive CodePoint where
  | char (c : Char)
  /-- Half of a surrogate pair, by its place among the halves. -/
  | half (place : Fin 2048)
deriving DecidableEq

namespace CodePoint

def firstHalf : Nat := 0xD800

def isChar : CodePoint → Bool
  | .char _ => true
  | .half _ => false

def toNat : CodePoint → Nat
  | .char c => c.toNat
  | .half place => firstHalf + place

def ofNat (n : Nat) : CodePoint :=
  if half : firstHalf ≤ n ∧ n - firstHalf < 2048 then .half ⟨n - firstHalf, half.2⟩
  else .char (Char.ofNat n)

/-- Whether the code point stands for a byte of a file name that is no text. -/
def standsForByte : CodePoint → Bool
  | .char _ => false
  | .half place => 0xDC80 ≤ firstHalf + place && firstHalf + place ≤ 0xDCFF

end CodePoint

structure CodeText where
  points : List CodePoint
deriving DecidableEq

namespace CodeText

def ofChars (chars : List Char) : CodeText := ⟨chars.map .char⟩

def ofString (s : String) : CodeText := ofChars s.toList

instance : Coe String CodeText := ⟨ofString⟩

instance : Append CodeText := ⟨fun a b => ⟨a.points ++ b.points⟩⟩

theorem ofString_inj {a b : String} : ofString a = ofString b ↔ a = b := by
  constructor
  · intro same
    have chars : a.toList.map CodePoint.char = b.toList.map CodePoint.char := by
      simpa only [ofString, ofChars, CodeText.mk.injEq] using same
    exact String.toList_inj.1 ((List.map_inj_right fun _ _ => CodePoint.char.inj).1 chars)
  · exact congrArg ofString

theorem ofString_append (a b : String) : ofString (a ++ b) = ofString a ++ ofString b := by
  show CodeText.mk _ = CodeText.mk _
  simp [ofString, ofChars]

def isEmpty (text : CodeText) : Bool := text.points.isEmpty

def join (texts : List CodeText) : CodeText := ⟨texts.flatMap points⟩

def intercalate (between : String) (texts : List CodeText) : CodeText :=
  join (texts.intersperse between)

def chars? (text : CodeText) : Option (List Char) :=
  text.points.mapM fun point => match point with
    | .char c => some c
    | .half _ => none

/-- The text as it is shown. A half alone is shown as the replacement character. -/
def shown (text : CodeText) : String :=
  String.ofList (text.points.map fun point => match point with
    | .char c => c
    | .half _ => '\uFFFD')

/-- Whether the first of two texts comes before the second or is the same: the numbers of the first
code points that differ decide, and a text comes before its continuations. -/
def pointsNotAfter : List CodePoint → List CodePoint → Bool
  | [], _ => true
  | _ :: _, [] => false
  | a :: as, b :: bs => if a = b then pointsNotAfter as bs else decide (a.toNat < b.toNat)

def notAfter (a b : CodeText) : Bool := pointsNotAfter a.points b.points

def sortedDistinct (texts : List CodeText) : List CodeText := texts.eraseDups.mergeSort notAfter

end CodeText

end Checkup
