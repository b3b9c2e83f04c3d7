import Checkup.Failure
import Checkup.Path
import Checkup.Text.Quoted

/-!
# Given paths

A path that a caller gives may hold half of a surrogate pair. It has no encoding then, so that it
cannot even be looked up. Halves that stand for the bytes of a name that is no text are left out
here: the names in a workspace are texts.
-/

namespace Checkup

structure GivenPath where
  slashes : Nat
  parts : List CodeText
  textual : ∀ part ∈ parts, ∀ point ∈ part.points, point.standsForByte = false
deriving DecidableEq

namespace GivenPath

/-! ### Paths of characters -/

theorem standsForByte_ofString {s : String} {point : CodePoint}
    (member : point ∈ (CodeText.ofString s).points) : point.standsForByte = false := by
  obtain ⟨c, _, rfl⟩ := List.mem_map.mp member
  rfl

def ofPath (path : Path) : GivenPath where
  slashes := path.slashes
  parts := path.parts.map CodeText.ofString
  textual := by
    intro part member point inside
    obtain ⟨s, _, rfl⟩ := List.mem_map.mp member
    exact standsForByte_ofString inside

def ofString (text : String) : GivenPath := ofPath (.ofString text)

/-- The path itself, if it has characters only. -/
def path? (path : GivenPath) : Option Path :=
  (path.parts.mapM CodeText.chars?).map fun parts => ⟨path.slashes, parts.map String.ofList⟩

/-! ### Any paths -/

/-- The path that a text spells, unless some half in it stands for a byte. -/
def ofText? (text : CodeText) : Option GivenPath :=
  let parts := ((Text.pieces (.char '/') text.points).map CodeText.mk).filter fun part : CodeText =>
    part ≠ "" ∧ part ≠ "."
  if textual : ∀ part ∈ parts, ∀ point ∈ part.points, point.standsForByte = false then
    some ⟨Path.leadingSlashes (.char '/') text.points, parts, textual⟩
  else none

def text (path : GivenPath) : CodeText :=
  if path.slashes = 0 && path.parts.isEmpty then "."
  else .ofChars (List.replicate path.slashes '/') ++ .intercalate "/" path.parts

def join (base : Path) (path : GivenPath) : GivenPath :=
  if path.slashes = 0 then
    { slashes := base.slashes
      parts := base.parts.map CodeText.ofString ++ path.parts
      textual := by
        intro part member
        rcases List.mem_append.mp member with above | own
        · exact (ofPath base).textual part above
        · exact path.textual part own }
  else path

def suffix (path : GivenPath) : CodeText :=
  ⟨Path.nameSuffix (.char '.') (path.parts.getLast?.getD "").points⟩

/-- How a look at the path breaks down: the first halves in it have no encoding. -/
def encodingFailure (path : GivenPath) : Failure :=
  let points := path.text.points
  let start := (points.takeWhile CodePoint.isChar).length
  let halves := (points.drop start).takeWhile fun point => !point.isChar
  let place := match halves with
    | [half] =>
      "character '" ++ String.ofList (Text.numberedEscape half.toNat) ++ "' in position " ++
        toString start
    | _ =>
      "characters in position " ++ toString start ++ "-" ++ toString (start + halves.length - 1)
  ⟨"UnicodeEncodeError", "'utf-8' codec can't encode " ++ place ++ ": surrogates not allowed"⟩

end GivenPath

end Checkup
