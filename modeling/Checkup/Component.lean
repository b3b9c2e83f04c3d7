import Checkup.Text.Search

/-!
# Component files

A component file holds a script and a template between tags. Only the first region of each kind
counts. A region remembers how many newlines stand before it, so that a line of the region can be
reported as a line of the file.
-/

namespace Checkup

/-- A part of a file and the number of newlines before it. -/
structure Region where
  code : List Char
  startLine : Nat

namespace Region

def absent : Region := ⟨[], 0⟩

/-- The lines of the region. The first and the last may be parts of a file line. -/
def lines (region : Region) : List (List Char) := Text.lines region.code

/-- The file line, counted from one, of a region line, counted from zero. -/
def fileLine (region : Region) (index : Int) : Int := region.startLine + index + 1

/-- The first region between an opening tag `tag`, with any attributes, and the next closing one. -/
def first (tag : String) (content : List Char) : Region :=
  match Text.cut? ("<" ++ tag).toList content with
  | none => absent
  | some (before, opened) =>
    match Text.cut? [ '>' ] opened with
    | none => absent
    | some (attributes, inside) =>
      match Text.cut? ("</" ++ tag ++ ">").toList inside with
      | none => absent
      | some (code, _) => ⟨code, before.count '\n' + attributes.count '\n'⟩

end Region

structure Component where
  content : List Char
  script : Region
  template : Region

def Component.ofText (content : List Char) : Component :=
  ⟨content, .first "script" content, .first "template" content⟩

end Checkup
