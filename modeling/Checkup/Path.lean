import Checkup.Text.Search

/-!
# Paths

A path is read into its parts: empty parts and single dots are dropped, double dots are kept.
Two ways to go on from there matter here. Parts may be settled from the root without looking at any
directory, where a double dot cancels the part before it, and a settled path may be written
relative to another.
-/

namespace Checkup

structure Path where
  /-- The slashes before the first part: none in a relative path. Exactly two are kept as two. -/
  slashes : Nat
  parts : List String
deriving DecidableEq

namespace Path

def leadingSlashes {α : Type} [DecidableEq α] (slash : α) (text : List α) : Nat :=
  match (text.takeWhile (· == slash)).length with
  | 0 => 0
  | 2 => 2
  | _ => 1

/-- The parts between slashes, without the empty ones and the single dots. -/
def partsOf (text : List Char) : List String :=
  ((Text.pieces '/' text).map String.ofList).filter fun part => part != "" && part != "."

def ofString (text : String) : Path := ⟨leadingSlashes '/' text.toList, partsOf text.toList⟩

/-- The path as text. A relative path without parts is a dot. -/
def text (path : Path) : String :=
  if path.slashes = 0 && path.parts.isEmpty then "."
  else String.ofList (List.replicate path.slashes '/') ++ String.intercalate "/" path.parts

def isAbsolute (path : Path) : Bool := path.slashes != 0

def join (base path : Path) : Path :=
  if path.isAbsolute then path else ⟨base.slashes, base.parts ++ path.parts⟩

/-- A file name's end from its last dot on, if something stands before the dot and after it. -/
def nameSuffix {α : Type} [DecidableEq α] (dot : α) (name : List α) : List α :=
  let ending := (name.reverse.takeWhile (· != dot)).reverse
  let beforeDot := (name.reverse.dropWhile (· != dot)).drop 1
  if beforeDot.isEmpty || ending.isEmpty then [] else dot :: ending

def suffix (path : Path) : String :=
  String.ofList (nameSuffix '.' ((path.parts.getLast?.getD "").toList))

/-! ### Settled paths -/

/-- The parts above the root after one more part. The last part comes first. -/
def climb (above : List String) (part : String) : List String :=
  if part = ".." then above.tail else part :: above

/-- The parts from the root on, where each double dot has cancelled the part before it. -/
def settle (parts : List String) : List String := (parts.foldl climb []).reverse

def resolve (directory path : Path) : Path := ⟨1, settle (directory.join path).parts⟩

/-- The way from the directory `root` to `target`, both settled. -/
def wayFrom : (root target : List String) → List String
  | [], target => target
  | root, [] => root.map fun _ => ".."
  | r :: root, t :: target =>
    if r = t then wayFrom root target else ((r :: root).map fun _ => "..") ++ t :: target

def relativeText (root path : Path) : String :=
  (⟨0, wayFrom (settle root.parts) (settle path.parts)⟩ : Path).text

end Path

end Checkup
