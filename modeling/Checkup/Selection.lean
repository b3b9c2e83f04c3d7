import Checkup.Git
import Checkup.GivenPath
import Checkup.Inspection
import Checkup.Rule.Catalog
import Checkup.Workspace

/-!
# Selecting and inspecting component files

The files to inspect are the components among some given paths or, if none are given, those that
git lists. A file that cannot be read is passed over.
-/

namespace Checkup

def componentSuffix : String := ".vue"

def givenComponents (root : Path) (paths : List GivenPath) : List GivenPath :=
  (paths.filter (·.suffix = CodeText.ofString componentSuffix)).map (GivenPath.join root)

def listedComponents (root : Path) (names : List String) : List Path :=
  (names.filter fun name => Text.closes componentSuffix name.toList).map fun name =>
    root.join (.ofString name)

/-- The component files to inspect. No paths are the same as none given. -/
def selectComponents (git : Git) (root : Path) (paths : Option (List GivenPath)) :
    Journaled (Except Failure (List GivenPath)) :=
  match paths.getD [] with
  | [] => do
    match ← git.ask root .inventory with
    | .ok names => return .ok ((listedComponents root names).map .ofPath)
    | .error .notText => return .error ⟨"UnicodeDecodeError", PathFault.notText.message⟩
    | .error (.failed message) =>
      Journaled.debug ("Cannot enumerate files in " ++ root.text ++ ": " ++ message)
      return .ok []
  | given => return .ok (givenComponents root given)

/-- What the rules find in some files, file by file. Only a path that no file can have breaks the
inspection off. -/
def inspectFiles (workspace : Workspace) (rules : List Rule) :
    List GivenPath → Journaled (Except Failure (List Finding))
  | [] => pure (.ok [])
  | given :: rest =>
    match given.path? with
    | none => pure (.error given.encodingFailure)
    | some path =>
      match workspace.text path with
      | .error .nullCharacter => pure (.error ⟨"ValueError", PathFault.nullCharacter.message⟩)
      | .error fault => do
        Journaled.debug ("Skipping unreadable file " ++ path.text ++ ": " ++ fault.message)
        inspectFiles workspace rules rest
      | .ok content => do
        let found ← inspectText rules path.text content
        let others ← inspectFiles workspace rules rest
        return others.map (found ++ ·)

/-- What the rules of a catalog that apply to a framework find in a project. Without such rules no
file is looked for. -/
def inspectProject (workspace : Workspace) (git : Git) (root : Path) (framework : String)
    (catalog : Catalog) (paths : Option (List GivenPath)) :
    Journaled (Except Failure (List Finding)) :=
  match catalog.applicable framework with
  | [] => pure (.ok [])
  | rules => do
    match ← selectComponents git root paths with
    | .error failure => return .error failure
    | .ok files => inspectFiles workspace rules files

end Checkup
