import Checkup.Examination
import Checkup.Proofs.Project.Declarations

/-!
# Faults of settings

Settings that cannot be used are a fault that is passed over. Only two kinds end the work: values
that are nested too deeply, and a path that cannot be looked up. Neither arises for the files in a
project's directory if its path leaves room for their names (`ofDirectory_ne_broken`); a given file
may have any path (`load_of_fault`).
-/

namespace Checkup

namespace Settings

/-- The files that settings may be read from, other than the manifest. -/
def sources (root : Path) : Option Path → List Path
  | some file => [root.join file]
  | none => fileNames.map fun name => root.join (.ofString name)

section

variable {workspace : Workspace} {path : Path}

theorem ofPath_ne_broken (path : Path) (fault : PathFault) (breakdown : Breakdown) :
    Fault.ofPath path fault ≠ .broken breakdown := by
  cases fault with
  | _ => exact nofun

theorem jsonTable_ne_broken (shallow : workspace.IsShallow path) (breakdown : Breakdown) :
    jsonTable workspace path ≠ .error (.broken breakdown) := by
  unfold jsonTable
  split
  · next fault _ =>
    rw [Ne, Except.error.injEq]
    exact ofPath_ne_broken path fault breakdown
  · next text readable =>
    split
    · exact nofun
    · exact nofun
    · exact nofun
    · exact nofun
    · next deep decoded => exact absurd decoded (shallow.json text readable deep)

theorem tomlTable_ne_broken (shallow : workspace.IsShallow path) (breakdown : Breakdown) :
    tomlTable workspace path ≠ .error (.broken breakdown) := by
  unfold tomlTable
  split
  · next fault _ =>
    rw [Ne, Except.error.injEq]
    exact ofPath_ne_broken path fault breakdown
  · next text readable =>
    split
    · exact nofun
    · exact nofun
    · exact nofun
    · next deep decoded => exact absurd decoded (shallow.toml text readable deep)

theorem checked_ne_broken (table : Table) (source : String) (breakdown : Breakdown) :
    checked table source ≠ .error (.broken breakdown) := by
  unfold checked
  split
  · exact nofun
  · exact nofun

theorem bind_ne_broken {α β : Type} {first : Except Fault α} {next : α → Except Fault β}
    {breakdown : Breakdown} (fine : first ≠ .error (.broken breakdown))
    (onward : ∀ a, next a ≠ .error (.broken breakdown)) :
    (first >>= next) ≠ .error (.broken breakdown) := by
  cases first with
  | ok a => exact onward a
  | error fault =>
    intro broken
    exact fine (congrArg Except.error (Except.error.inj broken))

theorem map_ne_broken {α β : Type} {first : Except Fault α} {change : α → β}
    {breakdown : Breakdown} (fine : first ≠ .error (.broken breakdown)) :
    first.map change ≠ .error (.broken breakdown) := by
  have changed : first.map change = first >>= fun a => .ok (change a) := by
    cases first with
    | ok a => rfl
    | error fault => rfl
  rw [changed]
  exact bind_ne_broken fine fun _ => nofun

theorem ofFile_ne_broken (shallow : workspace.IsShallow path) (breakdown : Breakdown) :
    ofFile workspace path ≠ .error (.broken breakdown) := by
  unfold ofFile
  split
  · exact bind_ne_broken (tomlTable_ne_broken shallow breakdown) fun table =>
      checked_ne_broken table path.text breakdown
  · exact bind_ne_broken (jsonTable_ne_broken shallow breakdown) fun table =>
      checked_ne_broken table path.text breakdown

theorem ofManifest_ne_broken {root : Path}
    (shallow : workspace.IsShallow (root.join (.ofString Manifest.fileName)))
    (breakdown : Breakdown) : ofManifest workspace root ≠ .error (.broken breakdown) := by
  obtain ⟨manifest, read, _⟩ := Manifest.exists_read workspace root shallow
  unfold ofManifest
  simp only [read]
  split
  · exact map_ne_broken (checked_ne_broken _ _ breakdown)
  · exact nofun

end

/-- Settings that are looked for in the project's directory do not break the work off. -/
theorem ofDirectory_ne_broken {workspace : Workspace} {root : Path}
    (room : root.LeavesRoom (Project.longestName + 1))
    (manifest : workspace.IsShallow (root.join (.ofString Manifest.fileName)))
    (shallow : ∀ path ∈ sources root none, workspace.IsShallow path) (breakdown : Breakdown) :
    ofDirectory workspace root ≠ .error (.broken breakdown) := by
  obtain ⟨found, first⟩ := workspace.firstOf_join room (by decide)
    (show ∀ name ∈ fileNames, Path.IsShortName Project.longestName name by decide)
  unfold ofDirectory
  rw [first]
  cases found with
  | none => exact ofManifest_ne_broken manifest breakdown
  | some path =>
    exact map_ne_broken (ofFile_ne_broken (shallow path (Workspace.mem_of_firstOf first)) breakdown)

theorem ofGivenFile_ne_broken {workspace : Workspace} {root file : Path} {found : Bool}
    (usable : workspace.has (root.join file) = .ok found)
    (shallow : workspace.IsShallow (root.join file)) (breakdown : Breakdown) :
    ofGivenFile workspace root file ≠ .error (.broken breakdown) := by
  unfold ofGivenFile
  simp only [usable]
  cases found with
  | true => exact ofFile_ne_broken shallow breakdown
  | false => exact nofun

theorem load_of_fault {workspace : Workspace} {root file : Path} {fault : PathFault}
    (failed : workspace.has (root.join file) = .error fault) :
    load workspace root (some file) = .error (.broken (.path fault)) := by
  show (ofGivenFile workspace root file).map some = _
  unfold ofGivenFile
  simp only [failed]
  rfl

end Settings

theorem exists_usableSettings {workspace : Workspace} {root : Path} {file : Option Path}
    (fine : ∀ breakdown, Settings.load workspace root file ≠ .error (.broken breakdown)) :
    ∃ settings, (usableSettings workspace root file).value = .ok settings := by
  unfold usableSettings
  split
  · exact ⟨_, rfl⟩
  · next breakdown broken => exact absurd broken (fine breakdown)
  · exact ⟨none, rfl⟩

end Checkup
