import Checkup.Proofs.Examination.Outcomes
import Checkup.Proofs.Settings.Faults
import Mathlib

/-!
# When there is no diagnosis

An examination looks at the manifest, asks git, reads settings, selects rules and runs analyzers.
What goes wrong there is passed over, and a project is refused only if its manifest does not declare
the one dependency that is asked for. The exception are paths beyond the limits of the file system:
a given file of settings at such a path breaks the examination off (`examine_outcome`). Values that
are nested too deeply for their decoders are left aside.
-/

namespace Checkup

section

variable {workspace : Workspace} {git : Git} {root : Path}

theorem examine_of_binary (request : Request) (undecoded : git.answer .inventory = .binary)
    (room : root.LeavesRoom (Project.longestName + 1)) {manifest : Table}
    (read : Manifest.read workspace (root.join (.ofString Manifest.fileName)) = .ok manifest) :
    (examine workspace git root request).value = .error (.broken .undecoded) := by
  rw [examine_value, Project.discover_of_binary workspace undecoded room read]

theorem examine_of_undeclared (request : Request) (decoded : git.answer .inventory ≠ .binary)
    (room : root.LeavesRoom (Project.longestName + 1))
    (manifest : workspace.IsShallow (root.join (.ofString Manifest.fileName)))
    (undeclared : ∀ value, ¬ Manifest.Declares workspace root "vue" value) :
    (examine workspace git root request).value = .error .noVue := by
  obtain ⟨project, known, declares⟩ := Project.exists_discover workspace decoded room manifest
  have absent : project.vueVersion = none := by
    apply Option.eq_none_iff_forall_ne_some.mpr
    intro version present
    obtain ⟨value, declared, _⟩ := (declares version).mp present
    exact undeclared value declared
  rw [examine_value, known]
  exact if_pos (by simp [absent])

/-- With the dependency declared, everything hangs on whether there are settings to use. -/
theorem examine_of_declared (request : Request) (decoded : git.answer .inventory ≠ .binary)
    (room : root.LeavesRoom (Project.longestName + 1)) {value : Value}
    (declared : Manifest.Declares workspace root "vue" value) :
    ∃ project : Project, project.vueVersion = some value.display ∧
      (examine workspace git root request).value =
        match (usableSettings workspace root request.settingsFile).value with
        | .error breakdown => .error (.broken breakdown)
        | .ok settings =>
          .ok (examineUnder workspace git root request project settings).value := by
  obtain ⟨project, known, present⟩ :=
    Project.exists_discover_of_declared workspace decoded room declared
  refine ⟨project, present, ?_⟩
  rw [examine_value, known]
  exact if_neg (by simp [present])

theorem examine_of_lookup_fault {request : Request} (decoded : git.answer .inventory ≠ .binary)
    (room : root.LeavesRoom (Project.longestName + 1)) {value : Value}
    (declared : Manifest.Declares workspace root "vue" value) {file : Path} {fault : PathFault}
    (given : request.settingsFile = some file)
    (failed : workspace.has (root.join file) = .error fault) :
    (examine workspace git root request).value = .error (.broken (.path fault)) := by
  obtain ⟨project, _, examined⟩ := examine_of_declared request decoded room declared
  rw [examined, given, usableSettings, Settings.load_of_fault failed]
  rfl

theorem exists_examine {request : Request} (decoded : git.answer .inventory ≠ .binary)
    (room : root.LeavesRoom (Project.longestName + 1)) {value : Value}
    (declared : Manifest.Declares workspace root "vue" value)
    (fine : ∀ breakdown,
      Settings.load workspace root request.settingsFile ≠ .error (.broken breakdown)) :
    ∃ diagnosis, (examine workspace git root request).value = .ok diagnosis ∧
      diagnosis.project.vueVersion = some value.display := by
  obtain ⟨project, present, examined⟩ := examine_of_declared request decoded room declared
  obtain ⟨settings, read⟩ := exists_usableSettings fine
  rw [read] at examined
  exact ⟨_, examined, present⟩

end

/-- A project whose manifest does not declare the dependency is refused. Any other project is
diagnosed, with the version that counts, unless a file of settings is given whose path cannot be
looked up: then that fault ends the examination. Only where git's listing is not a text does the
examination end before any of that. -/
theorem examine_outcome (workspace : Workspace) (git : Git) (root : Path) (request : Request)
    (room : root.LeavesRoom (Project.longestName + 1))
    (shallow : ∀ path ∈ root.join (.ofString "package.json") ::
      Settings.sources root request.settingsFile, workspace.IsShallow path) :
    let call := (examine workspace git root request).value
    (git.answer .inventory = .binary → call = .error (.broken .undecoded)) ∧
    (git.answer .inventory ≠ .binary →
      ((∀ value, ¬ Manifest.Declares workspace root "vue" value) → call = .error .noVue) ∧
      ∀ value, Manifest.Declares workspace root "vue" value →
        (∀ file fault, request.settingsFile = some file →
          workspace.has (root.join file) = .error fault → call = .error (.broken (.path fault))) ∧
        ((∀ file, request.settingsFile = some file →
          ∃ found, workspace.has (root.join file) = .ok found) →
            ∃ diagnosis, call = .ok diagnosis ∧
              diagnosis.project.vueVersion = some value.display)) := by
  intro call
  have manifest := shallow _ List.mem_cons_self
  have others : ∀ path ∈ Settings.sources root request.settingsFile, workspace.IsShallow path :=
    fun path member => shallow path (List.mem_cons_of_mem _ member)
  refine ⟨?_, ?_⟩
  · intro undecoded
    obtain ⟨_, read, _⟩ := Manifest.exists_read workspace root manifest
    exact examine_of_binary request undecoded room read
  intro decoded
  refine ⟨examine_of_undeclared request decoded room manifest, ?_⟩
  intro value declared
  refine ⟨?_, ?_⟩
  · intro file fault given failed
    exact examine_of_lookup_fault decoded room declared given failed
  · intro usable
    apply exists_examine decoded room declared
    intro breakdown
    cases given : request.settingsFile with
    | none =>
      rw [given] at others
      exact Settings.ofDirectory_ne_broken room manifest others breakdown
    | some file =>
      rw [given] at others
      obtain ⟨found, looked⟩ := usable file given
      have readable := others _ List.mem_cons_self
      exact Settings.map_ne_broken (Settings.ofGivenFile_ne_broken looked readable breakdown)

/-- A manifest that declares the dependency in two sections. -/
def patchyManifest : String :=
  "\x7b\"dependencies\":\x7b\"vue\":\"3\"\x7d,\"devDependencies\":\x7b\"vue\":\"4\"\x7d\x7d"

/-- A project with that manifest and a file of settings that is cut off. -/
def patchyProject : Workspace :=
  ⟨fun location =>
    if location = ["proj"] then some .directory
    else if location = ["proj", "package.json"] then some (.file (.text patchyManifest))
    else if location = ["proj", "settings.json"] then some (.file (.text "\x7b"))
    else none⟩

def patchyRoot : Path := ⟨1, ["proj"]⟩

theorem leavesRoom_patchyRoot : patchyRoot.LeavesRoom (Project.longestName + 1) :=
  ⟨by decide, by decide⟩

theorem read_patchyManifest : Json.read (Text.unifyNewlines patchyManifest.toList) =
    .ok (.table [("dependencies", .table [("vue", .str "3")]),
      ("devDependencies", .table [("vue", .str "4")])]) := by
  cbv

theorem isShallow_patchyManifest :
    patchyProject.IsShallow (patchyRoot.join (.ofString Manifest.fileName)) := by
  have asToml : Toml.read patchyManifest.toList = .error .malformed := by cbv
  apply Workspace.isShallow_of_text (show _ = Except.ok patchyManifest from rfl)
  · intro deep failed
    rw [read_patchyManifest] at failed
    cases failed
  · intro deep failed
    rw [asToml] at failed
    cases failed

theorem declares_patchyManifest : Manifest.Declares patchyProject patchyRoot "vue" (.str "4") :=
  ⟨_, ⟨_, rfl, read_patchyManifest⟩, by cbv⟩

/-- Settings that are cut off, a git that is not there and an analyzer that breaks down do not keep
a project from being diagnosed. -/
theorem examine_outcome_patchy :
    let git : Git := ⟨fun _ => .unavailable "not installed"⟩
    let linter : Analyzer := ⟨"linter", .lint, fun _ => pure (.error ⟨"OSError", "not installed"⟩)⟩
    let request : Request :=
      { settingsFile := some (.ofString "settings.json"), analyzers := [linter] }
    patchyRoot.LeavesRoom (Project.longestName + 1) ∧
      (∀ path ∈ patchyRoot.join (.ofString "package.json") ::
        Settings.sources patchyRoot request.settingsFile, patchyProject.IsShallow path) ∧
      Manifest.Declares patchyProject patchyRoot "vue" (.str "4") ∧
      ∃ diagnosis, (examine patchyProject git patchyRoot request).value = .ok diagnosis ∧
        diagnosis.project.vueVersion = some (Value.str "4").display := by
  intro git linter request
  have settings : patchyProject.IsShallow (patchyRoot.join (.ofString "settings.json")) := by
    have asJson : Json.read (Text.unifyNewlines "\x7b".toList) = .error .malformed := by cbv
    have asToml : Toml.read "\x7b".toList = .error .malformed := by cbv
    apply Workspace.isShallow_of_text (show _ = Except.ok "\x7b" from rfl)
    · intro deep failed
      rw [asJson] at failed
      cases failed
    · intro deep failed
      rw [asToml] at failed
      cases failed
  have shallow : ∀ path ∈ patchyRoot.join (.ofString "package.json") ::
      Settings.sources patchyRoot request.settingsFile, patchyProject.IsShallow path := by
    intro path member
    rcases List.mem_cons.mp member with rfl | source
    · exact isShallow_patchyManifest
    · obtain rfl := List.mem_singleton.mp source
      exact settings
  have outcome := examine_outcome patchyProject git patchyRoot request leavesRoom_patchyRoot shallow
  refine ⟨leavesRoom_patchyRoot, shallow, declares_patchyManifest, ?_⟩
  have decoded : git.answer .inventory ≠ .binary := by simp [git]
  apply ((outcome.2 decoded).2 _ declares_patchyManifest).2
  rintro file given
  obtain rfl := Option.some.inj given
  exact ⟨true, rfl⟩

/-- A file of settings whose name has 256 bytes ends the examination of the same project. -/
theorem examine_of_long_name :
    let git : Git := ⟨fun _ => .unavailable "not installed"⟩
    let file : Path := ⟨0, [String.ofList (List.replicate 256 'n')]⟩
    let call := examine patchyProject git patchyRoot { settingsFile := some file }
    Manifest.Declares patchyProject patchyRoot "vue" (.str "4") ∧
      call.value = .error (.broken (.path (.nameTooLong (patchyRoot.join file)))) := by
  intro git file call
  refine ⟨declares_patchyManifest, ?_⟩
  have decoded : git.answer .inventory ≠ .binary := by simp [git]
  apply examine_of_lookup_fault decoded leavesRoom_patchyRoot declares_patchyManifest rfl
  apply Workspace.has_of_long (show _ = Except.ok (["proj"], Entry.directory) from rfl)
  · rw [String.toList_ofList]
    intro member
    exact absurd (List.eq_of_mem_replicate member) (by decide)
  · decide +kernel

end Checkup
