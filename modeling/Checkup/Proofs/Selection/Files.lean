import Checkup.Proofs.Examination.Outcomes
import Checkup.Proofs.Inspection.Lines
import Checkup.Proofs.Path.Given
import Checkup.Proofs.Workspace.Limits

/-!
# Inspecting selected files

What is found in some files is what is found in each of them, one after the other
(`handedOver_inspectFiles`). For plain names in a project the breaking off of an inspection makes no
difference: if one of their paths cannot be a path, then none can.
-/

namespace Checkup

/-! ### Paths that no file can have -/

theorem Path.holdsNull_join (root path : Path) : (root.join path).holdsNull =
    if path.isAbsolute then path.holdsNull else root.holdsNull || path.holdsNull := by
  unfold join
  split
  · rfl
  · exact List.any_append

namespace GivenPath

/-- Whether no file can have the path: it has no encoding, or holds a null character. -/
def isUnusable (given : GivenPath) : Bool := given.path?.all Path.holdsNull

theorem isUnusable_ofPath (path : Path) : (ofPath path).isUnusable = path.holdsNull := by
  rw [isUnusable, path?_ofPath]
  rfl

end GivenPath

namespace Workspace

theorem follow_ne_nullCharacter (workspace : Workspace) (path : Path) (here : Location)
    (parts : List String) : workspace.follow path here parts ≠ .error .nullCharacter := by
  intro failed
  rcases follow_fault failed with missing | file | ⟨long, _⟩
  · cases missing
  · cases file
  · cases long

theorem find_eq_nullCharacter_iff (workspace : Workspace) (path : Path) :
    workspace.find path = .error .nullCharacter ↔ path.holdsNull = true := by
  unfold find
  split
  · next holds => exact iff_of_true rfl holds
  · next clean =>
    refine iff_of_false ?_ clean
    split
    · exact nofun
    · exact follow_ne_nullCharacter workspace path [] path.parts

theorem text_eq_nullCharacter_iff (workspace : Workspace) (path : Path) :
    workspace.text path = .error .nullCharacter ↔ path.holdsNull = true := by
  rw [← find_eq_nullCharacter_iff, text, rawText, content]
  cases workspace.find path with
  | error fault =>
    show (Except.error fault : Except PathFault (List Char)) = _ ↔ _
    rw [Except.error.injEq, Except.error.injEq]
  | ok found =>
    obtain ⟨location, entry⟩ := found
    apply iff_of_false
    · intro failed
      cases entry with
      | directory => cases failed
      | file content =>
        cases content with
        | text s => cases failed
        | binary => cases failed
    · intro failed
      cases failed

end Workspace

/-! ### Files one by one -/

/-- What the rules find in a file. In one that cannot be read they find nothing. -/
def fileFindings (workspace : Workspace) (rules : List Rule) (path : Path) : List Finding :=
  match workspace.text path with
  | .ok content => (inspectText rules path.text content).value
  | .error _ => []

theorem fileFindings_nil (workspace : Workspace) (path : Path) :
    fileFindings workspace [] path = [] := by
  unfold fileFindings
  split
  · rfl
  · rfl

theorem file_of_mem_fileFindings {workspace : Workspace} {rules : List Rule} {path : Path}
    {finding : Finding} (found : finding ∈ fileFindings workspace rules path) :
    finding.file = path.text := by
  unfold fileFindings at found
  split at found
  · obtain ⟨rule, _, hits, _, hit, _, rfl⟩ := mem_inspectText.mp found
    rfl
  · cases found

theorem inspectFiles_cons_ofPath (workspace : Workspace) (rules : List Rule) {path : Path}
    (clean : path.holdsNull = false) (rest : List GivenPath) :
    (inspectFiles workspace rules (.ofPath path :: rest)).value =
      (inspectFiles workspace rules rest).value.map (fileFindings workspace rules path ++ ·) := by
  rw [inspectFiles, GivenPath.path?_ofPath, fileFindings]
  dsimp only
  have unchanged : (inspectFiles workspace rules rest).value =
      (inspectFiles workspace rules rest).value.map ([] ++ ·) := by
    cases (inspectFiles workspace rules rest).value with
    | error failure => rfl
    | ok found => rfl
  cases read : workspace.text path with
  | ok content => rfl
  | error fault =>
    cases fault with
    | nullCharacter =>
      rw [Workspace.text_eq_nullCharacter_iff, clean] at read
      cases read
    | _ => exact unchanged

theorem inspectFiles_value {workspace : Workspace} {rules : List Rule} {paths : List Path}
    (clean : ∀ path ∈ paths, path.holdsNull = false) :
    (inspectFiles workspace rules (paths.map .ofPath)).value =
      .ok (paths.flatMap (fileFindings workspace rules)) := by
  induction paths with
  | nil => rfl
  | cons path rest ih =>
    rw [List.map_cons, inspectFiles_cons_ofPath workspace rules (clean path List.mem_cons_self),
      ih fun other later => clean other (List.mem_cons_of_mem _ later), List.flatMap_cons]
    rfl

/-- The first path without an encoding breaks the inspection off. -/
theorem inspectFiles_of_unencodable {workspace : Workspace} {rules : List Rule} {before : List Path}
    (clean : ∀ path ∈ before, path.holdsNull = false) {given : GivenPath}
    (halved : given.path? = none) (after : List GivenPath) :
    (inspectFiles workspace rules (before.map .ofPath ++ given :: after)).value =
      .error given.encodingFailure := by
  induction before with
  | nil =>
    rw [List.map_nil, List.nil_append, inspectFiles, halved]
    rfl
  | cons path rest ih =>
    rw [List.map_cons, List.cons_append,
      inspectFiles_cons_ofPath workspace rules (clean path List.mem_cons_self),
      ih fun other later => clean other (List.mem_cons_of_mem _ later)]
    rfl

theorem exists_error_inspectFiles {workspace : Workspace} {rules : List Rule}
    {paths : List GivenPath} (unusable : ∃ path ∈ paths, path.isUnusable = true) :
    ∃ failure, (inspectFiles workspace rules paths).value = .error failure := by
  induction paths with
  | nil =>
    obtain ⟨_, listed, _⟩ := unusable
    cases listed
  | cons given rest ih =>
    cases spelled : given.path? with
    | none =>
      rw [inspectFiles, spelled]
      exact ⟨_, rfl⟩
    | some path =>
      obtain rfl := GivenPath.path?_eq_some_iff.mp spelled
      cases null : path.holdsNull with
      | true =>
        rw [inspectFiles, spelled]
        dsimp only
        rw [(workspace.text_eq_nullCharacter_iff path).mpr null]
        exact ⟨_, rfl⟩
      | false =>
        obtain ⟨failure, broken⟩ := ih (by simpa [GivenPath.isUnusable_ofPath, null] using unusable)
        rw [inspectFiles_cons_ofPath workspace rules null, broken]
        exact ⟨failure, rfl⟩

theorem exists_files_of_usable {paths : List GivenPath}
    (usable : ∀ given ∈ paths, given.isUnusable = false) :
    ∃ files : List Path, paths = files.map .ofPath ∧ ∀ path ∈ files, path.holdsNull = false := by
  induction paths with
  | nil => exact ⟨[], rfl, nofun⟩
  | cons given rest ih =>
    obtain ⟨files, rfl, clean⟩ := ih fun other later => usable other (List.mem_cons_of_mem _ later)
    have first := usable given List.mem_cons_self
    cases spelled : given.path? with
    | none =>
      rw [GivenPath.isUnusable, spelled] at first
      cases first
    | some path =>
      obtain rfl := GivenPath.path?_eq_some_iff.mp spelled
      rw [GivenPath.isUnusable_ofPath] at first
      exact ⟨path :: files, rfl, List.forall_mem_cons.mpr ⟨first, clean⟩⟩

theorem filterMap_path?_map (files : List Path) :
    (files.map GivenPath.ofPath).filterMap GivenPath.path? = files := by
  rw [List.filterMap_map, show GivenPath.path? ∘ GivenPath.ofPath = some from
    funext GivenPath.path?_ofPath, List.filterMap_some]

/-- One path that no file can have breaks the whole inspection off. -/
theorem handedOver_inspectFiles_eq_ite (workspace : Workspace) (rules : List Rule)
    (paths : List GivenPath) :
    handedOver (inspectFiles workspace rules paths).value =
      if paths.any GivenPath.isUnusable then []
      else (paths.filterMap GivenPath.path?).flatMap (fileFindings workspace rules) := by
  by_cases unusable : paths.any GivenPath.isUnusable = true
  · obtain ⟨failure, broken⟩ := exists_error_inspectFiles (List.any_eq_true.mp unusable)
    rw [if_pos unusable, broken]
    rfl
  · obtain ⟨files, rfl, clean⟩ := exists_files_of_usable (by simpa using unusable)
    rw [if_neg unusable, inspectFiles_value clean, filterMap_path?_map]
    rfl

/-- What is handed over of some paths is what is found in each of them, if all of them can be paths
or none can. -/
theorem handedOver_inspectFiles {workspace : Workspace} {rules : List Rule} {paths : List Path}
    {null : Bool} (uniform : ∀ path ∈ paths, path.holdsNull = null) :
    handedOver (inspectFiles workspace rules (paths.map .ofPath)).value =
      paths.flatMap (fileFindings workspace rules) := by
  rw [handedOver_inspectFiles_eq_ite, filterMap_path?_map]
  split
  · next some_ =>
    obtain ⟨_, listed, holds⟩ := List.any_eq_true.mp some_
    obtain ⟨other, given, rfl⟩ := List.mem_map.mp listed
    rw [GivenPath.isUnusable_ofPath] at holds
    refine (List.flatMap_eq_nil_iff.mpr ?_).symm
    intro path member
    have unread : workspace.text path = .error .nullCharacter := by
      rw [workspace.text_eq_nullCharacter_iff, uniform path member, ← uniform other given, holds]
    rw [fileFindings, unread]
  · rfl

theorem selectComponents_some {git : Git} {root : Path} {paths : List GivenPath}
    (nonempty : paths ≠ []) :
    (selectComponents git root (some paths)).value = .ok (givenComponents root paths) := by
  cases paths with
  | nil => exact absurd rfl nonempty
  | cons first rest => rfl

theorem inspectProject_value {workspace : Workspace} {git : Git} {root : Path} {framework : String}
    {catalog : Catalog} {paths : Option (List GivenPath)} {files : List GivenPath}
    (selected : (selectComponents git root paths).value = .ok files) :
    (inspectProject workspace git root framework catalog paths).value =
      if catalog.applicable framework = [] then .ok []
      else (inspectFiles workspace (catalog.applicable framework) files).value := by
  unfold inspectProject
  split
  · next none =>
    rw [if_pos none]
    rfl
  · next some_ =>
    rw [if_neg some_]
    simp only [bind, selected]

/-- What the rules of a catalog find in selected files. Without rules nothing is looked for, and
nothing would be found. -/
theorem handedOver_inspectProject_of_selected (workspace : Workspace) (git : Git) (root : Path)
    (framework : String) (catalog : Catalog) {paths : Option (List GivenPath)}
    {files : List GivenPath} (selected : (selectComponents git root paths).value = .ok files) :
    handedOver (inspectProject workspace git root framework catalog paths).value =
      handedOver (inspectFiles workspace (catalog.applicable framework) files).value := by
  rw [inspectProject_value selected]
  split
  · next none =>
    rw [none, handedOver_inspectFiles_eq_ite]
    split
    · rfl
    · exact (List.flatMap_eq_nil_iff.mpr fun path _ => fileFindings_nil workspace path).symm
  · rfl

theorem handedOver_inspectProject_of_unselected (workspace : Workspace) (git : Git) (root : Path)
    (framework : String) (catalog : Catalog) {paths : Option (List GivenPath)} {failure : Failure}
    (unselected : (selectComponents git root paths).value = .error failure) :
    handedOver (inspectProject workspace git root framework catalog paths).value = [] := by
  unfold inspectProject
  split
  · rfl
  · simp only [bind, unselected]
    rfl

end Checkup
