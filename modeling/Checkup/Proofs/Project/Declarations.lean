import Checkup.Project
import Checkup.Proofs.Git.Changes
import Checkup.Proofs.Workspace.Limits

/-!
# What a manifest declares

Three sections of a manifest may declare a dependency, and the last of them counts
(`lookup_dependencies`). A project is described whatever its manifest holds, and it has a version of
a framework exactly if the manifest declares one (`exists_discover`).
-/

namespace Checkup

/-! ### Declared dependencies -/

namespace Manifest

/-- What the sections of a manifest declare for a dependency. The last one counts. -/
def declarations (manifest : Table) (dependency : String) : List Value :=
  ["peerDependencies", "dependencies", "devDependencies"].filterMap fun name =>
    match manifest.get? (CodeText.ofString name) with
    | some (.table entries) => Table.get? entries (CodeText.ofString dependency)
    | _ => none

/-- The file at a path is a readable manifest with these entries. -/
def Spells (workspace : Workspace) (path : Path) (entries : Table) : Prop :=
  ∃ text, workspace.text path = .ok text ∧ Json.read text = .ok (.table entries)

/-- The manifest of a project declares the dependency, and this value counts. -/
def Declares (workspace : Workspace) (root : Path) (dependency : String) (value : Value) : Prop :=
  ∃ entries, Spells workspace (root.join (.ofString fileName)) entries ∧
    (declarations entries dependency).getLast? = some value

theorem lookup_flatMap {α β γ : Type} [BEq β] (items : List α) (entries : α → List (β × γ))
    (key : β) :
    (items.flatMap entries).lookup key = items.findSome? fun item => (entries item).lookup key := by
  induction items with
  | nil => rfl
  | cons item rest ih =>
    rw [List.flatMap_cons, List.lookup_append, ih, List.findSome?_cons]
    cases (entries item).lookup key with
    | none => rfl
    | some found => rfl

theorem lookup_map_display (entries : Table) (key : CodeText) :
    (entries.map fun (dependency, version) => (dependency, version.display)).lookup key =
      (entries.lookup key).map Value.display := by
  induction entries with
  | nil => rfl
  | cons entry rest ih =>
    obtain ⟨name, value⟩ := entry
    rw [List.map_cons, List.lookup_cons, List.lookup_cons, ih]
    split
    · rfl
    · rfl

theorem lookup_entriesOf (manifest : Table) (name : String) (key : CodeText) :
    (entriesOf manifest name).lookup key =
      (match manifest.get? (CodeText.ofString name) with
        | some (.table entries) => Table.get? entries key
        | _ => none).map Value.display := by
  unfold entriesOf
  cases manifest.get? (CodeText.ofString name) with
  | none => rfl
  | some value =>
    cases value with
    | table entries => exact lookup_map_display entries key
    | _ => rfl

/-- A name in a later section hides the same in an earlier one. -/
theorem lookup_dependencies (manifest : Table) (dependency : String) :
    (dependencies manifest).lookup (CodeText.ofString dependency) =
      (declarations manifest dependency).getLast?.map Value.display := by
  rw [dependencies, lookup_flatMap, declarations, List.getLast?_filterMap, List.map_findSome?]
  simp only [lookup_entriesOf]
  rfl

theorem read_of_spells {workspace : Workspace} {path : Path} {entries : Table}
    (spelled : Spells workspace path entries) : read workspace path = .ok entries := by
  obtain ⟨text, readable, decoded⟩ := spelled
  rw [read, readable]
  simp only [decoded]

theorem read_of_not_spells {workspace : Workspace} {path : Path}
    (shallow : workspace.IsShallow path) (other : ∀ entries, ¬ Spells workspace path entries) :
    read workspace path = .ok [] := by
  unfold read
  split
  · rfl
  · next text readable =>
    split
    · next entries decoded => exact absurd ⟨text, readable, decoded⟩ (other entries)
    · next deep decoded => exact absurd decoded (shallow.json text readable deep)
    · rfl

/-- A manifest is read, and a dependency has a version in it exactly if it is declared. -/
theorem exists_read (workspace : Workspace) (root : Path)
    (shallow : workspace.IsShallow (root.join (.ofString fileName))) :
    ∃ manifest, read workspace (root.join (.ofString fileName)) = .ok manifest ∧
      ∀ dependency value, Declares workspace root dependency value ↔
        (declarations manifest dependency).getLast? = some value := by
  by_cases spelled : ∃ entries, Spells workspace (root.join (.ofString fileName)) entries
  · obtain ⟨entries, spelled⟩ := spelled
    refine ⟨entries, read_of_spells spelled, ?_⟩
    intro dependency value
    constructor
    · rintro ⟨others, also, last⟩
      have same := (read_of_spells also).symm.trans (read_of_spells spelled)
      rw [Except.ok.injEq] at same
      exact same ▸ last
    · intro last
      exact ⟨entries, spelled, last⟩
  · rw [not_exists] at spelled
    refine ⟨[], read_of_not_spells shallow spelled, ?_⟩
    intro dependency value
    constructor
    · rintro ⟨entries, also, _⟩
      exact absurd also (spelled entries)
    · intro last
      cases last

end Manifest

/-! ### Projects -/

namespace Project

/-- The most bytes that the name of a file has that is looked for in a project's directory. -/
def longestName : Nat := 22

section

variable (workspace : Workspace) {root : Path}

theorem exists_revealed (room : root.LeavesRoom (longestName + 1))
    (dependencies : List (CodeText × CodeText)) (dependency : String) (files : List String)
    (named : ∀ file ∈ files, Path.IsShortName longestName file) :
    ∃ found, Framework.revealed workspace root dependencies dependency files = .ok found := by
  unfold Framework.revealed
  split
  · exact ⟨true, rfl⟩
  · obtain ⟨found, first⟩ := workspace.firstOf_join room (by decide) named
    rw [first]
    exact ⟨found.isSome, rfl⟩

theorem exists_detect (room : root.LeavesRoom (longestName + 1))
    (dependencies : List (CodeText × CodeText)) :
    ∃ framework, Framework.detect workspace root dependencies = .ok framework := by
  have revealed := exists_revealed workspace room dependencies
  unfold Framework.detect
  obtain ⟨nuxt, first⟩ := revealed "nuxt"
    ["nuxt.config.ts", "nuxt.config.js", "nuxt.config.mjs", "nuxt.config.cjs"] (by decide)
  obtain ⟨vite, second⟩ := revealed "vite"
    ["vite.config.ts", "vite.config.js", "vite.config.mjs", "vite.config.cjs"] (by decide)
  obtain ⟨tools, third⟩ := revealed "@vue/cli-service"
    ["vue.config.js", "vue.config.ts", "vue.config.cjs"] (by decide)
  simp only [first, second, third]
  cases nuxt with
  | true => exact ⟨_, rfl⟩
  | false =>
    cases vite with
    | true => exact ⟨_, rfl⟩
    | false =>
      cases tools with
      | true => exact ⟨_, rfl⟩
      | false => exact ⟨_, rfl⟩

theorem exists_describe_of_read (room : root.LeavesRoom (longestName + 1)) {manifest : Table}
    (read : Manifest.read workspace (root.join (.ofString Manifest.fileName)) = .ok manifest) :
    ∃ project, describe workspace root = .ok project ∧ project.vueVersion =
      (Manifest.declarations manifest "vue").getLast?.map Value.display := by
  obtain ⟨framework, detected⟩ := exists_detect workspace room (Manifest.dependencies manifest)
  obtain ⟨typed, found⟩ := workspace.has_join room (by decide)
    (show Path.IsShortName longestName "tsconfig.json" by decide)
  unfold describe
  rw [read, found]
  simp only [Breakdown.ofOverflow, Breakdown.ofPath, bind, Except.bind, detected]
  exact ⟨_, rfl, Manifest.lookup_dependencies manifest "vue"⟩

theorem countSources_of_binary {git : Git} (undecoded : git.answer .inventory = .binary) :
    (countSources git root).value = .error .undecoded := by
  simp only [countSources, Git.ask, bind, undecoded]
  rfl

theorem exists_countSources {git : Git} (root : Path)
    (decoded : git.answer .inventory ≠ .binary) :
    ∃ count, (countSources git root).value = .ok count := by
  simp only [countSources, Git.ask, bind]
  cases answer : git.answer .inventory with
  | binary => exact absurd answer decoded
  | output text => exact ⟨_, rfl⟩
  | failed words =>
    obtain ⟨message, listed⟩ := (Git.Answer.Refuses.failed words).exists_listing .inventory
    rw [listed]
    exact ⟨_, rfl⟩
  | unavailable reason => exact ⟨_, rfl⟩

theorem discover_of_describe (git : Git) {project : Project}
    (described : describe workspace root = .ok project) : (discover workspace git root).value =
      (countSources git root).value.map fun count => { project with sourceFiles := count } := by
  rw [discover, described]
  rfl

theorem discover_of_binary {git : Git} (undecoded : git.answer .inventory = .binary)
    (room : root.LeavesRoom (longestName + 1)) {manifest : Table}
    (read : Manifest.read workspace (root.join (.ofString Manifest.fileName)) = .ok manifest) :
    (discover workspace git root).value = .error .undecoded := by
  obtain ⟨project, described, _⟩ := exists_describe_of_read workspace room read
  rw [discover_of_describe workspace git described, countSources_of_binary undecoded]
  rfl

theorem exists_discover {git : Git} (decoded : git.answer .inventory ≠ .binary)
    (room : root.LeavesRoom (longestName + 1))
    (shallow : workspace.IsShallow (root.join (.ofString Manifest.fileName))) :
    ∃ project, (discover workspace git root).value = .ok project ∧ ∀ version,
      project.vueVersion = some version ↔
        ∃ value, Manifest.Declares workspace root "vue" value ∧ version = value.display := by
  obtain ⟨manifest, read, declares⟩ := Manifest.exists_read workspace root shallow
  obtain ⟨project, described, version⟩ := exists_describe_of_read workspace room read
  obtain ⟨count, counted⟩ := exists_countSources root decoded
  have known := discover_of_describe workspace git described
  rw [counted] at known
  refine ⟨_, known, ?_⟩
  intro written
  show project.vueVersion = some written ↔ _
  simp only [version, declares, Option.map_eq_some_iff, @eq_comm _ _ written]

/-- A project whose manifest declares the framework is described, whatever else it holds. -/
theorem exists_discover_of_declared {git : Git} (decoded : git.answer .inventory ≠ .binary)
    (room : root.LeavesRoom (longestName + 1)) {value : Value}
    (declared : Manifest.Declares workspace root "vue" value) :
    ∃ project, (discover workspace git root).value = .ok project ∧
      project.vueVersion = some value.display := by
  obtain ⟨manifest, spelled, last⟩ := declared
  obtain ⟨project, described, version⟩ :=
    exists_describe_of_read workspace room (Manifest.read_of_spells spelled)
  obtain ⟨count, counted⟩ := exists_countSources root decoded
  have known := discover_of_describe workspace git described
  rw [counted] at known
  refine ⟨_, known, ?_⟩
  show project.vueVersion = _
  rw [version, last]
  rfl

end

end Project

end Checkup
