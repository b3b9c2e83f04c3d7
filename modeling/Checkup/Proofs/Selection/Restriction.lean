import Checkup.Proofs.Path.Names
import Checkup.Proofs.Report.Files
import Checkup.Proofs.Selection.Files

/-!
# Examining a part of a project

Some of the files that git lists may be given by name. What is found in them then is what an
examination of the whole project finds in them, in the same order: `examine_of_given` shows it for
every list of names, in any order and with repetitions. The files are selected in different ways and
come in different orders, but each keeps its own part of the report.
-/

namespace Checkup

/-! ### Names of components -/

/-- A name whose last part has the ending of a component, and something other than dots before. -/
def IsComponentName (name : String) : Prop :=
  ∃ stem : List Char,
    (Text.pieces '/' name.toList).getLast? = some (stem ++ componentSuffix.toList) ∧
      ∃ c ∈ stem, c ≠ '.'

theorem nameSuffix_append {stem : List Char} (nonempty : stem ≠ []) :
    Path.nameSuffix '.' (stem ++ componentSuffix.toList) = componentSuffix.toList := by
  have reversed : (stem ++ componentSuffix.toList).reverse =
      'e' :: 'u' :: 'v' :: '.' :: stem.reverse := by
    rw [List.reverse_append]
    rfl
  unfold Path.nameSuffix
  rw [reversed]
  have before : stem.reverse.isEmpty = false := by
    rw [List.isEmpty_reverse, List.isEmpty_eq_false_iff]
    exact nonempty
  show (if stem.reverse.isEmpty || _ then [] else _) = _
  rw [before]
  rfl

theorem suffix_of_component {name : String} (plain : Path.IsPlain name)
    (component : IsComponentName name) : (Path.ofString name).suffix = componentSuffix := by
  obtain ⟨stem, last, c, inStem, _⟩ := component
  rw [Path.suffix, Path.ofString_of_relative plain.2, List.getLast?_map, last, Option.map_some,
    Option.getD_some, String.toList_ofList, nameSuffix_append (List.ne_nil_of_mem inStem),
    String.ofList_toList]

theorem closes_of_component {name : String} (component : IsComponentName name) :
    Text.closes componentSuffix name.toList = true := by
  obtain ⟨stem, last, _⟩ := component
  rw [Text.closes, List.isSuffixOf_iff_suffix]
  exact (List.suffix_append stem _).trans (Text.suffix_of_getLast?_pieces last)

theorem holdsNull_join_of_plain {root : Path} {name : String} (plain : Path.IsPlain name) :
    (root.join (.ofString name)).holdsNull = root.holdsNull := by
  have clean : (Path.ofString name).holdsNull = false := by
    rw [Path.ofString_of_relative plain.2, Path.holdsNull, List.any_eq_false]
    intro part member
    obtain ⟨piece, cut, rfl⟩ := List.mem_map.mp member
    rw [String.toList_ofList, List.contains_iff_mem]
    intro null
    exact plain.1 (Text.mem_of_mem_pieces cut null).1
  have relative : ¬(Path.ofString name).isAbsolute := by
    rw [Path.ofString_of_relative plain.2]
    exact Bool.false_ne_true
  rw [Path.holdsNull_join, if_neg relative, clean, Bool.or_false]

/-! ### Selected files -/

section

variable {workspace : Workspace} {git : Git} {root : Path}

/-- Given paths of characters are selected by their suffixes alone. -/
theorem givenComponents_map (root : Path) (paths : List Path) :
    givenComponents root (paths.map .ofPath) =
      ((paths.filter fun path => path.suffix = componentSuffix).map root.join).map .ofPath := by
  have suffixes : paths.filter ((fun given : GivenPath =>
      given.suffix = CodeText.ofString componentSuffix) ∘ GivenPath.ofPath) =
        paths.filter fun path => path.suffix = componentSuffix := by
    refine List.filter_congr fun path _ => ?_
    simp only [Function.comp_apply, GivenPath.suffix_ofPath, CodeText.ofString_inj]
  rw [givenComponents, List.filter_map, suffixes, List.map_map, List.map_map]
  exact List.map_congr_left fun path _ => GivenPath.join_ofPath root path

/-- The files of some names, in order. -/
def filesOf (root : Path) (names : List String) : List GivenPath :=
  names.map fun name => .ofPath (root.join (.ofString name))

theorem filesOf_eq_map (root : Path) (names : List String) :
    filesOf root names = (names.map fun name => root.join (.ofString name)).map .ofPath := by
  rw [filesOf, List.map_map]
  rfl

theorem selectComponents_map {given : List String} (nonempty : given ≠ []) :
    (selectComponents git root (some (given.map .ofString))).value = .ok (filesOf root
      (given.filter fun name => (Path.ofString name).suffix = componentSuffix)) := by
  have spelled : given.map GivenPath.ofString = (given.map Path.ofString).map .ofPath := by
    rw [List.map_map]
    rfl
  rw [selectComponents_some (by simpa using nonempty), spelled, givenComponents_map,
    List.filter_map]
  simp only [List.map_map, filesOf, Function.comp_def]

theorem selectComponents_given {given : List String} (nonempty : given ≠ [])
    (components : ∀ name ∈ given, Path.IsPlain name ∧ IsComponentName name) :
    (selectComponents git root (some (given.map .ofString))).value = .ok (filesOf root given) := by
  have all : given.filter (fun name => (Path.ofString name).suffix = componentSuffix) = given := by
    refine List.filter_eq_self.mpr ?_
    intro name listed
    obtain ⟨plain, component⟩ := components name listed
    rw [decide_eq_true_iff]
    exact suffix_of_component plain component
  rw [selectComponents_map nonempty, all]

theorem selectComponents_listed (root : Path) {names : List String}
    (listed : Git.listing .inventory (git.answer .inventory) = .ok names) :
    (selectComponents git root none).value = .ok (filesOf root
      (names.filter fun name => Text.closes componentSuffix name.toList)) := by
  unfold selectComponents
  simp only [Option.getD_none, Git.ask, bind, listed]
  rw [filesOf_eq_map]
  rfl

theorem handedOver_inspectProject (workspace : Workspace) (framework : String) (catalog : Catalog)
    {paths : Option (List GivenPath)} {names : List String}
    (selected : (selectComponents git root paths).value = .ok (filesOf root names))
    (plain : ∀ name ∈ names, Path.IsPlain name) :
    handedOver (inspectProject workspace git root framework catalog paths).value =
      names.flatMap fun name =>
        fileFindings workspace (catalog.applicable framework) (root.join (.ofString name)) := by
  have uniform : ∀ path ∈ names.map fun name => root.join (.ofString name),
      path.holdsNull = root.holdsNull := by
    intro path member
    obtain ⟨name, listed, rfl⟩ := List.mem_map.mp member
    exact holdsNull_join_of_plain (plain name listed)
  rw [handedOver_inspectProject_of_selected _ _ _ _ _ selected, filesOf_eq_map,
    handedOver_inspectFiles uniform, List.flatMap_map]

/-! ### Examinations -/

/-- What is found in a named file of a project. -/
def namedFindings (workspace : Workspace) (root : Path) (request : Request) (project : Project)
    (settings : Option Settings) (name : String) : List Finding :=
  fileFindings workspace ((request.activeCatalog settings).value.applicable project.framework)
    (root.join (.ofString name))

theorem relativeFile_of_mem_namedFindings (absolute : root.slashes = 1)
    (settled : Path.Settled root.parts) {request : Request} {project : Project}
    {settings : Option Settings} {name : String} (plain : Path.IsPlain name) {finding : Finding}
    (found : finding ∈ namedFindings workspace root request project settings name) :
    Finding.relativeFile root finding.file = name := by
  have opens : Text.opens "/" (root.join (.ofString name)).text.toList = true := by
    rw [Path.join_of_plain root plain, absolute, Path.toList_text]
    rfl
  rw [file_of_mem_fileFindings found, Finding.relativeFile, if_pos opens,
    Path.relativeText_join absolute settled plain]

/-- Without other analyzers, an examination reports what is found in the selected files. -/
theorem findings_examineUnder_of_selected {request : Request} (alone : request.analyzers = [])
    (project : Project) (settings : Option Settings) {paths : Option (List GivenPath)}
    {names : List String}
    (selected : (selectComponents git root (scope paths)).value = .ok (filesOf root names))
    (plain : ∀ name ∈ names, Path.IsPlain name) :
    (examineUnder workspace git root { request with paths } project settings).value.findings =
      Report.combine root (Settings.suppressionOf settings)
        [if (request.plan settings).lint then
          names.flatMap (namedFindings workspace root request project settings) else []] := by
  have handed := handedOver_inspectProject workspace project.framework
    (request.activeCatalog settings).value selected plain
  rw [findings_examineUnder_of_alone _ _ _ { request with paths } _ _ alone]
  exact congrArg (fun found => Report.combine root _
    [if (request.plan settings).lint then found else []]) handed

theorem scope_some {paths : List GivenPath} (nonempty : paths ≠ []) :
    scope (some paths) = some paths := by
  cases paths with
  | nil => exact absurd rfl nonempty
  | cons first rest => rfl

theorem findings_examineUnder_of_given (absolute : root.slashes = 1)
    (settled : Path.Settled root.parts) {request : Request} (alone : request.analyzers = [])
    (project : Project) (settings : Option Settings) {names given : List String}
    (listed : Git.listing .inventory (git.answer .inventory) = .ok names)
    (plain : ∀ name ∈ names, Path.IsPlain name) (nonempty : given ≠ [])
    (components : ∀ name ∈ given, name ∈ names ∧ IsComponentName name) :
    (examineUnder workspace git root { request with paths := some (given.map .ofString) }
        project settings).value.findings =
      (examineUnder workspace git root { request with paths := none }
        project settings).value.findings.filter fun finding => finding.file ∈ given := by
  have selectedGiven : (selectComponents git root (scope (some (given.map .ofString)))).value =
      .ok (filesOf root given) := by
    rw [scope_some (by simpa using nonempty)]
    refine selectComponents_given nonempty ?_
    intro name member
    obtain ⟨inNames, component⟩ := components name member
    exact ⟨plain name inNames, component⟩
  have selectedAll := selectComponents_listed root listed
  generalize same : (names.filter fun name => Text.closes componentSuffix name.toList) = all
    at selectedAll
  have subset : given ⊆ all := by
    intro name member
    obtain ⟨inNames, component⟩ := components name member
    rw [← same]
    exact List.mem_filter.mpr ⟨inNames, closes_of_component component⟩
  have plainAll : ∀ name ∈ all, Path.IsPlain name := by
    intro name member
    rw [← same] at member
    exact plain name (List.mem_filter.mp member).1
  rw [findings_examineUnder_of_selected alone project settings selectedGiven fun name member =>
      plainAll name (subset member),
    findings_examineUnder_of_selected alone project settings selectedAll plainAll]
  cases (request.plan settings).lint with
  | false =>
    have nothing : Report.combine root (Settings.suppressionOf settings) [[]] = [] :=
      List.mergeSort_nil
    show Report.combine root _ [[]] = (Report.combine root _ [[]]).filter _
    rw [nothing]
    rfl
  | true =>
    refine Report.combine_flatMap_of_subset subset ?_ _
    intro name member finding found
    exact relativeFile_of_mem_namedFindings absolute settled (plainAll name member) found

end

/-- An examination of some listed components reports what an examination of the whole project
reports on them. -/
theorem examine_of_given (workspace : Workspace) (git : Git) (directory target : String)
    (request : Request) (alone : request.analyzers = []) {names given : List String}
    (listed : Git.listing .inventory (git.answer .inventory) = .ok names)
    (plain : ∀ name ∈ names, Path.IsPlain name) (nonempty : given ≠ [])
    (components : ∀ name ∈ given, name ∈ names ∧ IsComponentName name) :
    let root := Path.resolve (.ofString directory) (.ofString target)
    (examine workspace git root
        { request with paths := some (given.map .ofString) }).value.map Diagnosis.findings =
      (examine workspace git root { request with paths := none }).value.map fun diagnosis =>
        diagnosis.findings.filter fun finding => finding.file ∈ given := by
  intro root
  have settled : Path.Settled root.parts := Path.settled_resolve directory target
  rw [examine_value, examine_value]
  cases (Project.discover workspace git root).value with
  | error breakdown => rfl
  | ok project =>
    dsimp only
    by_cases vue : project.vueVersion.isNone = true
    · rw [if_pos vue, if_pos vue]
      rfl
    · rw [if_neg vue, if_neg vue]
      cases (usableSettings workspace root request.settingsFile).value with
      | error breakdown => rfl
      | ok settings =>
        exact congrArg Except.ok (findings_examineUnder_of_given rfl settled alone project settings
          listed plain nonempty components)

/-- A project with two components, in each of which something is found. -/
def twoComponents : Workspace :=
  ⟨fun location =>
    if location ∈ [["proj"], ["proj", "src"]] then some .directory
    else if location = ["proj", "package.json"] then
      some (.file (.text "\x7b\"dependencies\": \x7b\"vue\": \"^3.4.0\"\x7d\x7d"))
    else if location ∈ [["proj", "App.vue"], ["proj", "src", "List.vue"]] then
      some (.file (.text "<script setup>\nconst \x7b id \x7d = props\n</script>"))
    else none⟩

/-- The project is examined as a whole, or the second component alone, which is given twice. -/
theorem examine_of_repeated :
    let git : Git := ⟨fun _ => .output "App.vue\nsrc/List.vue\n"⟩
    let root := Path.resolve (.ofString "/") (.ofString "proj")
    let given := ["src/List.vue", "src/List.vue"]
    (examine twoComponents git root { paths := none }).value.toOption.isSome = true ∧
      (examine twoComponents git root
          { paths := some (given.map .ofString) }).value.map Diagnosis.findings =
        (examine twoComponents git root { paths := none }).value.map fun diagnosis =>
          diagnosis.findings.filter fun finding => finding.file ∈ given := by
  intro git root given
  have component : IsComponentName "src/List.vue" :=
    ⟨"List".toList, by decide, 'L', by decide, by decide⟩
  refine ⟨by decide +kernel, ?_⟩
  refine examine_of_given twoComponents git "/" "proj" {} rfl
    (show Git.listing .inventory _ = .ok ["App.vue", "src/List.vue"] from rfl)
    (by decide +kernel) (List.cons_ne_nil _ _) ?_
  intro name member
  obtain rfl : name = "src/List.vue" := by simpa [given] using member
  exact ⟨by decide, component⟩

end Checkup
