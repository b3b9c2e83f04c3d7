import Checkup.Proofs.Selection.Files

/-!
# Failures stay local

A file that cannot be read contributes nothing to an inspection, and neither does a rule that breaks
down in a file, as far as that file is concerned. All other rules contribute what they find in all
other files, whatever failed before them: an inspection of given paths is put together from what
each rule contributes at each path. Only a component whose path has no encoding fails the whole
inspection (`inspectProject_of_given`).
-/

namespace Checkup

/-- What a rule contributes at a path, by what stands there and by how the rule's check ends. -/
inductive Contributes (workspace : Workspace) (rule : Rule) (path : Path) :
    List Finding → Prop where
  | unfound {fault : PathFault} :
      workspace.find path = .error fault → Contributes workspace rule path []
  | directory {location : Location} :
      workspace.find path = .ok (location, .directory) → Contributes workspace rule path []
  | binary {location : Location} :
      workspace.find path = .ok (location, .file .binary) → Contributes workspace rule path []
  | broken {location : Location} {s : String} {failure : Failure} :
      workspace.find path = .ok (location, .file (.text s)) →
      rule.check.hits (.ofText (Text.unifyNewlines s.toList)) = .error failure →
      Contributes workspace rule path []
  | found {location : Location} {s : String} {hits : List Hit} :
      workspace.find path = .ok (location, .file (.text s)) →
      rule.check.hits (.ofText (Text.unifyNewlines s.toList)) = .ok hits →
      Contributes workspace rule path (hits.map fun hit =>
        { file := path.text
          plugin := "vue-doctor"
          rule := rule.id
          severity := rule.severity
          message := hit.message.getD rule.message
          help := rule.help
          line := hit.line
          column := hit.column
          category := rule.category })

section

variable {workspace : Workspace} {path : Path}

theorem fileFindings_singleton {rule : Rule} : fileFindings workspace [rule] path =
    match workspace.find path with
    | .ok (_, .file (.text s)) =>
      match rule.check.hits (.ofText (Text.unifyNewlines s.toList)) with
      | .ok hits => hits.map (rule.finding path.text)
      | .error _ => []
    | _ => [] := by
  unfold fileFindings Workspace.text Workspace.rawText Workspace.content
  cases workspace.find path with
  | error fault => rfl
  | ok found =>
    obtain ⟨location, entry⟩ := found
    cases entry with
    | directory => rfl
    | file content =>
      cases content with
      | binary => rfl
      | text s =>
        show (inspectText [rule] path.text _).value = _
        rw [inspectText, Journaled.collect, List.flatMap_singleton, Rule.inspect]
        dsimp only
        cases rule.check.hits (.ofText (Text.unifyNewlines s.toList)) with
        | error failure => rfl
        | ok hits => rfl

theorem contributes_iff {rule : Rule} {contributed : List Finding} :
    Contributes workspace rule path contributed ↔
      contributed = fileFindings workspace [rule] path := by
  rw [fileFindings_singleton]
  constructor
  · intro contributes
    cases contributes with
    | unfound stands => rw [stands]
    | directory stands => rw [stands]
    | binary stands => rw [stands]
    | broken stands checked => simp only [stands, checked]
    | found stands checked =>
      simp only [stands, checked]
      rfl
  · rintro rfl
    split
    · next stands =>
      split
      · next checked => exact .found stands checked
      · next checked => exact .broken stands checked
    · next other =>
      cases stands : workspace.find path with
      | error fault => exact .unfound stands
      | ok found =>
        obtain ⟨location, entry⟩ := found
        cases entry with
        | directory => exact .directory stands
        | file content =>
          cases content with
          | binary => exact .binary stands
          | text s => exact absurd stands (other _ _)

theorem fileFindings_eq_flatMap (rules : List Rule) :
    fileFindings workspace rules path =
      rules.flatMap fun rule => fileFindings workspace [rule] path := by
  unfold fileFindings
  cases workspace.text path with
  | error fault => exact (List.flatMap_eq_nil_iff.mpr fun _ _ => rfl).symm
  | ok content =>
    refine List.flatMap_congr ?_
    intro rule _
    exact (List.flatMap_singleton _ _).symm

end

/-- An inspection of given paths without null characters. Where the components among them have
characters only, it finds what each rule contributes at each of them, path by path and rule by rule.
Half of a surrogate pair in the path of a component fails the whole inspection, unless no rule is
applied. -/
theorem inspectProject_of_given (workspace : Workspace) (git : Git) {root : Path}
    (framework : String) (catalog : Catalog) {given : List GivenPath} (nonempty : given ≠ [])
    (rooted : root.holdsNull = false) (clean : ∀ path ∈ given, path.holdsNull = false) :
    let components := (given.filter fun path => path.suffix = CodeText.ofString ".vue").map
      (GivenPath.join root)
    let rules := catalog.rules.filter fun rule => rule.appliesTo framework
    let inspected := (inspectProject workspace git root framework catalog (some given)).value
    ∃ contribution : Path → Rule → List Finding,
      (∀ path rule contributed, Contributes workspace rule path contributed ↔
          contributed = contribution path rule) ∧
        (∀ files : List Path, components = files.map .ofPath →
          inspected = .ok (files.flatMap fun path => rules.flatMap (contribution path))) ∧
        (rules ≠ [] → ∀ (before : List Path) (halved : GivenPath) (after : List GivenPath),
          components = before.map .ofPath ++ halved :: after → (∀ path, halved ≠ .ofPath path) →
            inspected = .error halved.encodingFailure) ∧
        (rules = [] → inspected = .ok []) := by
  intro components rules inspected
  have selected : inspected =
      if rules = [] then .ok [] else (inspectFiles workspace rules components).value :=
    inspectProject_value (selectComponents_some nonempty)
  have cleanComponents : ∀ path ∈ components, path.holdsNull = false := by
    intro path member
    obtain ⟨item, kept, rfl⟩ := List.mem_map.mp member
    rw [GivenPath.holdsNull_join, rooted, clean item (List.mem_filter.mp kept).1]
    exact ite_self false
  have cleanFiles : ∀ files : List Path, (∀ path ∈ files, .ofPath path ∈ components) →
      ∀ path ∈ files, path.holdsNull = false := by
    intro files among path member
    rw [← GivenPath.holdsNull_ofPath]
    exact cleanComponents _ (among path member)
  refine ⟨fun path rule => fileFindings workspace [rule] path, fun _ _ _ => contributes_iff,
    ?_, ?_, ?_⟩
  · intro files spelled
    have cleaned := cleanFiles files fun path member => spelled ▸ List.mem_map_of_mem member
    rw [selected]
    split
    · next none => simp [none]
    · rw [spelled, inspectFiles_value cleaned]
      exact congrArg Except.ok (List.flatMap_congr fun path _ => fileFindings_eq_flatMap rules)
  · intro some_ before halved after spelled unencodable
    have cleaned := cleanFiles before fun path member =>
      spelled ▸ List.mem_append_left _ (List.mem_map_of_mem member)
    rw [selected, if_neg some_, spelled]
    exact inspectFiles_of_unencodable cleaned (GivenPath.path?_eq_none_iff.mpr unencodable) after
  · intro none
    rw [selected, if_pos none]

/-- A component, a file that is not a text, and a directory with the name of a component. -/
def unevenProject : Workspace :=
  ⟨fun location =>
    if location = ["proj"] ∨ location = ["proj", "Empty.vue"] then some .directory
    else if location = ["proj", "Image.vue"] then some (.file .binary)
    else if location = ["proj", "App.vue"] then
      some (.file (.text "<script setup>\r\nconst \x7b id \x7d = props\r\n</script>"))
    else none⟩

/-- A rule whose check always breaks down. -/
def brokenRule : Rule :=
  { id := "broken", severity := .error, category := "Other", message := "never reported", help := ""
    check := .predicate .script fun _ _ _ => .error ⟨"RuntimeError", "boom"⟩ }

/-- A rule for one framework that objects to the first line of every component. -/
def localRule (framework : String) : Rule :=
  { id := "only-" ++ framework, severity := .warning, category := "Other", message := "m"
    help := ""
    frameworks := some [framework]
    check := .predicate .file fun _ _ _ => .ok [{ line := 1, message := some "first" }] }

/-- The component is given twice, among what cannot be read. The broken rule comes first, and of two
rules for one framework each only one is applied. -/
theorem inspectProject_of_uneven :
    let root : Path := ⟨1, ["proj"]⟩
    let catalog : Catalog :=
      ⟨[brokenRule, localRule "nuxt3", localRule "vite"] ++ Rule.reactivity, by decide⟩
    let given := ["Missing.vue", "App.vue", "main.ts", "Image.vue", "/proj/App.vue",
      "Empty.vue"].map GivenPath.ofString
    let files := ["Missing.vue", "App.vue", "Image.vue", "App.vue", "Empty.vue"].map fun name =>
      root.join (.ofString name)
    let rules := catalog.rules.filter fun rule => rule.appliesTo "vite"
    let inspected := (inspectProject unevenProject ⟨fun _ => .failed ""⟩ root "vite" catalog
      (some given)).value
    root.holdsNull = false ∧ (∀ path ∈ given, path.holdsNull = false) ∧
      (∃ found, inspected = .ok found ∧ found.map (fun finding => (finding.rule, finding.line)) =
        [("only-vite", 1), ("reactivity-destructure-props", 2),
          ("only-vite", 1), ("reactivity-destructure-props", 2)]) ∧
      ∃ contribution : Path → Rule → List Finding,
        (∀ path rule contributed, Contributes unevenProject rule path contributed ↔
            contributed = contribution path rule) ∧
          inspected = .ok (files.flatMap fun path => rules.flatMap (contribution path)) := by
  intro root catalog given files rules inspected
  have rooted : root.holdsNull = false := by decide
  have clean : ∀ path ∈ given, path.holdsNull = false := by decide +kernel
  have spelled : (given.filter fun path => path.suffix = CodeText.ofString ".vue").map
      (GivenPath.join root) = files.map .ofPath := by decide +kernel
  have lines : inspected.toOption.map (List.map fun finding => (finding.rule, finding.line)) =
      some [("only-vite", 1), ("reactivity-destructure-props", 2),
        ("only-vite", 1), ("reactivity-destructure-props", 2)] := by
    decide +kernel
  obtain ⟨contribution, contributes, composed, -, -⟩ := inspectProject_of_given unevenProject
    ⟨fun _ => .failed ""⟩ "vite" catalog (List.cons_ne_nil _ _) rooted clean
  have found : inspected = .ok _ := composed files spelled
  rw [found] at lines
  exact ⟨rooted, clean, ⟨_, found, Option.some.inj lines⟩, contribution, contributes, found⟩

/-- A component at the root whose name begins with half of a surrogate pair. -/
def halvedComponent : GivenPath where
  slashes := 1
  parts := [⟨.half ⟨0, by decide⟩ :: ".vue".toList.map .char⟩]
  textual := by decide

/-- Such a component is not passed over like one that is missing. -/
theorem inspectProject_of_halved_component :
    let inspected := (inspectProject .empty ⟨fun _ => .failed ""⟩ ⟨1, ["proj"]⟩ "nuxt3" .builtin
      (some [halvedComponent])).value
    halvedComponent.holdsNull = false ∧ inspected = .error ⟨"UnicodeEncodeError",
      "'utf-8' codec can't encode character '\\ud800' in position 1: surrogates not allowed"⟩ := by
  intro inspected
  refine ⟨by decide, ?_⟩
  have applied : Catalog.builtin.applicable "nuxt3" ≠ [] := by decide +kernel
  have components : givenComponents ⟨1, ["proj"]⟩ [halvedComponent] = [halvedComponent] := by
    decide +kernel
  have selected : (selectComponents ⟨fun _ => .failed ""⟩ ⟨1, ["proj"]⟩
      (some [halvedComponent])).value = .ok [halvedComponent] := by
    rw [selectComponents_some (List.cons_ne_nil _ _), components]
  show (inspectProject .empty _ _ _ _ _).value = _
  rw [inspectProject_value selected, if_neg applied]
  rfl

end Checkup
