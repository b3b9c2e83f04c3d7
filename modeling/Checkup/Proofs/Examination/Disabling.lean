import Checkup.Proofs.Report.Suppression
import Checkup.Proofs.Rule.Selection
import Checkup.Proofs.Selection.Files

/-!
# Disabling a rule or ignoring it

A rule that is disabled is not applied to any file; of a rule that is ignored the findings are
suppressed. Without other analyzers both come to the same report and health: `examine_of_ignoring`
shows it for any selection of rules, and for ids that are ignored with or without the name under
which the rules report.
-/

namespace Checkup

/-! ### Fewer rules -/

theorem fileFindings_filter (keep : String → Bool) (workspace : Workspace) (rules : List Rule)
    (path : Path) :
    fileFindings workspace (rules.filter fun rule => keep rule.id) path =
      (fileFindings workspace rules path).filter fun finding => keep finding.rule := by
  unfold fileFindings
  split
  · exact inspectText_filter keep rules path.text _
  · rfl

theorem rule_of_mem_fileFindings {workspace : Workspace} {rules : List Rule} {path : Path}
    {finding : Finding} (found : finding ∈ fileFindings workspace rules path) :
    ∃ rule ∈ rules, finding.rule = rule.id ∧ finding.plugin = ruleEngine := by
  unfold fileFindings at found
  split at found
  · obtain ⟨rule, listed, hits, _, hit, _, rfl⟩ := mem_inspectText.mp found
    exact ⟨rule, listed, rfl, rfl⟩
  · cases found

theorem rule_of_mem_inspectProject {workspace : Workspace} {git : Git} {root : Path}
    {framework : String} {catalog : Catalog} {paths : Option (List GivenPath)} {finding : Finding}
    (found : finding ∈
      handedOver (inspectProject workspace git root framework catalog paths).value) :
    ∃ rule ∈ catalog.rules, finding.rule = rule.id ∧ finding.plugin = ruleEngine := by
  cases selection : (selectComponents git root paths).value with
  | error failure =>
    rw [handedOver_inspectProject_of_unselected _ _ _ _ _ selection] at found
    cases found
  | ok selected =>
    rw [handedOver_inspectProject_of_selected _ _ _ _ _ selection,
      handedOver_inspectFiles_eq_ite] at found
    split at found
    · cases found
    · obtain ⟨path, _, inFile⟩ := List.mem_flatMap.mp found
      obtain ⟨rule, applies, names⟩ := rule_of_mem_fileFindings inFile
      exact ⟨rule, (List.mem_filter.mp applies).1, names⟩

/-- To apply fewer rules is to keep what these find, if the selected files hold the same texts. -/
theorem handedOver_inspectProject_filter (keep : String → Bool) (framework : String)
    {left right : Workspace} {git : Git} {root : Path} {few all : Catalog}
    {paths : Option (List GivenPath)}
    (rules : few.rules = all.rules.filter fun rule => keep rule.id)
    (components : ∀ selected, (selectComponents git root paths).value = .ok selected →
      ∀ path : Path, .ofPath path ∈ selected → left.text path = right.text path) :
    handedOver (inspectProject left git root framework few paths).value =
      (handedOver (inspectProject right git root framework all paths).value).filter fun finding =>
        keep finding.rule := by
  have applicable : few.applicable framework =
      (all.applicable framework).filter fun rule => keep rule.id := by
    unfold Catalog.applicable
    rw [rules, List.filter_filter, List.filter_filter]
    exact List.filter_congr fun rule _ => Bool.and_comm _ _
  cases selection : (selectComponents git root paths).value with
  | error failure =>
    rw [handedOver_inspectProject_of_unselected _ _ _ _ _ selection,
      handedOver_inspectProject_of_unselected _ _ _ _ _ selection]
    rfl
  | ok selected =>
    rw [handedOver_inspectProject_of_selected _ _ _ _ _ selection,
      handedOver_inspectProject_of_selected _ _ _ _ _ selection,
      handedOver_inspectFiles_eq_ite, handedOver_inspectFiles_eq_ite, applicable]
    split
    · rfl
    · rw [List.filter_flatMap]
      refine List.flatMap_congr ?_
      intro path usable
      obtain ⟨given, listed, spelled⟩ := List.mem_filterMap.mp usable
      obtain rfl := GivenPath.path?_eq_some_iff.mp spelled
      rw [fileFindings_filter, fileFindings, fileFindings,
        components selected selection path listed]

/-! ### Ignored rules -/

/-- The entry that ignores a rule of the engine by its id. -/
def engineEntry (id : CodeText) : CodeText := CodeText.ofString (ruleEngine ++ "/") ++ id

theorem slash_mem_engineEntry (id : CodeText) : CodePoint.char '/' ∈ (engineEntry id).points :=
  List.mem_append_left _ (by decide)

theorem engineEntry_inj {a b : CodeText} (same : engineEntry a = engineEntry b) : a = b := by
  obtain ⟨left⟩ := a
  obtain ⟨right⟩ := b
  exact congrArg CodeText.mk (List.append_cancel_left (CodeText.mk.inj same))

theorem qualifiedRule_of_engine {finding : Finding} (engine : finding.plugin = ruleEngine) :
    CodeText.ofString finding.qualifiedRule = engineEntry (CodeText.ofString finding.rule) := by
  rw [Finding.qualifiedRule, engine, CodeText.ofString_append]
  rfl

theorem slash_notMem_knownIds : ∀ id ∈ Catalog.knownIds, CodePoint.char '/' ∉ id.points := by
  decide +kernel

/-- `ignoring` ignores the rules that `disabling` disables, by id or as an entry of the engine, and
is the same in all else that an examination reads. -/
structure Settings.IgnoresInstead (disabling ignoring : Settings) : Prop where
  enable : ignoring.enable = disabling.enable
  disable : ignoring.disable = []
  lint : ignoring.lint = disabling.lint
  deadCode : ignoring.deadCode = disabling.deadCode
  files : ignoring.suppression.files = disabling.suppression.files
  kept : disabling.suppression.rules ⊆ ignoring.suppression.rules
  ignored : ∀ id ∈ disabling.disable,
    id ∈ ignoring.suppression.rules ∨ engineEntry id ∈ ignoring.suppression.rules
  added : ∀ entry ∈ ignoring.suppression.rules, entry ∈ disabling.suppression.rules ∨
    ∃ id ∈ disabling.disable, entry = id ∨ entry = engineEntry id

theorem suppresses_ignoring {disabling ignoring : Settings}
    (instead : disabling.IgnoresInstead ignoring)
    (known : ∀ id ∈ disabling.disable, id ∈ Catalog.knownIds) {finding : Finding}
    (engine : finding.plugin = ruleEngine)
    (builtin : CodeText.ofString finding.rule ∈ Catalog.knownIds) :
    ignoring.suppression.Suppresses finding ↔ disabling.suppression.Suppresses finding ∨
      CodeText.ofString finding.rule ∈ disabling.disable := by
  have qualified := qualifiedRule_of_engine engine
  constructor
  · rintro (listed | listed | described)
    · rcases instead.added _ listed with before | ⟨id, disabled, same | same⟩
      · exact Or.inl (Or.inl before)
      · exact Or.inr (same ▸ disabled)
      · have slash := slash_mem_engineEntry id
        rw [← same] at slash
        exact absurd slash (slash_notMem_knownIds _ builtin)
    · change CodeText.ofString finding.qualifiedRule ∈ _ at listed
      rcases instead.added _ listed with before | ⟨id, disabled, same | same⟩
      · exact Or.inl (Or.inr (Or.inl before))
      · have slash := Suppression.slash_mem_qualifiedRule finding
        rw [same] at slash
        exact absurd slash (slash_notMem_knownIds _ (known id disabled))
      · rw [qualified] at same
        exact Or.inr (engineEntry_inj same ▸ disabled)
    · rw [instead.files] at described
      exact Or.inl (Or.inr (Or.inr described))
  · rintro (suppressed | disabled)
    · exact suppressed.mono instead.kept (instead.files ▸ List.Subset.refl _)
    · rcases instead.ignored _ disabled with bare | entry
      · exact Or.inl bare
      · rw [← qualified] at entry
        exact Or.inr (Or.inl entry)

/-! ### Examinations -/

section

variable {left right : Workspace} {git : Git} {root : Path} {request : Request}

/-- Under settings that select known rules the engine uses the selection. -/
theorem activeCatalog_of_select (own : request.catalog = none) {settings : Settings}
    {catalog : Catalog}
    (selected : Catalog.select settings.enable (some settings.disable) = .ok catalog) :
    (request.activeCatalog (some settings)).value = catalog := by
  rw [Request.activeCatalog, own]
  show (selectedCatalog (some settings)).value = _
  rw [selectedCatalog, selected]
  rfl

theorem findings_examineUnder_of_ignoring (alone : request.analyzers = [])
    (own : request.catalog = none)
    (components : ∀ selected,
      (selectComponents git root (scope request.paths)).value = .ok selected →
        ∀ path : Path, .ofPath path ∈ selected → left.text path = right.text path)
    {disabling ignoring : Settings}
    (known : ∀ id ∈ disabling.enable.getD [] ++ disabling.disable, id ∈ Catalog.knownIds)
    (instead : disabling.IgnoresInstead ignoring) (project : Project) :
    (examineUnder left git root request project (some disabling)).value.findings =
      (examineUnder right git root request project (some ignoring)).value.findings := by
  obtain ⟨few, all, selected, selectedAll, builtin, rules⟩ := Catalog.exists_select_disable known
  have catalogFew := activeCatalog_of_select own selected
  have catalogAll : (request.activeCatalog (some ignoring)).value = all := by
    refine activeCatalog_of_select own ?_
    rw [instead.enable, instead.disable]
    exact selectedAll
  have lint : (request.plan (some disabling)).lint = (request.plan (some ignoring)).lint := by
    show chosen request.lint disabling.lint = chosen request.lint ignoring.lint
    rw [instead.lint]
  have kept := handedOver_inspectProject_filter
    (fun rule => !disabling.disable.contains (CodeText.ofString rule)) project.framework rules
    components
  have reported := fun workspace settings =>
    findings_examineUnder_of_alone workspace git root request project settings alone
  rw [reported, reported, catalogFew, catalogAll, lint, kept]
  cases (request.plan (some ignoring)).lint with
  | false => rfl
  | true =>
    refine Report.combine_filter ?_
    intro finding found
    obtain ⟨rule, listed, named, engine⟩ := rule_of_mem_inspectProject found
    have idKnown : CodeText.ofString finding.rule ∈ Catalog.knownIds := by
      rw [named]
      exact List.mem_map_of_mem (List.mem_map_of_mem (builtin rule listed))
    have disabledKnown : ∀ id ∈ disabling.disable, id ∈ Catalog.knownIds := fun id member =>
      known id (List.mem_append_right _ member)
    have ignored := suppresses_ignoring instead disabledKnown
      (show (finding.normalised root).plugin = ruleEngine from engine) idKnown
    refine Iff.trans ignored (or_congr_right ?_)
    show CodeText.ofString finding.rule ∈ disabling.disable ↔ _
    simp

end

/-- A project is examined under settings that disable some rules, and under settings that ignore
these rules instead. The settings may come from different files or from workspaces that differ in
them, as long as the project and its components are the same. -/
theorem examine_of_ignoring (left right : Workspace) (git : Git) (root : Path) (request : Request)
    (alone : request.analyzers = []) (own : request.catalog = none) (other : Option Path)
    {disabling ignoring : Settings}
    (loaded : Settings.load left root request.settingsFile = .ok (some disabling))
    (loadedInstead : Settings.load right root other = .ok (some ignoring))
    (project : Project.describe left root = Project.describe right root)
    (components : ∀ selected,
      (selectComponents git root (scope request.paths)).value = .ok selected →
        ∀ path : Path, .ofPath path ∈ selected → left.text path = right.text path)
    (known : ∀ id ∈ disabling.enable.getD [] ++ disabling.disable,
      id ∈ Catalog.builtin.ids.map CodeText.ofString)
    (instead : disabling.IgnoresInstead ignoring) :
    (examine left git root request).value.map
        (fun diagnosis => (diagnosis.findings, diagnosis.health)) =
      (examine right git root { request with settingsFile := other }).value.map
        fun diagnosis => (diagnosis.findings, diagnosis.health) := by
  have discovered : Project.discover left git root = Project.discover right git root := by
    unfold Project.discover
    rw [project]
  have usable : (usableSettings left root request.settingsFile).value = .ok (some disabling) := by
    rw [usableSettings, loaded]
    rfl
  have usableInstead : (usableSettings right root other).value = .ok (some ignoring) := by
    rw [usableSettings, loadedInstead]
    rfl
  rw [examine_value, examine_value, discovered, usable, usableInstead]
  cases (Project.discover right git root).value with
  | error breakdown => rfl
  | ok project =>
    dsimp only
    split
    · rfl
    · have findings := findings_examineUnder_of_ignoring alone own components known instead project
      show Except.ok _ = Except.ok _
      refine congrArg Except.ok (Prod.ext findings ?_)
      exact congrArg Health.ofFindings findings

/-- A project with a component that writes to a store, and two files of settings. -/
def storeProject : Workspace :=
  ⟨fun location =>
    if location = ["proj"] then some .directory
    else if location = ["proj", "package.json"] then
      some (.file (.text "\x7b\"dependencies\":\x7b\"vue\":\"3\"\x7d\x7d"))
    else if location = ["proj", "App.vue"] then
      some (.file (.text "<script setup>\nconst cart = useCartStore()\ncart.total = 0\n</script>"))
    else if location = ["proj", "off.json"] then
      some (.file (.text
        "\x7b\"rules\": \x7b\"disable\": [\"pinia-direct-state-mutation\"]\x7d\x7d"))
    else if location = ["proj", "hidden.json"] then
      some (.file (.text
        "\x7b\"ignore\": \x7b\"rules\": [\"vue-doctor/pinia-direct-state-mutation\"]\x7d\x7d"))
    else none⟩

deriving instance DecidableEq for Suppression
deriving instance DecidableEq for Settings

theorem eq_ok_of_toOption {ε α : Type} {result : Except ε α} {value : α}
    (given : result.toOption = some value) : result = .ok value := by
  cases result with
  | error fault => cases given
  | ok found => exact congrArg Except.ok (Option.some.inj given)

/-- The rule on writing to stores is disabled by one file and ignored by the other. -/
theorem examine_of_hidden_store_rule :
    let git : Git := ⟨fun _ => .output "App.vue\n"⟩
    let root : Path := ⟨1, ["proj"]⟩
    let off : Option Path := some (.ofString "off.json")
    let hidden : Option Path := some (.ofString "hidden.json")
    let id := CodeText.ofString "pinia-direct-state-mutation"
    Settings.load storeProject root off =
        .ok (some { disable := [id], source := some "/proj/off.json" }) ∧
      Settings.load storeProject root hidden =
        .ok (some
          { suppression := { rules := [engineEntry id] }, source := some "/proj/hidden.json" }) ∧
      (examine storeProject git root { settingsFile := off }).value.map
          (fun diagnosis => (diagnosis.findings, diagnosis.health)) =
        (examine storeProject git root { settingsFile := hidden }).value.map
          fun diagnosis => (diagnosis.findings, diagnosis.health) := by
  intro git root off hidden id
  have loaded : Settings.load storeProject root off =
      .ok (some { disable := [id], source := some "/proj/off.json" }) :=
    eq_ok_of_toOption (by decide +kernel)
  have loadedHidden : Settings.load storeProject root hidden = .ok (some
      { suppression := { rules := [engineEntry id] }, source := some "/proj/hidden.json" }) :=
    eq_ok_of_toOption (by decide +kernel)
  refine ⟨loaded, loadedHidden, ?_⟩
  refine examine_of_ignoring storeProject storeProject git root { settingsFile := off } rfl rfl
    hidden loaded loadedHidden rfl (fun _ _ _ _ => rfl) (by decide +kernel) ?_
  exact
    { enable := rfl, disable := rfl, lint := rfl, deadCode := rfl, files := rfl
      kept := List.nil_subset _
      ignored := by
        intro other member
        exact Or.inr (List.mem_singleton.mp member ▸ List.mem_singleton_self _)
      added := by
        intro entry member
        exact Or.inr ⟨id, List.mem_singleton_self _, Or.inr (List.mem_singleton.mp member)⟩ }

end Checkup
