import Checkup.Proofs.Json.Legible
import Checkup.Proofs.Toml.Legible
import Checkup.Settings.Source

/-!
# Legible settings

Settings are read from JSON or from TOML, and their texts are some of those that were read. So
whatever they were read from, they are legible (`legible_of_load`).
-/

namespace Checkup.Settings

/-- All texts of the settings. -/
def texts (settings : Settings) : List CodeText :=
  settings.suppression.rules ++ settings.suppression.files ++ settings.enable.getD [] ++
    settings.disable

/-- In the texts of the settings no two halves of a pair stand next to each other. -/
def Legible (settings : Settings) : Prop := ∀ text ∈ settings.texts, Json.HalvesApart text.points

section

variable {field : String} {value? : Option Value}

theorem halvesApart_of_texts? {items : List Value} {texts : List CodeText}
    (legible : ∀ item ∈ items, item.Legible) (given : texts? items = some texts) :
    ∀ text ∈ texts, Json.HalvesApart text.points := by
  induction items generalizing texts with
  | nil =>
    cases given
    exact List.forall_mem_nil _
  | cons item items ih =>
    obtain ⟨first, later⟩ := List.forall_mem_cons.mp legible
    cases item with
    | str text =>
      obtain ⟨rest, known, rfl⟩ := Option.map_eq_some_iff.mp given
      cases first with
      | str apart => exact List.forall_mem_cons.mpr ⟨apart, ih later known⟩
    | _ => cases given

theorem halvesApart_of_textsAt? {texts : Option (List CodeText)}
    (legible : ∀ value ∈ value?, value.Legible) (given : textsAt? field value? = .ok texts) :
    ∀ text ∈ texts.getD [], Json.HalvesApart text.points := by
  unfold textsAt? at given
  split at given
  · cases given
    exact List.forall_mem_nil _
  · cases given
    exact List.forall_mem_nil _
  · next items =>
    split at given
    · next known =>
      cases given
      exact halvesApart_of_texts? (Value.legible_list_iff.mp (legible _ rfl)) known
    · cases given
  · cases given

theorem legible_of_tableAt {table : Table} (legible : ∀ value ∈ value?, value.Legible)
    (given : tableAt field value? = .ok table) : table.Legible := by
  unfold tableAt at given
  split at given
  · cases given
    exact Table.legible_nil
  · cases given
    exact Table.legible_nil
  · cases given
    exact Table.legible_table_iff.mp (legible _ rfl)
  · cases given

end

theorem legible_of_ofTable {table : Table} {source : String} {settings : Settings}
    (legible : table.Legible) (given : ofTable table source = .ok settings) :
    settings.Legible := by
  unfold ofTable at given
  obtain ⟨ignore, ignoreGiven, given⟩ := exists_of_bind given
  obtain ⟨rules, rulesGiven, given⟩ := exists_of_bind given
  obtain ⟨ignoredRules, ignoredRulesGiven, given⟩ := exists_of_bind given
  obtain ⟨ignoredFiles, ignoredFilesGiven, given⟩ := exists_of_bind given
  obtain ⟨enable, enableGiven, given⟩ := exists_of_bind given
  obtain ⟨disable, disableGiven, given⟩ := exists_of_bind given
  obtain ⟨lint, _, given⟩ := exists_of_bind given
  obtain ⟨deadCode, _, given⟩ := exists_of_bind given
  obtain ⟨verbose, _, given⟩ := exists_of_bind given
  cases given
  have held : ∀ {table : Table} {key : CodeText}, table.Legible →
      ∀ value ∈ table.get? key, value.Legible := fun legible _ get => legible.of_get? get
  have inIgnore := legible_of_tableAt (held legible) ignoreGiven
  have inRules := legible_of_tableAt (held legible) rulesGiven
  intro text member
  simp only [texts, List.mem_append] at member
  rcases member with ((inside | inside) | inside) | inside
  · exact halvesApart_of_textsAt? (held inIgnore) ignoredRulesGiven text inside
  · exact halvesApart_of_textsAt? (held inIgnore) ignoredFilesGiven text inside
  · exact halvesApart_of_textsAt? (held inRules) enableGiven text inside
  · exact halvesApart_of_textsAt? (held inRules) disableGiven text inside

section

variable {workspace : Workspace} {path root : Path} {settings : Settings}

theorem legible_of_checked {table : Table} {source : String} (legible : table.Legible)
    (given : checked table source = .ok settings) : settings.Legible := by
  unfold checked at given
  split at given
  · next known =>
    cases given
    exact legible_of_ofTable legible known
  · cases given

theorem legible_of_jsonTable {table : Table} (given : jsonTable workspace path = .ok table) :
    table.Legible := by
  unfold jsonTable at given
  split at given
  · cases given
  · split at given
    · next reads =>
      cases given
      exact Table.legible_table_iff.mp (Json.legible_of_read reads)
    all_goals cases given

theorem legible_of_tomlTable {table : Table} (given : tomlTable workspace path = .ok table) :
    table.Legible := by
  unfold tomlTable at given
  split at given
  · cases given
  · split at given
    · next reads =>
      cases given
      exact Toml.legible_of_read reads
    all_goals cases given

theorem legible_of_ofFile (given : ofFile workspace path = .ok settings) : settings.Legible := by
  unfold ofFile at given
  split at given
  · obtain ⟨table, known, given⟩ := exists_of_bind given
    exact legible_of_checked (legible_of_tomlTable known) given
  · obtain ⟨table, known, given⟩ := exists_of_bind given
    exact legible_of_checked (legible_of_jsonTable known) given

theorem legible_of_manifest {table : Table} (given : Manifest.read workspace path = .ok table) :
    table.Legible := by
  unfold Manifest.read at given
  split at given
  · cases given
    exact Table.legible_nil
  · split at given
    · next reads =>
      cases given
      exact Table.legible_table_iff.mp (Json.legible_of_read reads)
    · cases given
    · cases given
      exact Table.legible_nil

theorem legible_of_ofManifest (given : ofManifest workspace root = .ok (some settings)) :
    settings.Legible := by
  unfold ofManifest at given
  dsimp only at given
  split at given
  · cases given
  · next manifest known =>
    split at given
    · next entries get =>
      obtain ⟨found, inSection, same⟩ := exists_of_map given
      obtain rfl := Option.some.inj same
      have whole := Table.legible_table_iff.mp ((legible_of_manifest known).of_get? get)
      exact legible_of_checked whole inSection
    · cases given

theorem legible_of_ofDirectory (given : ofDirectory workspace root = .ok (some settings)) :
    settings.Legible := by
  unfold ofDirectory at given
  split at given
  · cases given
  · obtain ⟨found, inFile, same⟩ := exists_of_map given
    obtain rfl := Option.some.inj same
    exact legible_of_ofFile inFile
  · exact legible_of_ofManifest given

/-- Settings are legible, whatever they were read from. -/
theorem legible_of_load {file : Option Path}
    (loaded : load workspace root file = .ok (some settings)) : settings.Legible := by
  cases file with
  | none => exact legible_of_ofDirectory loaded
  | some file =>
    obtain ⟨found, given, same⟩ := exists_of_map loaded
    obtain rfl := Option.some.inj same
    unfold ofGivenFile at given
    dsimp only at given
    split at given
    · cases given
    · exact legible_of_ofFile given
    · cases given

end

end Checkup.Settings
