import Checkup.Command
import Checkup.Proofs.Render.Payload
import Checkup.Proofs.Settings.Legible
import Checkup.Proofs.Workspace.Lookups

/-!
# Saved settings

The settings in force are shown in a form in which they can be saved. JSON carries them, since they
are legible (`portable_toValue`), and the table that is read back has each of them under the key
under which it is looked for (`ofTable_of_same`). `Command.load_of_saved` puts this together.
-/

namespace Checkup

/-! ### Plain texts -/

theorem Ansi.stripPoints_eq_self {points : List CodePoint}
    (plain : ∀ point ∈ points, point ≠ .char '\x1b') : stripPoints points = points := by
  induction points with
  | nil => rw [stripPoints]
  | cons point rest ih =>
    obtain ⟨first, later⟩ := List.forall_mem_cons.mp plain
    rw [stripPoints, ih later]
    rintro _ rfl
    exact absurd rfl first

theorem Text.unifyNewlines_eq_self {text : List Char} (plain : ∀ c ∈ text, c ≠ '\r') :
    unifyNewlines text = text := by
  induction text with
  | nil => rfl
  | cons c rest ih =>
    obtain ⟨first, later⟩ := List.forall_mem_cons.mp plain
    rw [unifyNewlines, ih later, if_neg first]
    rintro _ rfl
    exact absurd rfl first

theorem Json.tokens_eq_nil {text : List Char} (blank : ∀ c ∈ text, c = '\n') :
    tokens text = [] := by
  induction text with
  | nil => rw [tokens]
  | cons c rest ih =>
    obtain ⟨rfl, later⟩ := List.forall_mem_cons.mp blank
    rw [tokens]
    exact ih later

namespace Settings

/-! ### Settings as a table -/

theorem portable_ofTexts (depth : Nat) {texts : List CodeText}
    (apart : ∀ text ∈ texts, Json.HalvesApart text.points) :
    Json.Portable (depth + 1) (.ofTexts texts) := by
  apply Json.Portable.list
  intro item member
  obtain ⟨text, given, rfl⟩ := List.mem_map.mp member
  exact .str depth (apart text given)

theorem portable_toValue {settings : Settings} (legible : settings.Legible) :
    Json.Portable 3 settings.toValue := by
  simp only [Legible, texts, List.forall_mem_append] at legible
  obtain ⟨⟨⟨rules, files⟩, enable⟩, disable⟩ := legible
  have enabled : Json.Portable 1 (.ofOption Value.ofTexts settings.enable) := by
    apply Json.portable_ofOption
    intro texts given
    rw [Option.mem_def.mp given] at enable
    exact portable_ofTexts 0 enable
  have flag (given : Option Bool) : Json.Portable 2 (.ofOption .bool given) :=
    Json.portable_ofOption fun b _ => Json.portable_bool 2 b
  have source : Json.Portable 2 (.ofOption .ofString settings.source) :=
    Json.portable_ofOption fun s _ => Json.portable_ofString 2 s
  have inIgnore : Json.Portable 2 (.table [("rules", .ofTexts settings.suppression.rules),
      ("files", .ofTexts settings.suppression.files)]) := by
    apply Json.portable_record ["rules", "files"] rfl (by decide)
    simp [portable_ofTexts 0 rules, portable_ofTexts 0 files]
  have inRules : Json.Portable 2 (.table [("enable", .ofOption Value.ofTexts settings.enable),
      ("disable", .ofTexts settings.disable)]) := by
    apply Json.portable_record ["enable", "disable"] rfl (by decide)
    simp [enabled, portable_ofTexts 0 disable]
  apply Json.portable_record ["ignore", "rules", "lint", "dead_code", "verbose", "source"] rfl
    (by decide)
  simp [inIgnore, inRules, flag, source]

section

variable {table others : Table} {key : CodeText}

theorem exists_tableAt_of_same (field : String)
    (same : Value.Same (.table table) (.table others)) (distinct : (others.map Prod.fst).Nodup)
    {entries : Table} (get : others.get? key = some (.table entries)) :
    ∃ found, tableAt field (table.get? key) = .ok found ∧
      Value.Same (.table found) (.table entries) := by
  obtain ⟨value, here, like⟩ := same.exists_get? distinct get
  obtain ⟨found, rfl⟩ := like.exists_entries
  exact ⟨found, by rw [here, tableAt], like⟩

theorem texts?_of_same {items : List Value} {texts : List CodeText}
    (same : List.Forall₂ Value.Same items (texts.map .str)) : texts? items = some texts := by
  induction texts generalizing items with
  | nil =>
    cases same
    rfl
  | cons text texts ih =>
    cases same with
    | cons first later =>
      cases first
      rw [texts?, ih later]
      rfl

theorem textsAt?_of_same (field : String) (same : Value.Same (.table table) (.table others))
    (distinct : (others.map Prod.fst).Nodup) {texts : Option (List CodeText)}
    (get : others.get? key = some (.ofOption Value.ofTexts texts)) :
    textsAt? field (table.get? key) = .ok texts := by
  obtain ⟨value, here, like⟩ := same.exists_get? distinct get
  rw [here]
  cases texts with
  | none =>
    cases like
    rfl
  | some texts =>
    obtain ⟨items, rfl, each⟩ := like.exists_items
    rw [textsAt?, texts?_of_same each]

theorem flagAt?_of_same (field : String) (same : Value.Same (.table table) (.table others))
    (distinct : (others.map Prod.fst).Nodup) {flag : Option Bool}
    (get : others.get? key = some (.ofOption .bool flag)) :
    flagAt? field (table.get? key) = .ok flag := by
  obtain ⟨value, here, like⟩ := same.exists_get? distinct get
  rw [here]
  cases flag with
  | none =>
    cases like
    rfl
  | some b =>
    cases like
    rfl

end

/-- The settings in a table that is the same as theirs are the same, whatever its source. -/
theorem ofTable_of_same {settings : Settings} {table : Table}
    (same : Value.Same (.table table) settings.toValue) (source : String) :
    ofTable table source = .ok { settings with source := some source } := by
  have fields : (["ignore", "rules", "lint", "dead_code", "verbose", "source"].map
    CodeText.ofString).Nodup := Json.nodup_map_ofString (by decide)
  have ofIgnore : (["rules", "files"].map CodeText.ofString).Nodup :=
    Json.nodup_map_ofString (by decide)
  have ofRules : (["enable", "disable"].map CodeText.ofString).Nodup :=
    Json.nodup_map_ofString (by decide)
  obtain ⟨ignore, ignoreAt, sameIgnore⟩ := exists_tableAt_of_same "ignore" same fields
    (show Table.get? _ "ignore" = _ from rfl)
  obtain ⟨rules, rulesAt, sameRules⟩ := exists_tableAt_of_same "rules" same fields
    (show Table.get? _ "rules" = _ from rfl)
  have ignoredRules : textsAt? "ignore.rules" (ignore.get? "rules") =
    .ok (some settings.suppression.rules) := textsAt?_of_same _ sameIgnore ofIgnore rfl
  have ignoredFiles : textsAt? "ignore.files" (ignore.get? "files") =
    .ok (some settings.suppression.files) := textsAt?_of_same _ sameIgnore ofIgnore rfl
  have enable : textsAt? "rules.enable" (rules.get? "enable") = .ok settings.enable :=
    textsAt?_of_same _ sameRules ofRules rfl
  have disable : textsAt? "rules.disable" (rules.get? "disable") = .ok (some settings.disable) :=
    textsAt?_of_same _ sameRules ofRules rfl
  have lint : flagAt? "lint" (table.get? "lint") = .ok settings.lint :=
    flagAt?_of_same _ same fields rfl
  have deadCode : flagAt? "dead_code" (either? table "deadCode" "dead_code") =
      .ok settings.deadCode := by
    have otherName : table.get? "deadCode" = none := same.get?_eq_none rfl
    rw [either?, Table.has, otherName]
    exact flagAt?_of_same _ same fields rfl
  have verbose : flagAt? "verbose" (table.get? "verbose") = .ok settings.verbose :=
    flagAt?_of_same _ same fields rfl
  simp only [ofTable, ignoreAt, rulesAt, ignoredRules, ignoredFiles, enable, disable, lint,
    deadCode, verbose, bind, Except.bind]
  rfl

/-! ### Saving -/

/-- The file in which settings are saved. No other is looked at if it exists. -/
def savedName : String := ".vue-doctorrc"

section

variable {workspace : Workspace} {root : Path} {settings : Settings}

theorem isFileName_savedName : Path.IsFileName savedName := by decide

theorem suffix_saved (root : Path) : (root.join (.ofString savedName)).suffix = "" := by
  rw [isFileName_savedName.1]
  show String.ofList (Path.nameSuffix '.' ((root.parts ++ [savedName]).getLast?.getD "").toList) = ""
  rw [List.getLast?_concat]
  rfl

theorem isVisible_of_mem_write (legible : settings.Legible) :
    ∀ c ∈ (Json.write settings.toValue).toList, Json.isVisible c = true := by
  rw [Json.write, String.toList_ofList]
  exact (portable_toValue legible).isVisible_of_mem

theorem jsonTable_of_standing (legible : settings.Legible) {path : Path} {ending : String}
    (blank : ∀ c ∈ ending.toList, c = '\n')
    (standing : workspace.standing? path =
      some (.file (.text (Json.write settings.toValue ++ ending)))) :
    ∃ table, jsonTable workspace path = .ok table ∧
      Value.Same (.table table) settings.toValue := by
  obtain ⟨there, found⟩ := Workspace.exists_find_of_standing standing
  have visible := isVisible_of_mem_write legible
  have plain : ∀ c ∈ (Json.write settings.toValue ++ ending).toList, c ≠ '\r' := by
    rw [String.toList_append, List.forall_mem_append]
    constructor
    · rintro _ member rfl
      cases visible _ member
    · rintro _ member rfl
      cases blank _ member
  have text : workspace.text path = .ok (Json.writeValue settings.toValue ++ ending.toList) := by
    rw [Workspace.text, Workspace.rawText, Workspace.content, found]
    show Except.ok (Text.unifyNewlines _) = _
    rw [Text.unifyNewlines_eq_self plain, String.toList_append, Json.write, String.toList_ofList]
  obtain ⟨table, reads, same⟩ := (portable_toValue legible).exists_read_table (by decide)
    (Json.tokens_eq_nil blank)
  refine ⟨table, ?_, same⟩
  rw [jsonTable, text]
  simp only [toValue, reads]

/-- The settings that are loaded are those that were saved, with or without newlines after them. -/
theorem load_of_standing (legible : settings.Legible) {ending : String}
    (blank : ∀ c ∈ ending.toList, c = '\n')
    (standing : workspace.standing? (root.join (.ofString savedName)) =
      some (.file (.text (Json.write settings.toValue ++ ending)))) :
    load workspace root none =
      .ok (some { settings with source := some (root.join (.ofString savedName)).text }) := by
  obtain ⟨table, given, same⟩ := jsonTable_of_standing legible blank standing
  have first : workspace.firstOf (fileNames.map fun name => root.join (.ofString name)) =
      .ok (some (root.join (.ofString savedName))) := by
    rw [fileNames, List.map_cons, Workspace.firstOf]
    show (workspace.has (root.join (.ofString savedName)) >>= _) = _
    rw [Workspace.has_of_standing standing]
    rfl
  rw [load, ofDirectory, first]
  dsimp only
  rw [ofFile, if_neg (by rw [suffix_saved]; decide), given]
  show (checked table _).map some = _
  rw [checked, ofTable_of_same same]
  rfl

end

end Settings

namespace Command

theorem printed_of_visible {text : String} (visible : ∀ c ∈ text.toList, Json.isVisible c = true) :
    printed text = CodeText.ofString (text ++ "\n") := by
  have plain : ∀ point ∈ (CodeText.ofString text).points, point ≠ .char '\x1b' := by
    intro point member
    obtain ⟨c, inside, rfl⟩ := List.mem_map.mp member
    intro escape
    obtain rfl := CodePoint.char.inj escape
    cases visible _ inside
  rw [printed, Ansi.strip, Ansi.stripPoints_eq_self plain, CodeText.ofString_append]

/-- Settings that are loaded from anywhere can be saved as they are shown, with or without the
newline at the end. They are then loaded again from the file in which they were saved, and differ in
their source alone. -/
theorem load_of_saved (environment : Environment) (directory : Path) (file : Option Path)
    (settings : Settings)
    (loaded : Settings.load environment.workspace (environment.directory.resolve directory) file =
      .ok (some settings)) :
    let root := environment.directory.resolve directory
    let path := root.join (.ofString ".vue-doctorrc")
    let shown := Json.write settings.toValue
    let again : Except Settings.Fault (Option Settings) :=
      .ok (some { settings with source := some path.text })
    (∃ reply, runSettings environment directory .json file = .ok reply ∧
        reply.output = CodeText.ofString (shown ++ "\n")) ∧
      ∀ saved ∈ [shown, shown ++ "\n"],
        (∀ here after, environment.workspace.find root = .ok (here, .directory) →
          path.text.utf8ByteSize < Workspace.pathLimit →
          environment.workspace.writeFile (here ++ [".vue-doctorrc"]) saved = (after, .ok ()) →
            Settings.load after root none = again) ∧
          ∀ after : Workspace, after.standing? path = some (.file (.text saved)) →
            Settings.load after root none = again := by
  intro root path shown again
  have legible := Settings.legible_of_load loaded
  refine ⟨⟨.ofTexts [settingsText settings .json], ?_, ?_⟩, ?_⟩
  · rw [runSettings]
    simp only [loaded]
    rfl
  · rw [← printed_of_visible (Settings.isVisible_of_mem_write legible)]
    simp [Reply.ofTexts, CodeText.join, settingsText]
  · intro saved member
    have loads : ∀ after : Workspace, after.standing? path = some (.file (.text saved)) →
        Settings.load after root none = again := by
      intro after standing
      simp only [List.mem_cons, List.not_mem_nil, or_false] at member
      rcases member with rfl | rfl
      · rw [← String.append_empty (s := shown)] at standing
        exact Settings.load_of_standing legible (List.forall_mem_nil _) standing
      · exact Settings.load_of_standing legible (by simp) standing
    refine ⟨?_, loads⟩
    intro here after reached fits written
    exact loads after (Workspace.standing_of_writeFile (Workspace.enters_of_find reached)
      Settings.isFileName_savedName fits written)

/-- Settings in a manifest: a list of no rules, and half of a pair. -/
def oddManifest : String :=
  "\x7b\"vueDoctor\":\x7b\"rules\":\x7b\"enable\":[],\"disable\":[\"\\ud83d\"]\x7d\x7d\x7d"

/-- A project with that manifest. -/
def oddProject : Workspace :=
  ⟨fun location =>
    if location = ["proj"] then some .directory
    else if location = ["proj", "package.json"] then some (.file (.text oddManifest))
    else none⟩

/-- The settings of the project. -/
def oddSettings : Settings :=
  { enable := some [], disable := [⟨[.half 61]⟩], source := some "/proj/package.json#vueDoctor" }

theorem read_oddManifest : Json.read (Text.unifyNewlines oddManifest.toList) =
    .ok (.table [("vueDoctor", .table
      [("rules", .table [("enable", .list []), ("disable", .list [.str ⟨[.half 61]⟩])])])]) := by
  cbv

theorem load_oddProject : Settings.load oddProject ⟨1, ["proj"]⟩ none = .ok (some oddSettings) := by
  have nothing : oddProject.firstOf (Settings.fileNames.map fun name =>
    Path.join ⟨1, ["proj"]⟩ (.ofString name)) = .ok none := by rfl
  have text : oddProject.text (Path.join ⟨1, ["proj"]⟩ (.ofString Manifest.fileName)) =
    .ok (Text.unifyNewlines oddManifest.toList) := by rfl
  rw [Settings.load, Settings.ofDirectory, nothing]
  dsimp only
  rw [Settings.ofManifest, Manifest.read, text]
  dsimp only
  rw [read_oddManifest]
  rfl

/-- Half of a pair is saved and loaded again, and a list of no rules stays one. -/
theorem load_of_saved_oddSettings :
    let environment : Environment :=
      { workspace := oddProject
        git := ⟨fun _ => .output ""⟩
        directory := ⟨1, ["proj"]⟩
        completed := fun _ => ⟨.ok {}, oddProject⟩
        now := "" }
    let shown := Json.write oddSettings.toValue ++ "\n"
    Settings.load oddProject (environment.directory.resolve (.ofString ".")) none =
        .ok (some oddSettings) ∧
      ∃ after, oddProject.writeFile ["proj", ".vue-doctorrc"] shown = (after, .ok ()) ∧
        Settings.load after ⟨1, ["proj"]⟩ none =
          .ok (some { oddSettings with source := some "/proj/.vue-doctorrc" }) := by
  intro environment shown
  obtain ⟨_, saves⟩ := load_of_saved environment (.ofString ".") none oddSettings load_oddProject
  refine ⟨load_oddProject, _, rfl, ?_⟩
  exact (saves shown (by simp [shown])).1 ["proj"] _ rfl (by decide) rfl

end Command

end Checkup
