import Checkup.Proofs.Command.Lines
import Checkup.Proofs.Examination.Records
import Checkup.Proofs.Examination.Totality
import Checkup.Proofs.Git.Changes
import Checkup.Proofs.Json.Nesting
import Checkup.Proofs.Render.Written
import Checkup.Proofs.Selection.FullPaths
import Checkup.Proofs.Settings.Saving

/-!
# Scans of what has changed

A scan of the changes since a revision never leaves the changed files (`changesScan_outcome`).
Without changes it runs nothing, although a selection of no files would stand for the whole project;
with changes it reports on components among them, also if there are none.
-/

namespace Checkup

theorem quiet_changesSince (git : Git) (directory : Path) (bases : List String) :
    (git.changesSince directory bases).Quiet := by
  induction bases with
  | nil => exact Journaled.quiet_pure _
  | cons base others ih =>
    unfold Git.changesSince
    apply (quiet_ask git directory _).bind
    split
    · exact Journaled.quiet_pure _
    · exact (Journaled.quiet_debug _).bind ih
    · exact Journaled.quiet_pure _

theorem quiet_changes (git : Git) (directory : Path) (base : String) :
    (git.changes directory base).Quiet :=
  (quiet_changesSince git directory _).bind (Journaled.quiet_pure _)

namespace Command

/-- The command line that asks for a scan of the changes since a revision. -/
def changesLine (base : String) : List String :=
  ["scan", "--diff", "--base", base, "--format", "json"]

def changesScan (base : String) : Scan :=
  { directory := .ofString "."
    lint := none
    deadCode := none
    verbose := false
    scoreOnly := false
    changesOnly := true
    base
    fix := false
    format := .json
    settingsFile := none }

/-! ### Reading the command -/

theorem formatNamed_json : formatNamed "json" = .ok .json := by cbv

theorem parse_changesLine (base : String) :
    parse (changesLine base) = .ok (.scanProject (changesScan base)) := by
  let parts : Arguments :=
    { flags := ["--diff"], values := [("--base", base), ("--format", "json")] }
  have read : scanGrammar.read ["--diff", "--base", base, "--format", "json"] = .ok parts := by
    rw [Grammar.read_flag (by decide) (by decide) (by decide),
      Grammar.read_valued (by decide) (by decide), Grammar.read_valued (by decide) (by decide)]
    rfl
  have known : readParts scanGrammar 1 ["--diff", "--base", base, "--format", "json"] =
      .ok parts := by
    rw [readParts, read]
    rfl
  have help : parts.has "--help" = false := rfl
  have format : formatOf parts = .ok .json := formatNamed_json
  rw [changesLine, parse_of_name (by decide), parseNamed]
  simp only [parseScan, known, bind, Except.bind, help, format, Bool.false_eq_true, if_false]
  rfl

theorem execute_changesLine (environment : Environment) (base : String) :
    execute environment (changesLine base) = do
      return ⟨← runScan environment (changesScan base), environment.workspace⟩ := by
  rw [execute, parse_changesLine]
  rfl

theorem reply_execute_changesLine (environment : Environment) (base : String) :
    (execute environment (changesLine base)).value.reply =
      (runScan environment (changesScan base)).value := by
  rw [execute_changesLine]
  rfl

/-! ### Carrying it out -/

/-- The message of a scan that finds nothing to look at. -/
def nothingChanged : Reply := .ofTexts ["No changed files found — nothing to scan"]

/-- The project's directory, when a command is given none. -/
def Environment.root (environment : Environment) : Path :=
  environment.directory.resolve (.ofString ".")

/-- What is examined in a scan of files with these names. -/
def Environment.examined (environment : Environment) (names : List String) :
    Except NotExamined Diagnosis :=
  (examine environment.workspace environment.git environment.root
    { paths := some (filesOf environment.root names) }).value

/-- The text reports a comparison with a revision, and all that it reports is in components among
some files. -/
def ReportsOn (text : String) (candidate : String) (names : List String) : Prop :=
  ∃ entries metadata items, text = Json.write (.table entries) ∧
    Table.get? entries "meta" = some (.table metadata) ∧
    Table.get? metadata "diff_base" = some (.str candidate) ∧
    Table.get? entries "diagnostics" = some (.list items) ∧
    ∀ item ∈ items, ∃ fields, ∃ name ∈ names, item = .table fields ∧
      Table.get? fields "file_path" = some (.str name) ∧ Text.closes ".vue" name.toList = true

/-- A report on some files can be written: the project's path leaves room for names, the time is a
number, and no number in the report has more digits than the limit. -/
structure Environment.CanReport (environment : Environment) (names : List String) : Prop where
  room : environment.root.LeavesRoom (Project.longestName + 1)
  finite : ∃ magnitude, Decimal.read environment.elapsed = .finite magnitude
  short : ∀ diagnosis, environment.examined names = .ok diagnosis →
    ∀ n ∈ diagnosis.integers, Json.isLong n = false

section

variable {environment : Environment} {base candidate : String} {names : List String}

theorem runScan_changesScan (environment : Environment) (base : String) :
    runScan environment (changesScan base) =
      environment.git.changes environment.root base >>= fun
        | .error breakdown => pure (.error (.broken breakdown))
        | .ok changes =>
          if changes.files.isEmpty then pure (.ok nothingChanged)
          else examineFor environment (changesScan base) environment.root (some changes) := rfl

theorem value_runScan_of_garbles (garbles : environment.git.Garbles [base, Git.fallbackBase]) :
    (runScan environment (changesScan base)).value = .error (.broken .undecoded) := by
  rw [runScan_changesScan]
  simp only [bind, garbles.value_changes]
  rfl

theorem runScan_of_unchanged {changes : Git.Changes}
    (answered : (environment.git.changes environment.root base).value = .ok changes)
    (unchanged : changes.files = []) :
    (runScan environment (changesScan base)).value = .ok nothingChanged ∧
      (runScan environment (changesScan base)).Quiet := by
  have nothing := List.isEmpty_iff.mpr unchanged
  rw [runScan_changesScan]
  constructor
  · simp only [bind, answered, if_pos nothing]
    rfl
  · refine (quiet_changes environment.git environment.root base).bind ?_
    rw [answered]
    dsimp only
    rw [if_pos nothing]
    exact Journaled.quiet_pure _

theorem value_runScan_of_changed
    (compares : environment.git.Compares [base, Git.fallbackBase] candidate names)
    (nonempty : names ≠ []) :
    (runScan environment (changesScan base)).value =
      match environment.examined names with
      | .error (.broken breakdown) => .error (.broken breakdown)
      | .error reason => .ok { status := 1, errors := ["error: " ++ reason.message] }
      | .ok diagnosis =>
        match ({ diagnosis with elapsed := environment.elapsed } : Diagnosis).json environment.now
            (some candidate) with
        | .ok text => .ok (.ofTexts [text])
        | .error reason => .error (.unwritable reason) := by
  have changes : (environment.git.changes environment.root base).value = _ := compares.value_changes
  have some_ : ¬ (names.map fun name =>
      environment.root.join (.ofString name)).isEmpty = true := by simpa using nonempty
  have examined : (examine environment.workspace environment.git environment.root
      { paths := some ((names.map fun name => environment.root.join (.ofString name)).map
        .ofPath) }).value = environment.examined names := by
    rw [Environment.examined, filesOf_eq_map]
  rw [runScan_changesScan]
  simp only [bind, changes, if_neg some_, examineFor, changesScan, Option.map_some, examined]
  cases environment.examined names with
  | ok diagnosis => rfl
  | error reason =>
    cases reason with
    | broken breakdown => rfl
    | noVue => rfl

section

variable (decoded : environment.git.answer .inventory ≠ .binary)
  (room : environment.root.LeavesRoom (Project.longestName + 1)) {version : Value}
  (declared : Manifest.Declares environment.workspace environment.root "vue" version)

include decoded room declared

theorem examined_of_declared (names : List String) :
    ∃ project : Project, environment.examined names =
      match (usableSettings environment.workspace environment.root none).value with
      | .error breakdown => .error (.broken breakdown)
      | .ok settings =>
        .ok (examineUnder environment.workspace environment.git environment.root
          { paths := some (filesOf environment.root names) } project settings).value := by
  obtain ⟨project, _, examined⟩ := examine_of_declared
    { paths := some (filesOf environment.root names) } decoded room declared
  exact ⟨project, examined⟩

omit decoded in
theorem examined_of_binary (names : List String)
    (undecoded : environment.git.answer .inventory = .binary) :
    environment.examined names = .error (.broken .undecoded) := by
  obtain ⟨_, spelled, _⟩ := declared
  exact examine_of_binary _ undecoded room (Manifest.read_of_spells spelled)

theorem examined_of_broken (names : List String) {breakdown : Breakdown}
    (broken : Settings.load environment.workspace environment.root none =
      .error (.broken breakdown)) :
    environment.examined names = .error (.broken breakdown) := by
  obtain ⟨project, examined⟩ := examined_of_declared decoded room declared names
  rw [examined, usableSettings, broken]
  rfl

theorem exists_examined (settled : Path.Settled environment.root.parts)
    (fine : ∀ breakdown, Settings.load environment.workspace environment.root none ≠
      .error (.broken breakdown))
    (nonempty : names ≠ []) (plain : ∀ name ∈ names, Path.IsPlain name) :
    ∃ diagnosis, environment.examined names = .ok diagnosis ∧
      Report.Settled diagnosis.findings ∧ ∀ finding ∈ diagnosis.findings,
        finding.file ∈ names ∧ Text.closes componentSuffix finding.file.toList = true := by
  obtain ⟨project, examined⟩ := examined_of_declared decoded room declared names
  obtain ⟨settings, read⟩ := exists_usableSettings fine
  simp only [read] at examined
  refine ⟨_, examined, ?_, ?_⟩
  · rw [findings_examineUnder]
    exact Report.settled_combine _ _ _
  · intro finding reported
    exact file_mem_of_reported rfl settled {} rfl project settings nonempty plain reported

end

theorem exists_report (diagnosis : Diagnosis) (settled : Report.Settled diagnosis.findings)
    (short : ∀ n ∈ diagnosis.integers, Json.isLong n = false) {magnitude : Decimal.Magnitude}
    (finite : Decimal.read diagnosis.elapsed = .finite magnitude) (now candidate : String)
    (inside : ∀ finding ∈ diagnosis.findings,
      finding.file ∈ names ∧ Text.closes componentSuffix finding.file.toList = true) :
    ∃ text, diagnosis.json now (some candidate) = .ok text ∧ ReportsOn text candidate names := by
  obtain ⟨entries, metadata, written, about, compared, listed⟩ :=
    (Diagnosis.Short.mk settled short).exists_json now (some candidate) finite
  refine ⟨_, written, entries, metadata, _, rfl, about, compared, listed, ?_⟩
  intro item member
  obtain ⟨finding, found, rfl⟩ := List.mem_map.mp member
  obtain ⟨among, component⟩ := inside finding found
  exact ⟨_, finding.file, among, rfl, rfl, component⟩

end

/-- A scan of the changes since a revision looks at the first revision of two for which git answers.
If git answers for neither, or names no source file, then nothing is run. Otherwise the report names
that revision, and whatever it reports is in components among the changed files. Only answers of git
that are not texts and settings that break the work off keep a project from being reported on. -/
theorem changesScan_outcome (environment : Environment) (directory base : String)
    (seen : environment.directory = .ofString directory) :
    let root := environment.root
    let git := environment.git
    let bases := [base, Git.fallbackBase]
    let ended := execute environment (changesLine base)
    (git.Garbles bases → ended.value.reply = .error (.broken .undecoded)) ∧
    (¬ git.Garbles bases →
      (∀ candidate names, git.Compares bases candidate names → names = []) →
        ended.value.reply = .ok nothingChanged ∧ calls ended.events = []) ∧
    ∀ version candidate names, Manifest.Declares environment.workspace root "vue" version →
      git.Compares bases candidate names → names ≠ [] →
      (∀ name ∈ names, Path.IsPlain name) → environment.CanReport names →
      (git.answer .inventory = .binary → ended.value.reply = .error (.broken .undecoded)) ∧
      (git.answer .inventory ≠ .binary →
        (∀ breakdown, Settings.load environment.workspace root none = .error (.broken breakdown) →
          ended.value.reply = .error (.broken breakdown)) ∧
        ((∀ breakdown, Settings.load environment.workspace root none ≠ .error (.broken breakdown)) →
          ∃ text : String, ended.value.reply = .ok (.ofTexts [text]) ∧
            ReportsOn text candidate names)) := by
  intro root git bases ended
  have settled : Path.Settled root.parts := by
    simp only [root, Environment.root, seen]
    exact Path.settled_resolve directory "."
  have reply : ended.value.reply = (runScan environment (changesScan base)).value := by
    simp only [ended, reply_execute_changesLine]
  refine ⟨?_, ?_, ?_⟩
  · intro garbles
    rw [reply, value_runScan_of_garbles garbles]
  · intro decoded nothing
    obtain ⟨changes, answered, unchanged⟩ := Git.exists_changes_of_none decoded nothing
    obtain ⟨answer, quiet⟩ := runScan_of_unchanged answered unchanged
    rw [reply, answer]
    refine ⟨rfl, ?_⟩
    simp only [ended, execute_changesLine]
    exact quiet.bind (Journaled.quiet_pure _)
  · intro version candidate names declared compares nonempty plain able
    obtain ⟨magnitude, finite⟩ := able.finite
    have scanned := value_runScan_of_changed compares nonempty
    rw [← reply] at scanned
    constructor
    · intro undecoded
      rw [scanned, examined_of_binary able.room declared names undecoded]
    intro decoded
    refine ⟨?_, ?_⟩
    · intro breakdown broken
      rw [scanned, examined_of_broken decoded able.room declared names broken]
    · intro fine
      obtain ⟨diagnosis, examined, severities, inside⟩ :=
        exists_examined decoded able.room declared settled fine nonempty plain
      obtain ⟨text, written, reports⟩ :=
        exists_report { diagnosis with elapsed := environment.elapsed } severities
          (able.short diagnosis examined) finite environment.now candidate inside
      refine ⟨text, ?_, reports⟩
      rw [scanned, examined]
      simp only [written]

/-! ### A component and a script that have changed -/

/-- A git that knows no other branch. A component and a script have changed since the last
revision. -/
def branchless : Git :=
  ⟨fun
    | .inventory => .output "App.vue\nsrc/List.vue\nmain.ts\n"
    | .changes "HEAD~1" => .output "src/List.vue\nmain.ts\nREADME.md\n"
    | .changes _ => .failed "unknown revision"⟩

theorem compares_branchless :
    branchless.Compares ["main", Git.fallbackBase] "HEAD~1" ["src/List.vue", "main.ts"] := by
  have names : Git.sourceNames "src/List.vue\nmain.ts\nREADME.md\n" =
      ["src/List.vue", "main.ts"] := by rfl
  rw [← names]
  exact .later (.failed _) (.here rfl)

/-- The program in a project with that git. -/
def branchlessEnvironment (workspace : Workspace) : Environment :=
  { workspace
    git := branchless
    directory := .ofString "/proj"
    completed := fun _ => ⟨.ok {}, workspace⟩
    now := "" }

theorem decoded_branchlessEnvironment (workspace : Workspace) :
    (branchlessEnvironment workspace).git.answer .inventory ≠ .binary :=
  show Git.Answer.output _ ≠ .binary from nofun

theorem root_branchlessEnvironment (workspace : Workspace) :
    (branchlessEnvironment workspace).root = ⟨1, ["proj"]⟩ := by
  show Path.resolve (.ofString "/proj") (.ofString ".") = _
  decide

theorem read_twoComponents :
    Json.read (Text.unifyNewlines
      "\x7b\"dependencies\": \x7b\"vue\": \"^3.4.0\"\x7d\x7d".toList) =
      .ok (.table [("dependencies", .table [("vue", .str "^3.4.0")])]) := by
  cbv

theorem declares_twoComponents :
    Manifest.Declares twoComponents ⟨1, ["proj"]⟩ "vue" (.str "^3.4.0") :=
  ⟨_, ⟨_, rfl, read_twoComponents⟩, by cbv⟩

/-- The revision that is asked for is unknown, so the changes since the last one are scanned. -/
theorem changesScan_outcome_branchless :
    let environment := branchlessEnvironment twoComponents
    let names := ["src/List.vue", "main.ts"]
    environment.git.Compares ["main", Git.fallbackBase] "HEAD~1" names ∧
      Manifest.Declares environment.workspace environment.root "vue" (.str "^3.4.0") ∧
      ∃ text : String, (execute environment (changesLine "main")).value.reply =
          .ok (.ofTexts [text]) ∧ ReportsOn text "HEAD~1" names := by
  intro environment names
  have root : environment.root = ⟨1, ["proj"]⟩ := root_branchlessEnvironment twoComponents
  have declared :
      Manifest.Declares environment.workspace environment.root "vue" (.str "^3.4.0") := by
    rw [root]
    exact declares_twoComponents
  have few : (environment.examined names).toOption.all (fun diagnosis =>
      diagnosis.integers.all fun n => !Json.isLong n) = true := by
    decide +kernel
  have able : environment.CanReport names := by
    refine ⟨?_, show ∃ magnitude, Decimal.read 0.0 = .finite magnitude from ⟨_, rfl⟩, ?_⟩
    · rw [root]
      exact ⟨by decide, by decide⟩
    · intro diagnosis examined
      rw [examined] at few
      simpa [Except.toOption] using few
  have usable : (Settings.load environment.workspace environment.root none).toOption.isSome := by
    decide +kernel
  have fine : ∀ breakdown, Settings.load environment.workspace environment.root none ≠
      .error (.broken breakdown) := by
    intro breakdown broken
    rw [broken] at usable
    cases usable
  obtain ⟨_, _, scans⟩ := changesScan_outcome environment "/proj" "main" rfl
  have outcome := scans _ "HEAD~1" names declared compares_branchless (List.cons_ne_nil _ _)
    (by decide) able
  exact ⟨compares_branchless, declared, (outcome.2 (decoded_branchlessEnvironment _)).2 fine⟩

/-! ### Settings that are nested too deeply -/

/-- The project with a file of settings that opens many lists. -/
def nestedProject : Workspace :=
  twoComponents.put ["proj", ".vue-doctorrc.json"]
    (.file (.text (String.ofList (List.replicate 2000 '['))))

theorem declares_nestedProject :
    Manifest.Declares nestedProject ⟨1, ["proj"]⟩ "vue" (.str "^3.4.0") :=
  ⟨_, ⟨_, rfl, read_twoComponents⟩, by cbv⟩

theorem load_nestedProject :
    Settings.load nestedProject ⟨1, ["proj"]⟩ none = .error (.broken (.overflow .jsonList)) := by
  have found : nestedProject.firstOf (Settings.fileNames.map fun name =>
      Path.join ⟨1, ["proj"]⟩ (.ofString name)) =
        .ok (some ⟨1, ["proj", ".vue-doctorrc.json"]⟩) := by rfl
  have text : nestedProject.text ⟨1, ["proj", ".vue-doctorrc.json"]⟩ =
      .ok (Text.unifyNewlines (String.ofList (List.replicate 2000 '[')).toList) := by rfl
  have plain : ∀ c ∈ List.replicate 2000 '[', c ≠ '\r' := by
    intro c member
    rw [List.eq_of_mem_replicate member]
    decide
  rw [String.toList_ofList, Text.unifyNewlines_eq_self plain] at text
  have decoded : Json.read (List.replicate 2000 '[') = .error (.tooDeep .jsonList) :=
    Json.read_replicate (by decide)
  rw [Settings.load, Settings.ofDirectory, found]
  dsimp only
  rw [Settings.ofFile, if_neg (by decide), Settings.jsonTable, text]
  dsimp only
  rw [decoded]
  rfl

/-- The scan ends with the overflow, although faulty settings are passed over. -/
theorem changesScan_of_nested_settings :
    let environment := branchlessEnvironment nestedProject
    let names := ["src/List.vue", "main.ts"]
    environment.git.Compares ["main", Git.fallbackBase] "HEAD~1" names ∧
      (∀ name ∈ names, Path.IsPlain name) ∧
      Manifest.Declares environment.workspace environment.root "vue" (.str "^3.4.0") ∧
      (execute environment (changesLine "main")).value.reply =
        .error (.broken (.overflow .jsonList)) := by
  intro environment names
  have root : environment.root = ⟨1, ["proj"]⟩ := root_branchlessEnvironment nestedProject
  have declared :
      Manifest.Declares environment.workspace environment.root "vue" (.str "^3.4.0") := by
    rw [root]
    exact declares_nestedProject
  have room : environment.root.LeavesRoom (Project.longestName + 1) := by
    rw [root]
    exact ⟨by decide, by decide⟩
  have broken : Settings.load environment.workspace environment.root none =
      .error (.broken (.overflow .jsonList)) := by
    rw [root]
    exact load_nestedProject
  refine ⟨compares_branchless, by decide, declared, ?_⟩
  rw [reply_execute_changesLine,
    value_runScan_of_changed compares_branchless (List.cons_ne_nil _ _),
    examined_of_broken (decoded_branchlessEnvironment _) room declared names broken]

end Command

end Checkup
