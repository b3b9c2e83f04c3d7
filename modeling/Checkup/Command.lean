import Checkup.Command.Arguments
import Checkup.Examination
import Checkup.Render.Human
import Checkup.Render.Payload
import Checkup.Text.Similarity

/-!
# The command line

Four commands: one scans a project, one lists the rules, one shows the settings in force and one
writes a file of settings to start from. `Command.parse` reads a command from its arguments, and
`Command.run` carries it out in an environment. A command is the only thing that changes a
workspace, and only the last of the four does. Two options of the program itself set up the
completion of its command lines; what comes of them is up to the shell.
-/

namespace Checkup

inductive Format where
  | human
  | json

namespace Command

inductive Completion where
  | install
  | show

structure Scan where
  directory : Path
  lint : Option Bool
  deadCode : Option Bool
  verbose : Bool
  scoreOnly : Bool
  /-- Whether only the files that changed since `base` are scanned. -/
  changesOnly : Bool
  base : String
  fix : Bool
  format : Format
  settingsFile : Option Path

end Command

inductive Command where
  | showVersion
  | showUsage
  | complete (completion : Command.Completion)
  | scanProject (scan : Command.Scan)
  | listRules (format : Format)
  | showSettings (directory : Path) (format : Format) (file : Option Path)
  | writeStarter (target : Path) (overwrite : Bool)

namespace Command

inductive Fault where
  | usage (fault : UsageFault) (words : List String)
  | nullCharacter
  | unknownFormat
  | settings (fault : Settings.Fault)
  | wouldOverwrite (path : Path)
  | broken (breakdown : Breakdown)
  | unwritable (reason : Diagnosis.Unwritable)

namespace Fault

def message : Fault → String
  | .usage fault words => suggesting fault.message words
  | .nullCharacter => "Value error, " ++ PathFault.nullCharacter.message
  | .unknownFormat => "format must be one of: human, json"
  | .settings fault => fault.message
  | .wouldOverwrite path =>
    "Refusing to overwrite existing file: " ++ path.text ++ ". Use --force to overwrite."
  | .broken breakdown => breakdown.message
  | .unwritable reason => reason.message

/-- The status with which the program ends: a breakdown differs from a misuse. -/
def status : Fault → Nat
  | .broken _ | .unwritable _ => 1
  | _ => 2

end Fault

/-! ### Reading a command -/

def names : List String := ["scan", "rules", "config", "config-init"]

def formatNamed (name : String) : Except Fault Format :=
  match String.ofList (name.toList.map Char.toLower) with
  | "human" => .ok .human
  | "json" => .ok .json
  | _ => .error .unknownFormat

/-- The texts that are given as paths, where that many of the arguments are no options. -/
def pathTexts (grammar : Grammar) (others : Nat) (parts : Arguments) : List String :=
  grammar.paths.filterMap parts.value? ++ parts.others.take others

/-- The parts of a command's arguments, of which so many may be no options. They are paths. -/
def readParts (grammar : Grammar) (others : Nat) (arguments : List String) :
    Except Fault Arguments :=
  match grammar.read arguments with
  | .error misuse => .error (.usage misuse.fault [])
  | .ok parts =>
    if parts.has "--help" then .ok parts
    else if (pathTexts grammar others parts).any fun text => text.toList.contains '\x00' then
      .error .nullCharacter
    else match parts.others.drop others with
      | [] => .ok parts
      | extra => .error (.usage (.extraArguments extra) [])

def pathOf? (parts : Arguments) (option : String) : Option Path :=
  (parts.value? option).map Path.ofString

def formatOf (parts : Arguments) : Except Fault Format :=
  formatNamed ((parts.value? "--format").getD "human")

def scanGrammar : Grammar :=
  { flags :=
      ["--lint", "--no-lint", "--dead-code", "--no-dead-code", "--verbose", "--score", "--diff",
        "--fix", "--help"]
    valued := ["--base", "--format", "--config"]
    paths := ["--config"] }

def parseScan (arguments : List String) : Except Fault Command := do
  let parts ← readParts scanGrammar 1 arguments
  if parts.has "--help" then return .showUsage
  return .scanProject {
    directory := .ofString (parts.others.head?.getD ".")
    lint := parts.choice? "--lint" "--no-lint"
    deadCode := parts.choice? "--dead-code" "--no-dead-code"
    verbose := parts.has "--verbose"
    scoreOnly := parts.has "--score"
    changesOnly := parts.has "--diff"
    base := (parts.value? "--base").getD Git.defaultBase
    fix := parts.has "--fix"
    format := ← formatOf parts
    settingsFile := pathOf? parts "--config" }

def parseRules (arguments : List String) : Except Fault Command := do
  let parts ← readParts { flags := ["--help"], valued := ["--format"] } 0 arguments
  if parts.has "--help" then return .showUsage
  return .listRules (← formatOf parts)

def parseSettings (arguments : List String) : Except Fault Command := do
  let grammar : Grammar :=
    { flags := ["--help"]
      valued := ["--directory", "--format", "--config"]
      paths := ["--directory", "--config"] }
  let parts ← readParts grammar 0 arguments
  if parts.has "--help" then return .showUsage
  let directory := Path.ofString ((parts.value? "--directory").getD ".")
  return .showSettings directory (← formatOf parts) (pathOf? parts "--config")

def parseStart (arguments : List String) : Except Fault Command := do
  let grammar : Grammar :=
    { flags := ["--force", "--help"], valued := ["--out"], paths := ["--out"] }
  let parts ← readParts grammar 0 arguments
  if parts.has "--help" then return .showUsage
  let target := Path.ofString ((parts.value? "--out").getD ".vue-doctor.toml")
  return .writeStarter target (parts.has "--force")

def rootGrammar : Grammar :=
  { flags := ["--version", "-v", "--install-completion", "--show-completion", "--help"]
    interspersed := false }

/-- What the options before a command's name ask for: help, or else whatever the first asks for. -/
def immediate? (parts : Arguments) : Option Command :=
  if parts.has "--help" then some .showUsage
  else parts.flags.head?.map fun flag =>
    match flag with
    | "--install-completion" => .complete .install
    | "--show-completion" => .complete .show
    | _ => .showVersion

/-- The commands that may have been meant by the first argument that was not read. -/
def wordsFor (unread : List String) : List String :=
  match unread with
  | [] => []
  | argument :: _ => Text.closeWords argument names

/-- What a command line asks for whose first argument names no command. An option behind two dashes
still counts as one. -/
def parseUnknown (name : String) (arguments : List String) : Except Fault Command :=
  match rootGrammar.read arguments with
  | .error misuse => .error (.usage misuse.fault (wordsFor misuse.unread))
  | .ok parts =>
    match immediate? parts with
    | some command => .ok command
    | none => .error (.usage (.noSuchCommand name) (wordsFor parts.others))

def parseNamed : List String → Except Fault Command
  | [] => .error (.usage .missingCommand [])
  | "scan" :: rest => parseScan rest
  | "rules" :: rest => parseRules rest
  | "config" :: rest => parseSettings rest
  | "config-init" :: rest => parseStart rest
  | name :: rest => parseUnknown name (name :: rest)

/-- The command on a command line. An empty one asks how the program is used. -/
def parse (arguments : List String) : Except Fault Command :=
  if arguments.isEmpty then .ok .showUsage
  else match rootGrammar.read arguments with
    | .error misuse => .error (.usage misuse.fault [])
    | .ok parts =>
      match immediate? parts with
      | some command => .ok command
      | none => parseNamed parts.others

/-! ### Carrying out a command -/

structure Reply where
  status : Nat := 0
  output : CodeText := ""
  errors : List String := []

structure Result where
  reply : Except Fault Reply
  workspace : Workspace

structure Environment where
  workspace : Workspace
  git : Git
  /-- The directory from which relative paths are seen. -/
  directory : Path
  now : String
  /-- How long the command takes, in milliseconds. -/
  elapsed : Float := 0.0
  /-- What becomes of a request for completion. The shell's own files may be in the workspace. -/
  completed : Completion → Result

/-- A text as it is written where styles are not shown. -/
def printed (text : CodeText) : CodeText := Ansi.strip text ++ "\n"

def Reply.ofTexts (texts : List CodeText) : Reply := { output := .join (texts.map printed) }

def humanTexts (scan : Scan) (diagnosis : Diagnosis) (changed : Option (List Path)) :
    List CodeText :=
  let verbose := scan.verbose || (diagnosis.settings.bind Settings.verbose).getD false
  let mode := match changed with
    | some paths =>
      [Ansi.dim ("  Mode: diff (" ++ toString paths.length ++ " changed files)\n")]
    | none => []
  let findings :=
    if scan.fix then Render.fixes diagnosis.findings
    else if verbose then Render.details diagnosis.findings
    else Render.summary diagnosis.findings
  [Render.project diagnosis.project] ++ mode ++ [findings, Render.score diagnosis]

def scanReply (environment : Environment) (scan : Scan) (diagnosis : Diagnosis)
    (changes : Option Git.Changes) : Except Fault Reply :=
  if scan.scoreOnly then .ok (.ofTexts [Render.scoreOnly diagnosis.health])
  else match scan.format with
    | .json =>
      match diagnosis.json environment.now (changes.map Git.Changes.base) with
      | .ok text => .ok (.ofTexts [text])
      | .error reason => .error (.unwritable reason)
    | .human => .ok (.ofTexts (humanTexts scan diagnosis (changes.map Git.Changes.files)))

def examineFor (environment : Environment) (scan : Scan) (root : Path)
    (changes : Option Git.Changes) : Journaled (Except Fault Reply) := do
  let request : Request :=
    { lint := scan.lint
      deadCode := scan.deadCode
      paths := changes.map fun changes => changes.files.map .ofPath
      settingsFile := scan.settingsFile }
  match ← examine environment.workspace environment.git root request with
  | .error (.broken breakdown) => return .error (.broken breakdown)
  | .error reason => return .ok { status := 1, errors := ["error: " ++ reason.message] }
  | .ok diagnosis =>
    return scanReply environment scan { diagnosis with elapsed := environment.elapsed } changes

def runScan (environment : Environment) (scan : Scan) : Journaled (Except Fault Reply) := do
  let root := environment.directory.resolve scan.directory
  if scan.changesOnly then
    match ← environment.git.changes root scan.base with
    | .error breakdown => return .error (.broken breakdown)
    | .ok changes =>
      if changes.files.isEmpty then
        return .ok (.ofTexts ["No changed files found — nothing to scan"])
      examineFor environment scan root (some changes)
  else examineFor environment scan root none

/-- A rule as a value. A restriction to no framework at all is written like none. -/
def ruleValue (rule : Rule) : Value :=
  let frameworks := match rule.frameworks with
    | none | some [] => Value.null
    | some frameworks => .ofStrings frameworks
  .table
    [("rule_id", .str rule.id), ("severity", rule.severity.toValue),
      ("category", .str rule.category), ("kind", .str rule.check.kind), ("frameworks", frameworks),
      ("message", .str rule.message), ("help", .str rule.help)]

def ruleLine (rule : Rule) : CodeText :=
  let scope := match rule.frameworks with
    | none | some [] => ""
    | some frameworks => " (" ++ String.intercalate ", " frameworks ++ " only)"
  "- " ++ rule.id ++ " [" ++ rule.severity.text ++ ", " ++ rule.category ++ "]" ++ scope ++ " - " ++
    rule.message

def rulesText : Format → CodeText
  | .json => Json.write (.table [("rules", .list (Rule.builtin.map ruleValue))])
  | .human => Render.unlines ("Available rules:" :: Rule.builtin.map ruleLine)

def settingsText (settings : Settings) : Format → CodeText
  | .json => Json.write settings.toValue
  | .human =>
    let source := match settings.source with
      | none | some "" => "defaults"
      | some source => source
    let line (field : String) (value : Value) := "- " ++ field ++ ": " ++ value.inner
    Render.unlines
      ["Resolved configuration:", "- source: " ++ source,
        line "ignore.rules" (.ofTexts settings.suppression.rules),
        line "ignore.files" (.ofTexts settings.suppression.files),
        line "rules.enable" (.ofOption Value.ofTexts settings.enable),
        line "rules.disable" (.ofTexts settings.disable),
        line "lint" (.ofOption .bool settings.lint),
        line "dead_code" (.ofOption .bool settings.deadCode),
        line "verbose" (.ofOption .bool settings.verbose)]

def runSettings (environment : Environment) (directory : Path) (format : Format)
    (file : Option Path) : Except Fault Reply :=
  let root := environment.directory.resolve directory
  match Settings.load environment.workspace root file with
  | .ok settings => .ok (.ofTexts [settingsText (settings.getD {}) format])
  | .error (.broken breakdown) => .error (.broken breakdown)
  | .error fault => .error (.settings fault)

def runStart (environment : Environment) (target : Path) (overwrite : Bool) : Result :=
  let path := environment.directory.resolve target
  match environment.workspace.has path with
  | .error fault => ⟨.error (.broken (.path fault)), environment.workspace⟩
  | .ok present =>
    if present && !overwrite then ⟨.error (.wouldOverwrite path), environment.workspace⟩
    else match environment.workspace.createFile path.parts Settings.starter with
      | (workspace, .error fault) => ⟨.error (.broken (.path fault)), workspace⟩
      | (workspace, .ok ()) => ⟨.ok (.ofTexts ["Wrote starter config: " ++ path.text]), workspace⟩

def usageText : CodeText :=
  Render.unlines
    ["Usage: vue-doctor [--version] COMMAND [ARGS]...", "",
      "  scan [DIRECTORY] [--lint|--no-lint] [--dead-code|--no-dead-code] [--verbose] [--score]",
      "       [--diff] [--base REVISION] [--fix] [--format human|json] [--config FILE]",
      "  rules [--format human|json]",
      "  config [--directory DIRECTORY] [--format human|json] [--config FILE]",
      "  config-init [--out FILE] [--force]"]

def run (environment : Environment) : Command → Journaled Result
  | .showVersion => pure ⟨.ok (.ofTexts [Checkup.version]), environment.workspace⟩
  | .showUsage => pure ⟨.ok (.ofTexts [usageText]), environment.workspace⟩
  | .complete completion => pure (environment.completed completion)
  | .scanProject scan => do return ⟨← runScan environment scan, environment.workspace⟩
  | .listRules format => pure ⟨.ok (.ofTexts [rulesText format]), environment.workspace⟩
  | .showSettings directory format file =>
    pure ⟨runSettings environment directory format file, environment.workspace⟩
  | .writeStarter target overwrite => pure (runStart environment target overwrite)

def execute (environment : Environment) (arguments : List String) : Journaled Result :=
  match parse arguments with
  | .error fault => pure ⟨.error fault, environment.workspace⟩
  | .ok command => command.run environment

end Command

end Checkup
