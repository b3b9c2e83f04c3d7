import Checkup.Health
import Checkup.Selection
import Checkup.Settings.Source

/-!
# Examining a project

Analyzers look at a project and report findings; the built-in rules are the last of them. Settings
and arguments decide which are run. An analyzer that breaks down reports nothing, and its run says
why. The reports are combined in the order of the analyzers, whichever finishes first.
-/

namespace Checkup

/-! ### Analyzers -/

inductive AnalyzerKind where
  | lint
  | deadCode
  | other (name : String) (free : name ∉ ["lint", "dead-code"])

namespace AnalyzerKind

def ofName (name : String) : AnalyzerKind :=
  if free : name ∉ ["lint", "dead-code"] then .other name free
  else if name = "lint" then .lint else .deadCode

def name : AnalyzerKind → String
  | .lint => "lint"
  | .deadCode => "dead-code"
  | .other name _ => name

end AnalyzerKind

/-- A source of findings, for some paths or for the whole project. -/
structure Analyzer where
  name : String
  kind : AnalyzerKind
  run : Option (List GivenPath) → Journaled (Except Failure (List Finding))

inductive Outcome where
  | skipped (reason : String)
  | ran (findings : List Finding)
  | failed (failure : Failure)

namespace Outcome

def findings : Outcome → List Finding
  | .ran findings => findings
  | _ => []

def status : Outcome → String
  | .skipped _ => "skipped"
  | .ran _ => "ran"
  | .failed _ => "failed"

def reason : Outcome → String
  | .skipped reason => reason
  | .ran _ => "completed"
  | .failed failure => failure.text

end Outcome

structure Run where
  name : String
  kind : String
  status : String
  reason : String
  /-- How long it took, in milliseconds, if it was run. -/
  elapsed : Option Int := none
  findings : Int := 0

def Analyzer.record (analyzer : Analyzer) (outcome : Outcome) : Run :=
  { name := analyzer.name
    kind := analyzer.kind.name
    status := outcome.status
    reason := outcome.reason
    elapsed := match outcome with
      | .skipped _ => none
      | _ => some 0
    findings := outcome.findings.length }

/-! ### Running analyzers -/

structure Plan where
  lint : Bool
  deadCode : Bool
  /-- The paths to look at, if not at the whole project. -/
  paths : Option (List GivenPath)

def Plan.skipReason? (plan : Plan) (kind : AnalyzerKind) : Option String :=
  match kind with
  | .lint => if plan.lint then none else some "lint disabled"
  | .deadCode =>
    if !plan.deadCode then some "dead code detection disabled"
    else if plan.paths.isSome then some "not run in diff mode"
    else none
  | .other _ _ => none

def Analyzer.outcome (analyzer : Analyzer) (plan : Plan) (position : Nat) : Journaled Outcome :=
  match plan.skipReason? analyzer.kind with
  | some reason => pure (.skipped reason)
  | none => do
    Journaled.note (.analyzer position (plan.paths.map (·.map GivenPath.text)))
    match ← analyzer.run plan.paths with
    | .ok findings => return .ran findings
    | .error failure =>
      Journaled.warn ("Analyzer " ++ analyzer.name ++ " failed: " ++ failure.text)
      return .failed failure

def outcomesFrom (plan : Plan) (position : Nat) : List Analyzer → Journaled (List Outcome)
  | [] => pure []
  | analyzer :: rest => do
    let outcome ← analyzer.outcome plan position
    let outcomes ← outcomesFrom plan (position + 1) rest
    return outcome :: outcomes

/-! ### Examinations -/

structure Request where
  lint : Option Bool := none
  deadCode : Option Bool := none
  paths : Option (List GivenPath) := none
  settingsFile : Option Path := none
  /-- The rules to use, whatever the settings say. -/
  catalog : Option Catalog := none
  /-- The analyzers to run before the built-in rules. -/
  analyzers : List Analyzer := []

structure Diagnosis where
  findings : List Finding
  health : Health
  project : Project
  runs : List Run := []
  settings : Option Settings := none
  /-- How long it took, in milliseconds. -/
  elapsed : Float := 0.0

inductive NotExamined where
  | noVue
  | broken (breakdown : Breakdown)

def NotExamined.message : NotExamined → String
  | .noVue =>
    "No Vue dependency found in package.json. " ++
      "Make sure you are running vue-doctor from a Vue project root."
  | .broken breakdown => breakdown.message

/-- The settings of a project. Faulty ones are passed over, unless the fault is a breakdown. -/
def usableSettings (workspace : Workspace) (root : Path) (file : Option Path) :
    Journaled (Except Breakdown (Option Settings)) :=
  match Settings.load workspace root file with
  | .ok settings => pure (.ok settings)
  | .error (.broken breakdown) => pure (.error breakdown)
  | .error fault => do
    Journaled.warn ("Ignoring invalid configuration: " ++ fault.message)
    return .ok none

/-- The rules that the settings select. A faulty selection is passed over. -/
def selectedCatalog : Option Settings → Journaled Catalog
  | none => pure .builtin
  | some settings =>
    match Catalog.select settings.enable (some settings.disable) with
    | .ok catalog => pure catalog
    | .error fault => do
      let source := "Ignoring rule selection from " ++ settings.source.getD "None" ++ ": "
      Journaled.warn (CodeText.ofString source ++ fault.message)
      return .builtin

def ruleAnalyzer (workspace : Workspace) (git : Git) (root : Path) (framework : String)
    (catalog : Catalog) : Analyzer :=
  { name := ruleEngine
    kind := .lint
    run := inspectProject workspace git root framework catalog }

/-- Some paths, unless there are none. -/
def scope : Option (List GivenPath) → Option (List GivenPath)
  | none | some [] => none
  | some paths => some paths

/-- The first choice that was made, by argument or setting; everything is on by default. -/
def chosen (argument setting : Option Bool) : Bool := (argument.or setting).getD true

def Request.plan (request : Request) (settings : Option Settings) : Plan :=
  { lint := chosen request.lint (settings.bind Settings.lint)
    deadCode := chosen request.deadCode (settings.bind Settings.deadCode)
    paths := scope request.paths }

def Request.activeCatalog (request : Request) (settings : Option Settings) : Journaled Catalog :=
  match request.catalog with
  | some catalog => pure catalog
  | none => selectedCatalog settings

def examineUnder (workspace : Workspace) (git : Git) (root : Path) (request : Request)
    (project : Project) (settings : Option Settings) : Journaled Diagnosis := do
  let catalog ← request.activeCatalog settings
  let analyzers :=
    request.analyzers ++ [ruleAnalyzer workspace git root project.framework catalog]
  let outcomes ← outcomesFrom (request.plan settings) 0 analyzers
  let findings :=
    Report.combine root (Settings.suppressionOf settings) (outcomes.map Outcome.findings)
  return {
    findings
    health := .ofFindings findings
    project
    runs := List.zipWith Analyzer.record analyzers outcomes
    settings }

def examine (workspace : Workspace) (git : Git) (root : Path) (request : Request) :
    Journaled (Except NotExamined Diagnosis) := do
  match ← Project.discover workspace git root with
  | .error breakdown => return .error (.broken breakdown)
  | .ok project =>
    if project.vueVersion.isNone then return .error .noVue
    match ← usableSettings workspace root request.settingsFile with
    | .error breakdown => return .error (.broken breakdown)
    | .ok settings => return .ok (← examineUnder workspace git root request project settings)

end Checkup
