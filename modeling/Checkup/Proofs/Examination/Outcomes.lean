import Checkup.Examination

/-!
# Outcomes of analyzers

How the runs of analyzers end, one after the other. `findings_examineUnder` and `runs_examineUnder`
say what an examination makes of it, and `examine_value` when there is one. What comes before the
first analyzer is the same for all analyzers (`examine_eq_groundwork`).
-/

namespace Checkup

/-- How an analyzer's run ends under a plan. -/
def Analyzer.ending (analyzer : Analyzer) (plan : Plan) : Outcome :=
  match plan.skipReason? analyzer.kind with
  | some reason => .skipped reason
  | none =>
    match (analyzer.run plan.paths).value with
    | .ok findings => .ran findings
    | .error failure => .failed failure

theorem outcome_value (analyzer : Analyzer) (plan : Plan) (position : Nat) :
    (analyzer.outcome plan position).value = analyzer.ending plan := by
  unfold Analyzer.outcome Analyzer.ending
  cases plan.skipReason? analyzer.kind with
  | some reason => rfl
  | none =>
    show (match (analyzer.run plan.paths).value with
      | .ok findings => _
      | .error failure => _ : Journaled Outcome).value = _
    cases (analyzer.run plan.paths).value with
    | ok findings => rfl
    | error failure => rfl

theorem outcomesFrom_value (plan : Plan) (position : Nat) (analyzers : List Analyzer) :
    (outcomesFrom plan position analyzers).value = analyzers.map (·.ending plan) := by
  induction analyzers generalizing position with
  | nil => rfl
  | cons analyzer rest ih =>
    show (analyzer.outcome plan position).value :: (outcomesFrom plan (position + 1) rest).value = _
    rw [outcome_value, ih, List.map_cons]

/-- The findings that a run of an analyzer hands over. -/
def handedOver : Except Failure (List Finding) → List Finding
  | .ok findings => findings
  | .error _ => []

theorem findings_ending (analyzer : Analyzer) (plan : Plan) :
    (analyzer.ending plan).findings =
      if (plan.skipReason? analyzer.kind).isNone then handedOver (analyzer.run plan.paths).value
      else [] := by
  unfold Analyzer.ending
  cases plan.skipReason? analyzer.kind with
  | some reason => rfl
  | none =>
    cases (analyzer.run plan.paths).value with
    | ok findings => rfl
    | error failure => rfl

/-! ### Examinations -/

/-- All analyzers of an examination, the built-in rules last. -/
def Request.allAnalyzers (request : Request) (workspace : Workspace) (git : Git) (root : Path)
    (project : Project) (settings : Option Settings) : List Analyzer :=
  request.analyzers ++ [ruleAnalyzer workspace git root project.framework
    (request.activeCatalog settings).value]

section

variable (workspace : Workspace) (git : Git) (root : Path) (request : Request) (project : Project)
  (settings : Option Settings)

theorem findings_examineUnder :
    (examineUnder workspace git root request project settings).value.findings =
      Report.combine root (Settings.suppressionOf settings)
        ((request.allAnalyzers workspace git root project settings).map fun analyzer =>
          (analyzer.ending (request.plan settings)).findings) := by
  show Report.combine root _ ((outcomesFrom (request.plan settings) 0
    (request.allAnalyzers workspace git root project settings)).value.map Outcome.findings) = _
  rw [outcomesFrom_value, List.map_map]
  rfl

theorem runs_examineUnder :
    (examineUnder workspace git root request project settings).value.runs =
      (request.allAnalyzers workspace git root project settings).map fun analyzer =>
        analyzer.record (analyzer.ending (request.plan settings)) := by
  show List.zipWith Analyzer.record (request.allAnalyzers workspace git root project settings)
    (outcomesFrom (request.plan settings) 0
      (request.allAnalyzers workspace git root project settings)).value = _
  rw [outcomesFrom_value, List.zipWith_map_right, List.zipWith_self]

theorem findings_examineUnder_of_alone (alone : request.analyzers = []) :
    (examineUnder workspace git root request project settings).value.findings =
      Report.combine root (Settings.suppressionOf settings)
        [if (request.plan settings).lint then
          handedOver (inspectProject workspace git root project.framework
            (request.activeCatalog settings).value (scope request.paths)).value
        else []] := by
  rw [findings_examineUnder, Request.allAnalyzers, alone, List.nil_append, List.map_singleton,
    findings_ending]
  show Report.combine root _ [if ((request.plan settings).skipReason? .lint).isNone then _
    else []] = _
  rw [Plan.skipReason?]
  cases (request.plan settings).lint with
  | false => rfl
  | true => rfl

theorem events_examineUnder :
    (examineUnder workspace git root request project settings).events =
      (request.activeCatalog settings).events ++
        (outcomesFrom (request.plan settings) 0
          (request.allAnalyzers workspace git root project settings)).events := by
  show _ ++ (_ ++ []) = _
  rw [List.append_nil]
  rfl

theorem examine_value :
    (examine workspace git root request).value =
      match (Project.discover workspace git root).value with
      | .error breakdown => .error (.broken breakdown)
      | .ok project =>
        if project.vueVersion.isNone then .error .noVue
        else match (usableSettings workspace root request.settingsFile).value with
          | .error breakdown => .error (.broken breakdown)
          | .ok settings =>
            .ok (examineUnder workspace git root request project settings).value := by
  show Journaled.value (match (Project.discover workspace git root).value with
    | .error breakdown => _
    | .ok project => _) = _
  cases (Project.discover workspace git root).value with
  | error breakdown => rfl
  | ok project =>
    dsimp only
    by_cases vue : project.vueVersion.isNone = true
    · rw [if_pos vue, if_pos vue]
      rfl
    · rw [if_neg vue, if_neg vue]
      show Journaled.value (match (usableSettings workspace root request.settingsFile).value with
        | .error breakdown => _
        | .ok settings => _) = _
      cases (usableSettings workspace root request.settingsFile).value with
      | error breakdown => rfl
      | ok settings => rfl

end

/-- What an examination has to know before it runs any analyzer. -/
def groundwork (workspace : Workspace) (git : Git) (root : Path) (file : Option Path) :
    Journaled (Except NotExamined (Project × Option Settings)) := do
  match ← Project.discover workspace git root with
  | .error breakdown => return .error (.broken breakdown)
  | .ok project =>
    if project.vueVersion.isNone then return .error .noVue
    match ← usableSettings workspace root file with
    | .error breakdown => return .error (.broken breakdown)
    | .ok settings => return .ok (project, settings)

theorem examine_eq_groundwork (workspace : Workspace) (git : Git) (root : Path)
    (request : Request) :
    examine workspace git root request =
      match groundwork workspace git root request.settingsFile with
      | ⟨.error reason, events⟩ => ⟨.error reason, events⟩
      | ⟨.ok (project, settings), events⟩ =>
        let examined := examineUnder workspace git root request project settings
        ⟨.ok examined.value, events ++ examined.events⟩ := by
  unfold examine groundwork
  simp only [bind, pure]
  cases (Project.discover workspace git root).value with
  | error breakdown => rfl
  | ok project =>
    dsimp only
    split
    · rfl
    · cases (usableSettings workspace root request.settingsFile).value with
      | error breakdown => rfl
      | ok settings => simp

end Checkup
