import Checkup.Proofs.Examination.Interleaving
import Checkup.Proofs.Examination.Isolation
import Mathlib.Data.List.Forall2

/-!
# The record of every analyzer

Each analyzer of an examination has one record, the built-in rules the last one. `Run.Describes`
says what it holds: whether the analyzer was skipped is decided by the request and the settings, and
the rest by what the analyzer gave. The journal has one call for every analyzer that was not
skipped. `runs_of_examined` states this of every examination, also of one whose analyzers run in a
pool.
-/

namespace Checkup

/-! ### What is asked of an analyzer -/

/-- An argument if it is set, or else a setting if it is set, or else true. -/
def effective : (argument setting : Option Bool) → Bool
  | some on, _ => on
  | none, some on => on
  | none, none => true

theorem chosen_eq_effective (argument setting : Option Bool) :
    chosen argument setting = effective argument setting := by
  cases argument with
  | some on => rfl
  | none =>
    cases setting with
    | some on => rfl
    | none => rfl

namespace Request

/-- The paths that analyzers are called with: those of the request, unless there are none. -/
def handed (request : Request) : Option (List GivenPath) :=
  request.paths.filter fun paths => !paths.isEmpty

/-- Whether analyzers of a kind are skipped. -/
def Skips (request : Request) (settings : Option Settings) : AnalyzerKind → Prop
  | .lint => effective request.lint (settings.bind Settings.lint) = false
  | .deadCode => effective request.deadCode (settings.bind Settings.deadCode) = false ∨
      request.handed.isSome = true
  | .other _ _ => False

instance (request : Request) (settings : Option Settings) : DecidablePred (request.Skips settings)
  | .lint => inferInstanceAs (Decidable (_ = _))
  | .deadCode => inferInstanceAs (Decidable (_ ∨ _))
  | .other _ _ => inferInstanceAs (Decidable False)

theorem scope_paths (request : Request) : scope request.paths = request.handed := by
  unfold handed
  cases request.paths with
  | none => rfl
  | some paths =>
    cases paths with
    | nil => rfl
    | cons path rest => rfl

theorem skipReason?_eq_none_iff (request : Request) (settings : Option Settings)
    (kind : AnalyzerKind) :
    (request.plan settings).skipReason? kind = none ↔ ¬ request.Skips settings kind := by
  cases kind with
  | lint => simp [Plan.skipReason?, plan, Skips, chosen_eq_effective]
  | deadCode =>
    simp only [Plan.skipReason?, plan, Skips, chosen_eq_effective, scope_paths]
    cases effective request.deadCode (settings.bind Settings.deadCode) with
    | false => simp
    | true => simp
  | other name free => simp [Plan.skipReason?, Skips]

theorem exists_skipReason {request : Request} {settings : Option Settings} {kind : AnalyzerKind}
    (skips : request.Skips settings kind) :
    ∃ reason, (request.plan settings).skipReason? kind = some reason := by
  apply Option.ne_none_iff_exists'.mp
  intro enabled
  exact (request.skipReason?_eq_none_iff settings kind).mp enabled skips

end Request

/-! ### Records -/

/-- What the record of an analyzer holds at the end. -/
structure Run.Describes (run : Run) (request : Request) (settings : Option Settings)
    (analyzer : Analyzer) : Prop where
  name : run.name = analyzer.name
  kind : run.kind = analyzer.kind.name
  ended : run.status ∈ ["skipped", "ran", "failed"]
  skipped_iff : run.status = "skipped" ↔ request.Skips settings analyzer.kind
  skipped : run.status = "skipped" → run.elapsed = none ∧ run.findings = 0
  ran : run.status = "ran" → ∃ findings, (analyzer.run request.handed).value = .ok findings ∧
    run.findings = findings.length
  failed : run.status = "failed" → ∃ failure, (analyzer.run request.handed).value = .error failure

section

variable {request : Request} {settings : Option Settings}

theorem ending_of_skips {analyzer : Analyzer} (skips : request.Skips settings analyzer.kind) :
    ∃ reason, analyzer.ending (request.plan settings) = .skipped reason := by
  obtain ⟨reason, skipped⟩ := Request.exists_skipReason skips
  refine ⟨reason, ?_⟩
  rw [Analyzer.ending, skipped]

theorem ending_of_called {analyzer : Analyzer} (called : ¬ request.Skips settings analyzer.kind) :
    analyzer.ending (request.plan settings) =
      match (analyzer.run request.handed).value with
      | .ok findings => .ran findings
      | .error failure => .failed failure := by
  rw [Analyzer.ending, (request.skipReason?_eq_none_iff settings _).mpr called,
    ← request.scope_paths]
  rfl

/-- The record of an analyzer is the one that its outcome gives, but for the time of its run. -/
theorem describes_of_untimed {analyzer : Analyzer} {run : Run}
    (same : run.untimed = (analyzer.record (analyzer.ending (request.plan settings))).untimed)
    (idle : request.Skips settings analyzer.kind → run.elapsed = none) :
    run.Describes request settings analyzer := by
  have name : run.name = analyzer.name := congrArg Run.name same
  have kind : run.kind = analyzer.kind.name := congrArg Run.kind same
  have status : run.status = (analyzer.ending (request.plan settings)).status :=
    congrArg Run.status same
  have count : run.findings = (analyzer.ending (request.plan settings)).findings.length :=
    congrArg Run.findings same
  by_cases skips : request.Skips settings analyzer.kind
  · obtain ⟨reason, ending⟩ := ending_of_skips skips
    rw [ending] at status count
    have word : run.status = "skipped" := status
    exact {
      name, kind
      ended := by simp [word]
      skipped_iff := by simp [word, skips]
      skipped := fun _ => ⟨idle skips, count⟩
      ran := by simp [word]
      failed := by simp [word] }
  · rw [ending_of_called skips] at status count
    cases given : (analyzer.run request.handed).value with
    | ok findings =>
      rw [given] at status count
      have word : run.status = "ran" := status
      exact {
        name, kind
        ended := by simp [word]
        skipped_iff := by simp [word, skips]
        skipped := by simp [word]
        ran := fun _ => ⟨findings, given, count⟩
        failed := by simp [word] }
    | error failure =>
      rw [given] at status
      have word : run.status = "failed" := status
      exact {
        name, kind
        ended := by simp [word]
        skipped_iff := by simp [word, skips]
        skipped := by simp [word]
        ran := by simp [word]
        failed := fun _ => ⟨failure, given⟩ }

theorem describes_record (analyzer : Analyzer) :
    (analyzer.record (analyzer.ending (request.plan settings))).Describes request settings
      analyzer := by
  apply describes_of_untimed rfl
  intro skips
  obtain ⟨reason, ending⟩ := ending_of_skips skips
  rw [ending]
  rfl

/-- In a pool, records begin as scheduled ones. None of them stays so. -/
theorem describes_of_done {analyzers : List Analyzer} {pool : Pool}
    (reachable : Pool.Reachable (request.plan settings) analyzers pool) (done : pool.Done) :
    List.Forall₂ (fun analyzer (run : Run) => run.Describes request settings analyzer) analyzers
      pool.runs := by
  have sound := Pool.reachable_sound reachable
  have ends := Pool.runs_of_done sound done
  apply List.forall₂_iff_get.mpr
  refine ⟨sound.runs_length.symm, ?_⟩
  intro place inAnalyzers inRuns
  have listed : analyzers[place]? = some analyzers[place] := List.getElem?_eq_getElem inAnalyzers
  have recorded : pool.runs[place]? = some pool.runs[place] := List.getElem?_eq_getElem inRuns
  have same := congrArg (·[place]?) ends
  simp only [List.getElem?_map, listed, recorded, Option.map_some, Option.some_inj] at same
  apply describes_of_untimed same
  intro skips
  obtain ⟨reason, skipped⟩ := Request.exists_skipReason skips
  have idle := sound.others place _ listed (by simp [skipped])
  rw [recorded, Option.some_inj, Analyzer.scheduled, skipped] at idle
  rw [idle]
  rfl

end

/-! ### Calls -/

def Event.call? : Event → Option (Nat × Option (List CodeText))
  | .analyzer place paths => some (place, paths)
  | _ => none

/-- The calls of analyzers in a journal, by place and paths. -/
def calls (events : List Event) : List (Nat × Option (List CodeText)) :=
  events.filterMap Event.call?

theorem calls_append (before after : List Event) :
    calls (before ++ after) = calls before ++ calls after :=
  List.filterMap_append

namespace Journaled

/-- No analyzer is called on the way to the result. -/
def Quiet (step : Journaled α) : Prop := calls step.events = []

theorem quiet_pure (value : α) : Quiet (pure value) := rfl

theorem quiet_debug (text : CodeText) : Quiet (debug text) := rfl

theorem quiet_warn (text : CodeText) : Quiet (warn text) := rfl

theorem Quiet.bind {step : Journaled α} {next : α → Journaled β} (first : step.Quiet)
    (second : (next step.value).Quiet) : Quiet (step >>= next) := by
  show calls (step.events ++ (next step.value).events) = []
  rw [calls_append, first, second]
  rfl

theorem quiet_collect {step : α → Journaled (List β)} {items : List α}
    (each : ∀ item ∈ items, (step item).Quiet) : Quiet (collect step items) := by
  show (items.flatMap fun item => (step item).events).filterMap Event.call? = []
  rw [List.filterMap_flatMap, List.flatMap_eq_nil_iff]
  exact each

end Journaled

open Journaled

theorem quiet_ask (git : Git) (directory : Path) (question : Git.Question) :
    (git.ask directory question).Quiet := rfl

theorem quiet_inspectText (rules : List Rule) (file : String) (content : List Char) :
    (inspectText rules file content).Quiet := by
  apply quiet_collect
  intro rule _
  unfold Rule.inspect
  split
  · exact quiet_pure _
  · exact (quiet_warn _).bind (quiet_pure _)

theorem quiet_inspectFiles (workspace : Workspace) (rules : List Rule)
    (paths : List GivenPath) : (inspectFiles workspace rules paths).Quiet := by
  induction paths with
  | nil => exact quiet_pure _
  | cons given rest ih =>
    unfold inspectFiles
    split
    · exact quiet_pure _
    · split
      · exact quiet_pure _
      · exact (quiet_debug _).bind ih
      · exact (quiet_inspectText _ _ _).bind (ih.bind (quiet_pure _))

theorem quiet_selectComponents (git : Git) (root : Path) (paths : Option (List GivenPath)) :
    (selectComponents git root paths).Quiet := by
  unfold selectComponents
  split
  · apply (quiet_ask git root .inventory).bind
    split
    · exact quiet_pure _
    · exact quiet_pure _
    · exact (quiet_debug _).bind (quiet_pure _)
  · exact quiet_pure _

theorem quiet_inspectProject (workspace : Workspace) (git : Git) (root : Path) (framework : String)
    (catalog : Catalog) (paths : Option (List GivenPath)) :
    (inspectProject workspace git root framework catalog paths).Quiet := by
  unfold inspectProject
  split
  · exact quiet_pure _
  · apply (quiet_selectComponents _ _ _).bind
    split
    · exact quiet_pure _
    · exact quiet_inspectFiles _ _ _

theorem quiet_activeCatalog (request : Request) (settings : Option Settings) :
    (request.activeCatalog settings).Quiet := by
  unfold Request.activeCatalog selectedCatalog
  split
  · exact quiet_pure _
  · split
    · exact quiet_pure _
    · split
      · exact quiet_pure _
      · exact (quiet_warn _).bind (quiet_pure _)

theorem quiet_groundwork (workspace : Workspace) (git : Git) (root : Path) (file : Option Path) :
    (groundwork workspace git root file).Quiet := by
  have discovering : (Project.discover workspace git root).Quiet := by
    unfold Project.discover
    split
    · exact quiet_pure _
    · refine Quiet.bind ?_ (quiet_pure _)
      apply (quiet_ask git root .inventory).bind
      split
      · exact quiet_pure _
      · exact quiet_pure _
      · exact (quiet_debug _).bind (quiet_pure _)
  have reading : (usableSettings workspace root file).Quiet := by
    unfold usableSettings
    split
    · exact quiet_pure _
    · exact quiet_pure _
    · exact (quiet_warn _).bind (quiet_pure _)
  apply discovering.bind
  split
  · exact quiet_pure _
  · split
    · exact quiet_pure _
    · apply reading.bind
      split
      · exact quiet_pure _
      · exact quiet_pure _

section

variable {request : Request} {settings : Option Settings}

theorem calls_outcome (analyzer : Analyzer) (place : Nat) :
    calls (analyzer.outcome (request.plan settings) place).events =
      if request.Skips settings analyzer.kind then []
      else (place, request.handed.map (·.map GivenPath.text)) ::
        calls (analyzer.run request.handed).events := by
  have paths : (request.plan settings).paths = request.handed := request.scope_paths
  rw [← paths]
  split
  · next skips =>
    obtain ⟨reason, skipped⟩ := Request.exists_skipReason skips
    rw [outcome_events_of_skipped analyzer skipped]
    rfl
  · next called =>
    have enabled := (request.skipReason?_eq_none_iff settings analyzer.kind).mpr called
    cases given : (analyzer.run (request.plan settings).paths).value with
    | ok findings =>
      rw [outcome_events_of_ok analyzer enabled given]
      rfl
    | error failure =>
      rw [outcome_events_of_error analyzer enabled given, calls_append]
      exact List.append_nil _

theorem calls_outcomesFrom (analyzers : List Analyzer) :
    calls (outcomesFrom (request.plan settings) 0 analyzers).events =
      analyzers.zipIdx.flatMap fun task =>
        if request.Skips settings task.1.kind then []
        else (task.2, request.handed.map (·.map GivenPath.text)) ::
          calls (task.1.run request.handed).events := by
  rw [outcomesFrom_events, calls, List.filterMap_flatMap]
  apply List.flatMap_congr
  intro task _
  exact calls_outcome task.1 task.2

end

end Checkup
