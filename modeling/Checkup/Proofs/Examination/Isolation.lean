import Checkup.Proofs.Examination.Pool
import Mathlib.Data.List.Perm.Basic

/-!
# Failures stay where they are

An analyzer that breaks down is to the rest of an examination what an analyzer is that reports
nothing: `examine_of_failures` compares the two examinations, for any choice of the analyzers that
break down. What is left of each failure is its own run and one warning.
-/

namespace Checkup

/-! ### Warnings -/

def Event.warning? : Event → Option CodeText
  | .message .warning text => some text
  | _ => none

/-- The warnings of a journal, in order. -/
def warnings (events : List Event) : List CodeText := events.filterMap Event.warning?

theorem warnings_append (before after : List Event) :
    warnings (before ++ after) = warnings before ++ warnings after :=
  List.filterMap_append

/-- The warning about an analyzer that has broken down. -/
def Analyzer.failureWarning (analyzer : Analyzer) (reason : String) : CodeText :=
  CodeText.ofString ("Analyzer " ++ analyzer.name ++ " failed: " ++ reason)

section

variable {plan : Plan} (analyzer : Analyzer)

theorem outcome_events_of_error {failure : Failure}
    (enabled : plan.skipReason? analyzer.kind = none)
    (raised : (analyzer.run plan.paths).value = .error failure) (position : Nat) :
    (analyzer.outcome plan position).events =
      .analyzer position (plan.paths.map (·.map GivenPath.text)) ::
        (analyzer.run plan.paths).events ++
        [.message .warning (analyzer.failureWarning failure.text)] := by
  rw [Analyzer.failureWarning, CodeText.ofString_append, CodeText.ofString_append,
    CodeText.ofString_append]
  unfold Analyzer.outcome
  rw [enabled]
  simp only [bind, raised]
  rfl

theorem outcome_events_of_ok {findings : List Finding}
    (enabled : plan.skipReason? analyzer.kind = none)
    (ran : (analyzer.run plan.paths).value = .ok findings) (position : Nat) :
    (analyzer.outcome plan position).events =
      .analyzer position (plan.paths.map (·.map GivenPath.text)) ::
        (analyzer.run plan.paths).events := by
  unfold Analyzer.outcome
  rw [enabled]
  simp only [bind, ran]
  exact congrArg (_ :: ·) (List.append_nil _)

theorem outcome_events_of_skipped {reason : String}
    (skipped : plan.skipReason? analyzer.kind = some reason) (position : Nat) :
    (analyzer.outcome plan position).events = [] := by
  unfold Analyzer.outcome
  rw [skipped]
  rfl

end

theorem outcomesFrom_events (plan : Plan) (position : Nat) (analyzers : List Analyzer) :
    (outcomesFrom plan position analyzers).events =
      (analyzers.zipIdx position).flatMap fun task => (task.1.outcome plan task.2).events := by
  induction analyzers generalizing position with
  | nil => rfl
  | cons analyzer rest ih =>
    show (analyzer.outcome plan position).events ++
      ((outcomesFrom plan (position + 1) rest).events ++ []) = _
    rw [List.append_nil, ih, List.zipIdx_cons, List.flatMap_cons]

/-! ### Silenced analyzers -/

/-- The analyzer that leaves the same trace and reports nothing. -/
def Analyzer.silenced (analyzer : Analyzer) : Analyzer :=
  { analyzer with run := fun paths => ⟨.ok [], (analyzer.run paths).events⟩ }

/-- The analyzers with those at some places silenced. -/
def silencedAt (places : List Nat) (analyzers : List Analyzer) : List Analyzer :=
  analyzers.mapIdx fun place analyzer => if place ∈ places then analyzer.silenced else analyzer

/-- The analyzers at some places break down when they are run on some paths. -/
def BreakDownAt (places : List Nat) (analyzers : List Analyzer) (paths : Option (List GivenPath)) :
    Prop :=
  ∀ place ∈ places, ∃ analyzer failure,
    analyzers[place]? = some analyzer ∧ (analyzer.run paths).value = .error failure

section

variable {plan : Plan} {places : List Nat} {analyzers : List Analyzer}

theorem getElem?_silencedAt (place : Nat) :
    (silencedAt places analyzers)[place]? = analyzers[place]?.map fun analyzer =>
      if place ∈ places then analyzer.silenced else analyzer := by
  rw [silencedAt, List.getElem?_mapIdx]

theorem zipIdx_silencedAt :
    (silencedAt places analyzers).zipIdx = analyzers.zipIdx.map fun task =>
      (if task.2 ∈ places then task.1.silenced else task.1, task.2) := by
  refine List.ext_getElem? ?_
  intro place
  rw [List.getElem?_zipIdx, List.getElem?_map, List.getElem?_zipIdx, getElem?_silencedAt,
    Option.map_map, Option.map_map]
  rw [Nat.zero_add]
  rfl

theorem error_of_breakDownAt {paths : Option (List GivenPath)}
    (broken : BreakDownAt places analyzers paths) {place : Nat} {analyzer : Analyzer}
    (chosen : place ∈ places) (listed : analyzers[place]? = some analyzer) :
    ∃ failure, (analyzer.run paths).value = .error failure := by
  obtain ⟨other, failure, same, raised⟩ := broken place chosen
  obtain rfl : other = analyzer := Option.some.inj (same.symm.trans listed)
  exact ⟨failure, raised⟩

theorem length_notMem_of_breakDownAt {paths : Option (List GivenPath)}
    (broken : BreakDownAt places analyzers paths) : analyzers.length ∉ places := by
  intro chosen
  obtain ⟨analyzer, _, listed, _⟩ := broken _ chosen
  rw [List.getElem?_eq_none (Nat.le_refl _)] at listed
  cases listed

theorem findings_silencedAt (broken : BreakDownAt places analyzers plan.paths) :
    (silencedAt places analyzers).map (fun analyzer => (analyzer.ending plan).findings) =
      analyzers.map fun analyzer => (analyzer.ending plan).findings := by
  refine List.ext_getElem? ?_
  intro place
  rw [List.getElem?_map, getElem?_silencedAt, List.getElem?_map]
  cases listed : analyzers[place]? with
  | none => rfl
  | some analyzer =>
    rw [Option.map_some, Option.map_some, Option.map_some, Option.some_inj]
    split
    · next chosen =>
      obtain ⟨failure, raised⟩ := error_of_breakDownAt broken chosen listed
      rw [findings_ending, findings_ending, raised]
      rfl
    · rfl

/-- The warnings about those analyzers at some places that break down when they are run. -/
def Plan.failureWarnings (plan : Plan) (places : List Nat) (analyzers : List Analyzer) :
    List CodeText :=
  ((plan.tasks analyzers).filter fun task => task.2 ∈ places).map fun task =>
    task.1.failureWarning (task.1.ending plan).reason

theorem failureWarnings_eq_flatMap (plan : Plan) (places : List Nat) (analyzers : List Analyzer) :
    plan.failureWarnings places analyzers = analyzers.zipIdx.flatMap fun task =>
      if task.2 ∈ places ∧ plan.skipReason? task.1.kind = none then
        [task.1.failureWarning (task.1.ending plan).reason]
      else [] := by
  rw [Plan.failureWarnings, Plan.tasks, List.filter_filter]
  generalize analyzers.zipIdx = tasks
  induction tasks with
  | nil => rfl
  | cons task rest ih =>
    rw [List.flatMap_cons, ← ih]
    by_cases affected : task.2 ∈ places ∧ plan.skipReason? task.1.kind = none
    · rw [List.filter_cons_of_pos (by simp [affected]), if_pos affected]
      rfl
    · rw [List.filter_cons_of_neg (by simpa using affected), if_neg affected]
      rfl

theorem warnings_outcome (broken : BreakDownAt places analyzers plan.paths) {analyzer : Analyzer}
    {place : Nat} (listed : analyzers[place]? = some analyzer) :
    warnings (analyzer.outcome plan place).events =
      warnings
          ((if place ∈ places then analyzer.silenced else analyzer).outcome plan place).events ++
        if place ∈ places ∧ plan.skipReason? analyzer.kind = none then
          [analyzer.failureWarning (analyzer.ending plan).reason]
        else [] := by
  by_cases chosen : place ∈ places
  · obtain ⟨failure, raised⟩ := error_of_breakDownAt broken chosen listed
    rw [if_pos chosen]
    cases skipped : plan.skipReason? analyzer.kind with
    | some reason =>
      rw [outcome_events_of_skipped analyzer skipped,
        outcome_events_of_skipped analyzer.silenced skipped, if_neg (by simp)]
      rfl
    | none =>
      have text : (analyzer.ending plan).reason = failure.text := by
        rw [Analyzer.ending, skipped, raised]
        rfl
      rw [outcome_events_of_error analyzer skipped raised,
        outcome_events_of_ok analyzer.silenced skipped rfl, warnings_append, text,
        if_pos ⟨chosen, rfl⟩]
      rfl
  · rw [if_neg chosen, if_neg fun both => chosen both.1, List.append_nil]

/-- Each failure adds one warning, wherever it comes in the journal. -/
theorem warnings_silencedAt (broken : BreakDownAt places analyzers plan.paths) :
    (warnings (outcomesFrom plan 0 analyzers).events).Perm
      (warnings (outcomesFrom plan 0 (silencedAt places analyzers)).events ++
        plan.failureWarnings places analyzers) := by
  rw [outcomesFrom_events, outcomesFrom_events, zipIdx_silencedAt, List.flatMap_map,
    failureWarnings_eq_flatMap]
  unfold warnings
  rw [List.filterMap_flatMap, List.filterMap_flatMap]
  refine List.Perm.trans (List.Perm.of_eq ?_) (List.flatMap_append_perm _ _ _).symm
  refine List.flatMap_congr ?_
  intro task member
  exact warnings_outcome broken (List.mem_zipIdx_iff_getElem?.mp member)

end

/-! ### Examinations -/

/-- The request with the analyzers at some places silenced. -/
def Request.silencing (request : Request) (places : List Nat) : Request :=
  { request with analyzers := silencedAt places request.analyzers }

/-- `diagnosis` is `expected` but for the runs at some places, where analyzers broke down. -/
structure Diagnosis.FailsOnlyAt (places : List Nat) (plan : Plan) (analyzers : List Analyzer)
    (diagnosis expected : Diagnosis) : Prop where
  findings : diagnosis.findings = expected.findings
  health : diagnosis.health = expected.health
  settings : diagnosis.settings = expected.settings
  others : ∀ place ∉ places, diagnosis.runs[place]? = expected.runs[place]?
  failed : ∀ place ∈ places, ∃ analyzer failure run, analyzers[place]? = some analyzer ∧
    (analyzer.run plan.paths).value = .error failure ∧ diagnosis.runs[place]? = some run ∧
    (plan.skipReason? analyzer.kind = none → run.status = "failed" ∧
      run.reason = failure.kind ++ ": " ++ failure.message ∧ run.findings = 0)

section

variable (workspace : Workspace) (git : Git) (root : Path) {request : Request} {places : List Nat}
  (project : Project) (settings : Option Settings)

theorem getElem?_allAnalyzers {place : Nat} {analyzer : Analyzer}
    (listed : request.analyzers[place]? = some analyzer) :
    (request.allAnalyzers workspace git root project settings)[place]? = some analyzer := by
  have inside := (List.getElem?_eq_some_iff.mp listed).1
  exact (List.getElem?_append_left inside).trans listed

theorem breakDownAt_allAnalyzers
    (broken : BreakDownAt places request.analyzers (scope request.paths)) :
    BreakDownAt places (request.allAnalyzers workspace git root project settings)
      (scope request.paths) := by
  intro place chosen
  obtain ⟨analyzer, failure, listed, raised⟩ := broken place chosen
  have listedAll := getElem?_allAnalyzers workspace git root project settings listed
  exact ⟨analyzer, failure, listedAll, raised⟩

/-- The built-in rules come after all places of given analyzers. -/
theorem allAnalyzers_silencing
    (broken : BreakDownAt places request.analyzers (scope request.paths)) :
    (request.silencing places).allAnalyzers workspace git root project settings =
      silencedAt places (request.allAnalyzers workspace git root project settings) := by
  show silencedAt places request.analyzers ++ [_] = silencedAt places (request.analyzers ++ [_])
  unfold silencedAt
  rw [List.mapIdx_append, List.mapIdx_singleton, Nat.zero_add,
    if_neg (length_notMem_of_breakDownAt broken)]
  rfl

theorem failsOnlyAt_examineUnder
    (broken : BreakDownAt places request.analyzers (scope request.paths)) :
    Diagnosis.FailsOnlyAt places (request.plan settings) request.analyzers
      (examineUnder workspace git root request project settings).value
      (examineUnder workspace git root (request.silencing places) project settings).value := by
  have silenced := allAnalyzers_silencing workspace git root project settings broken
  have brokenAll := breakDownAt_allAnalyzers workspace git root project settings broken
  have findings : (examineUnder workspace git root request project settings).value.findings =
      (examineUnder workspace git root (request.silencing places) project
        settings).value.findings := by
    rw [findings_examineUnder, findings_examineUnder, silenced]
    exact congrArg (Report.combine root _) (findings_silencedAt brokenAll).symm
  refine ⟨findings, congrArg Health.ofFindings findings, rfl, ?_, ?_⟩
  · intro place untouched
    rw [runs_examineUnder, runs_examineUnder, silenced, List.getElem?_map, List.getElem?_map,
      getElem?_silencedAt]
    simp only [untouched, if_false, Option.map_id']
    rfl
  · intro place chosen
    obtain ⟨analyzer, failure, listed, raised⟩ := broken place chosen
    have listedAll := getElem?_allAnalyzers workspace git root project settings listed
    refine ⟨analyzer, failure, analyzer.record (analyzer.ending (request.plan settings)), listed,
      raised, ?_, ?_⟩
    · rw [runs_examineUnder, List.getElem?_map, listedAll]
      rfl
    · intro enabled
      have failed : (analyzer.run (request.plan settings).paths).value = .error failure := raised
      rw [Analyzer.ending, enabled, failed]
      exact ⟨rfl, rfl, rfl⟩

theorem warnings_examineUnder
    (broken : BreakDownAt places request.analyzers (scope request.paths)) :
    (warnings (examineUnder workspace git root request project settings).events).Perm
      (warnings (examineUnder workspace git root (request.silencing places) project
        settings).events ++ (request.plan settings).failureWarnings places request.analyzers) := by
  have silenced := allAnalyzers_silencing workspace git root project settings broken
  have brokenAll := breakDownAt_allAnalyzers workspace git root project settings broken
  have given : (request.plan settings).failureWarnings places
      (request.allAnalyzers workspace git root project settings) =
        (request.plan settings).failureWarnings places request.analyzers := by
    rw [failureWarnings_eq_flatMap, failureWarnings_eq_flatMap, Request.allAnalyzers,
      List.zipIdx_append, List.flatMap_append, List.zipIdx_singleton, List.flatMap_singleton,
      Nat.zero_add, if_neg fun both => length_notMem_of_breakDownAt broken both.1, List.append_nil]
  rw [events_examineUnder, events_examineUnder, silenced, warnings_append, warnings_append,
    List.append_assoc, ← given]
  exact (warnings_silencedAt brokenAll).append_left _

end

/-- An examination in which some of the given analyzers break down differs from the one in which
they report nothing only in their runs, and in one warning for each of them that was run. -/
theorem examine_of_failures (workspace : Workspace) (git : Git) (root : Path) (request : Request)
    (places : List Nat) (broken : BreakDownAt places request.analyzers (scope request.paths)) :
    let call := examine workspace git root request
    let quiet := examine workspace git root (request.silencing places)
    (∀ reason, call.value = .error reason →
      quiet.value = .error reason ∧ warnings call.events = warnings quiet.events) ∧
      ∀ diagnosis, call.value = .ok diagnosis →
        let plan := request.plan diagnosis.settings
        ∃ expected, quiet.value = .ok expected ∧
          diagnosis.FailsOnlyAt places plan request.analyzers expected ∧
          (warnings call.events).Perm
            (warnings quiet.events ++ plan.failureWarnings places request.analyzers) := by
  intro call quiet
  have callEq : call = _ := examine_eq_groundwork workspace git root request
  have quietEq : quiet = _ := examine_eq_groundwork workspace git root (request.silencing places)
  clear_value call quiet
  subst callEq quietEq
  rw [show (request.silencing places).settingsFile = request.settingsFile from rfl]
  obtain ⟨prepared, before⟩ := groundwork workspace git root request.settingsFile
  cases prepared with
  | error reason =>
    refine ⟨?_, ?_⟩
    · intro other same
      exact ⟨same, rfl⟩
    · intro diagnosis impossible
      cases impossible
  | ok known =>
    obtain ⟨project, settings⟩ := known
    refine ⟨?_, ?_⟩
    · intro reason impossible
      cases impossible
    · intro diagnosis same
      obtain rfl := Except.ok.inj same
      refine ⟨_, rfl, failsOnlyAt_examineUnder workspace git root project settings broken, ?_⟩
      rw [warnings_append, warnings_append, List.append_assoc]
      exact (warnings_examineUnder workspace git root project settings broken).append_left _

/-- A project without components. -/
def bareProject : Workspace :=
  ⟨fun location =>
    if location = ["proj"] then some .directory
    else if location = ["proj", "package.json"] then
      some (.file (.text "\x7b\"dependencies\":\x7b\"vue\":\"3\"\x7d\x7d"))
    else none⟩

/-- What an analyzer other than the built-in rules reports. -/
def countedFinding : Finding :=
  { file := "/proj/App.vue", plugin := "counter", rule := "many-props", severity := .warning
    message := "m", help := "", line := 3, column := 1, category := "Other" }

/-- Two analyzers of three break down. One of them is not run, since some paths are given. What the
third finds is reported in both examinations. -/
theorem examine_of_missing_linter :
    let broken (name : String) (kind : AnalyzerKind) : Analyzer :=
      ⟨name, kind, fun _ => pure (.error ⟨"OSError", "not installed"⟩)⟩
    let counter : Analyzer :=
      ⟨"counter", .other "metrics" (by decide), fun _ => pure (.ok [countedFinding])⟩
    let request : Request :=
      { analyzers := [broken "linter" .lint, counter, broken "pruner" .deadCode]
        paths := some [.ofString "App.vue"] }
    let git : Git := ⟨fun _ => .output ""⟩
    let root : Path := ⟨1, ["proj"]⟩
    let call := examine bareProject git root request
    let quiet := examine bareProject git root (request.silencing [0, 2])
    BreakDownAt [0, 2] request.analyzers (scope request.paths) ∧
      ∃ diagnosis, call.value = .ok diagnosis ∧
        (diagnosis.findings.map fun finding => (finding.file, finding.rule)) =
          [("App.vue", "many-props")] ∧
        let plan := request.plan diagnosis.settings
        ∃ expected, quiet.value = .ok expected ∧
          diagnosis.FailsOnlyAt [0, 2] plan request.analyzers expected ∧
          (warnings call.events).Perm
            (warnings quiet.events ++ plan.failureWarnings [0, 2] request.analyzers) := by
  intro broken counter request git root call quiet
  have breakDown : BreakDownAt [0, 2] request.analyzers (scope request.paths) := by
    intro place chosen
    obtain rfl | rfl : place = 0 ∨ place = 2 := by simpa using chosen
    · exact ⟨broken "linter" .lint, _, rfl, rfl⟩
    · exact ⟨broken "pruner" .deadCode, _, rfl, rfl⟩
  have reported : call.value.toOption.map (fun diagnosis => diagnosis.findings.map
      fun finding => (finding.file, finding.rule)) = some [("App.vue", "many-props")] := by
    decide +kernel
  have isolated := (examine_of_failures bareProject git root request [0, 2] breakDown).2
  cases result : call.value with
  | error reason =>
    rw [result] at reported
    cases reported
  | ok diagnosis =>
    rw [result] at reported
    exact ⟨breakDown, diagnosis, rfl, Option.some.inj reported, isolated diagnosis result⟩

end Checkup
