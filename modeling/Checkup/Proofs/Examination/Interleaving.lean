import Checkup.Proofs.Examination.Pool

/-!
# Any order of steps

What a pool of workers ends with does not depend on the order in which the tasks take their steps.
Every step keeps each record in line with the stage of its task (`step_sound`), and every run can be
brought to its end (`exists_done`). `done_eq_examineUnder` shows that the result is that of running
the analyzers one after the other, up to the time that they took.
-/

namespace Checkup.Pool

/-! ### What every step preserves -/

/-- What the record of a task's analyzer is at a stage: untouched before the analyzer has come back,
and afterwards the final one but for the changes that are left. -/
def Fits (plan : Plan) (analyzer : Analyzer) (run : Run) : Stage → Prop
  | .submitted | .running => run = analyzer.scheduled plan
  | .writing result left => result = (analyzer.run plan.paths).value ∧
      (left.foldl Run.change run).untimed = (analyzer.record (analyzer.ending plan)).untimed
  | .finished => run.untimed = (analyzer.record (analyzer.ending plan)).untimed

structure Sound (plan : Plan) (analyzers : List Analyzer) (pool : Pool) : Prop where
  stages_length : pool.stages.length = (plan.tasks analyzers).length
  runs_length : pool.runs.length = analyzers.length
  /-- Each task's record fits its stage. -/
  own : ∀ (i : Nat) (task : Analyzer × Nat) (stage : Stage),
    (plan.tasks analyzers)[i]? = some task → pool.stages[i]? = some stage →
      ∃ run, pool.runs[task.2]? = some run ∧ Fits plan task.1 run stage
  /-- Records without a task stay as they were. -/
  others : ∀ (place : Nat) analyzer, analyzers[place]? = some analyzer →
    plan.skipReason? analyzer.kind ≠ none → pool.runs[place]? = some (analyzer.scheduled plan)
  futures_length : pool.futures.length = (plan.tasks analyzers).length
  /-- A task that has ended has handed its findings over. -/
  handed : ∀ i : Nat, pool.stages[i]? = some .finished →
    ∃ findings, pool.futures[i]? = some (some findings)
  /-- What is handed over is what the analyzer reports. -/
  futures : ∀ (i : Nat) findings, pool.futures[i]? = some (some findings) →
    ∃ task, (plan.tasks analyzers)[i]? = some task ∧ findings = (task.1.ending plan).findings
  /-- Findings are taken in the order of submission. -/
  taken : pool.taken = ((plan.tasks analyzers).map fun task =>
    (task.1.ending plan).findings).take pool.taken.length

section

variable {plan : Plan} {analyzers : List Analyzer} {pool : Pool}

theorem handedOver_of_task {i : Nat} {task : Analyzer × Nat}
    (own : (plan.tasks analyzers)[i]? = some task) :
    handedOver (task.1.run plan.paths).value = (task.1.ending plan).findings := by
  have enabled := (mem_tasks.mp (List.mem_of_getElem? own)).2
  rw [findings_ending, enabled]
  rfl

/-- All changes together make the record of a task that was not touched yet the final one. -/
theorem changesAfter_of_task {i : Nat} {task : Analyzer × Nat}
    (own : (plan.tasks analyzers)[i]? = some task) (elapsed : Int) :
    ((changesAfter (task.1.run plan.paths).value elapsed).foldl Run.change
      (task.1.scheduled plan)).untimed = (task.1.record (task.1.ending plan)).untimed := by
  have enabled := (mem_tasks.mp (List.mem_of_getElem? own)).2
  rw [Analyzer.ending, Analyzer.scheduled, enabled]
  cases (task.1.run plan.paths).value with
  | ok findings => rfl
  | error failure => rfl

theorem initial_sound (plan : Plan) (analyzers : List Analyzer) :
    Sound plan analyzers (initial plan analyzers) where
  stages_length := List.length_map _
  runs_length := List.length_map _
  own := by
    intro i task stage own started
    have placed := (mem_tasks.mp (List.mem_of_getElem? own)).1
    refine ⟨task.1.scheduled plan, ?_, ?_⟩
    · simp [initial, placed]
    · simp only [initial, List.getElem?_map, own, Option.map_some, Option.some_inj] at started
      subst started
      rfl
  others := by
    intro place analyzer placed _
    simp [initial, placed]
  futures_length := List.length_map _
  handed := by
    intro i ended
    simp only [initial, List.getElem?_map, Option.map_eq_some_iff] at ended
    obtain ⟨_, _, impossible⟩ := ended
    cases impossible
  futures := by
    intro i findings handed
    simp only [initial, List.getElem?_map, Option.map_eq_some_iff] at handed
    obtain ⟨_, _, impossible⟩ := handed
    cases impossible
  taken := rfl

/-- A step of one task that keeps all records leaves the other tasks alone. -/
theorem own_of_set {i : Nat} {old new : Stage} (sound : Sound plan analyzers pool)
    (before : pool.stages[i]? = some old)
    (fits : ∀ (task : Analyzer × Nat) (run : Run), (plan.tasks analyzers)[i]? = some task →
      Fits plan task.1 run old → Fits plan task.1 run new) :
    ∀ (j : Nat) (task : Analyzer × Nat) (stage : Stage), (plan.tasks analyzers)[j]? = some task →
      (pool.stages.set i new)[j]? = some stage →
      ∃ run, pool.runs[task.2]? = some run ∧ Fits plan task.1 run stage := by
  intro j task stage own staged
  rw [List.getElem?_set] at staged
  split at staged
  · next same =>
    subst same
    obtain ⟨run, placed, fit⟩ := sound.own i task old own before
    split at staged
    · rw [Option.some_inj] at staged
      subst staged
      exact ⟨run, placed, fits task run own fit⟩
    · cases staged
  · exact sound.own j task stage own staged

/-- A task that begins or goes on does not end any task. -/
theorem handed_of_set {i : Nat} {new : Stage} (sound : Sound plan analyzers pool)
    (goesOn : new ≠ .finished) (j : Nat)
    (ended : (pool.stages.set i new)[j]? = some .finished) :
    ∃ findings, pool.futures[j]? = some (some findings) := by
  rw [List.getElem?_set] at ended
  split at ended
  · split at ended
    · exact absurd (Option.some.inj ended) goesOn
    · cases ended
  · exact sound.handed j ended

theorem step_sound {next : Pool} (sound : Sound plan analyzers pool)
    (step : Step plan analyzers pool next) : Sound plan analyzers next := by
  cases step with
  | @start i waiting =>
    refine { sound with
      stages_length := by rw [List.length_set]; exact sound.stages_length
      own := own_of_set sound waiting ?_
      handed := handed_of_set sound nofun }
    intro task run _ fit
    exact fit
  | @comeBack i task elapsed own called =>
    refine { sound with
      stages_length := by rw [List.length_set]; exact sound.stages_length
      own := own_of_set sound called ?_
      handed := handed_of_set sound nofun }
    intro other run own' fit
    obtain rfl : task = other := Option.some.inj (own.symm.trans own')
    subst fit
    exact ⟨rfl, changesAfter_of_task own elapsed⟩
  | @write i task result change left own back =>
    obtain ⟨run, placed, kept, final⟩ := sound.own i task _ own back
    refine { sound with
      stages_length := by rw [List.length_set]; exact sound.stages_length
      runs_length := by rw [List.length_modify]; exact sound.runs_length
      own := ?_
      others := ?_
      handed := handed_of_set sound nofun }
    · intro j other stage own' staged
      rw [List.getElem?_set] at staged
      split at staged
      · next same =>
        subst same
        obtain rfl : task = other := Option.some.inj (own.symm.trans own')
        split at staged
        · rw [Option.some_inj] at staged
          subst staged
          refine ⟨run.change change, ?_, kept, final⟩
          simp [placed]
        · cases staged
      · next different =>
        -- The record of another task is another record.
        have elsewhere : task.2 ≠ other.2 := fun same => different (task_unique own own' same)
        obtain ⟨run', placed', fit⟩ := sound.own j other stage own' staged
        refine ⟨run', ?_, fit⟩
        simp [placed', elsewhere]
    · intro place analyzer listed skipped
      have enabled := mem_tasks.mp (List.mem_of_getElem? own)
      have elsewhere : task.2 ≠ place := by
        rintro rfl
        obtain rfl : task.1 = analyzer := Option.some.inj (enabled.1.symm.trans listed)
        exact skipped enabled.2
      have unchanged := sound.others place analyzer listed skipped
      simp [unchanged, elsewhere]
  | @handOver i result written =>
    have inside : i < (plan.tasks analyzers).length := by
      rw [← sound.stages_length]
      exact (List.getElem?_eq_some_iff.mp written).1
    have own := List.getElem?_eq_getElem inside
    obtain ⟨_, _, kept, _⟩ := sound.own i _ _ own written
    refine { sound with
      stages_length := by rw [List.length_set]; exact sound.stages_length
      own := own_of_set sound written fun _ _ _ fit => fit.2
      futures_length := by rw [List.length_set]; exact sound.futures_length
      handed := ?_
      futures := ?_ }
    · intro j ended
      by_cases same : i = j
      · subst same
        refine ⟨handedOver result, List.getElem?_set_self ?_⟩
        rw [sound.futures_length]
        exact inside
      · rw [List.getElem?_set_ne same] at ended ⊢
        exact sound.handed j ended
    · intro j findings handed
      by_cases same : i = j
      · subst same
        rw [List.getElem?_set_self (by rw [sound.futures_length]; exact inside), Option.some_inj,
          Option.some_inj] at handed
        refine ⟨_, own, ?_⟩
        rw [← handed, kept, handedOver_of_task own]
      · rw [List.getElem?_set_ne same] at handed
        exact sound.futures j findings handed
  | @take findings ready =>
    refine { sound with taken := ?_ }
    obtain ⟨task, own, rfl⟩ := sound.futures _ _ ready
    rw [List.length_append, List.length_singleton, List.take_add_one, ← sound.taken,
      List.getElem?_map, own]
    rfl

theorem reachable_sound (reachable : Reachable plan analyzers pool) :
    Sound plan analyzers pool := by
  induction reachable with
  | initial => exact initial_sound plan analyzers
  | step _ step ih => exact step_sound ih step

/-! ### No run is stuck -/

/-- The steps that a task has yet to take. -/
def stepsLeft : Stage → Nat
  | .submitted => 7
  | .running => 6
  | .writing _ left => left.length + 1
  | .finished => 0

def allStepsLeft (stages : List Stage) : Nat :=
  stages.foldr (fun stage left => stepsLeft stage + left) 0

def remaining (pool : Pool) : Nat :=
  allStepsLeft pool.stages + (pool.stages.length - pool.taken.length)

theorem allStepsLeft_set {stages : List Stage} {i : Nat} {old new : Stage}
    (before : stages[i]? = some old) (fewer : stepsLeft new < stepsLeft old) :
    allStepsLeft (stages.set i new) < allStepsLeft stages := by
  induction stages generalizing i with
  | nil => cases before
  | cons stage rest ih =>
    cases i with
    | zero =>
      rw [List.getElem?_cons_zero, Option.some_inj] at before
      subst before
      simp only [allStepsLeft, List.set_cons_zero, List.foldr_cons]
      omega
    | succ i =>
      have less := ih before
      simp only [allStepsLeft, List.set_cons_succ, List.foldr_cons] at less ⊢
      omega

theorem exists_step (sound : Sound plan analyzers pool) (unfinished : ¬ pool.Done) :
    ∃ next, Step plan analyzers pool next ∧ next.remaining < pool.remaining := by
  by_cases ended : ∀ stage ∈ pool.stages, stage = .finished
  · have behind : pool.taken.length < pool.stages.length := by
      have most := congrArg List.length sound.taken
      rw [List.length_take, List.length_map, ← sound.stages_length] at most
      have different : pool.taken.length ≠ pool.stages.length := fun all => unfinished ⟨ended, all⟩
      omega
    have finished := List.getElem?_eq_getElem behind
    rw [ended _ (List.getElem_mem behind)] at finished
    obtain ⟨findings, ready⟩ := sound.handed _ finished
    refine ⟨_, .take ready, ?_⟩
    simp only [remaining, List.length_append, List.length_singleton]
    omega
  · obtain ⟨stage, member, unended⟩ : ∃ stage ∈ pool.stages, stage ≠ .finished := by
      simpa using ended
    obtain ⟨i, inStages, rfl⟩ := List.getElem_of_mem member
    have before := List.getElem?_eq_getElem inStages
    have inside : i < (plan.tasks analyzers).length := by
      rw [← sound.stages_length]
      exact inStages
    have own := List.getElem?_eq_getElem inside
    have turn : ∀ {new : Stage} {next : Pool}, Step plan analyzers pool next →
        next.stages = pool.stages.set i new → next.taken = pool.taken →
        stepsLeft new < stepsLeft pool.stages[i] →
        ∃ next, Step plan analyzers pool next ∧ next.remaining < pool.remaining := by
      intro new next step stages taken fewer
      refine ⟨next, step, ?_⟩
      have less := allStepsLeft_set before fewer
      simp only [remaining, stages, taken, List.length_set]
      omega
    cases at_ : pool.stages[i] with
    | submitted =>
      rw [at_] at before turn
      exact turn (.start before) rfl rfl (by decide)
    | running =>
      rw [at_] at before turn
      refine turn (.comeBack 0 own before) rfl rfl ?_
      cases ((plan.tasks analyzers)[i].1.run plan.paths).value with
      | ok findings => exact Nat.lt_succ_self 5
      | error failure => exact Nat.lt_succ_self 5
    | writing result left =>
      rw [at_] at before turn
      cases left with
      | nil => exact turn (.handOver before) rfl rfl Nat.one_pos
      | cons change left => exact turn (.write own before) rfl rfl (Nat.lt_succ_self _)
    | finished => exact absurd at_ unended

/-- However far the tasks have come, they can be brought to their end. -/
theorem exists_done (reachable : Reachable plan analyzers pool) :
    ∃ final, Reachable plan analyzers final ∧ final.Done := by
  induction left : pool.remaining using Nat.strongRecOn generalizing pool with
  | ind n ih =>
    by_cases done : pool.Done
    · exact ⟨pool, reachable, done⟩
    · obtain ⟨next, step, less⟩ := exists_step (reachable_sound reachable) done
      exact ih next.remaining (left ▸ less) (reachable.step step) rfl

/-! ### The end of every run -/

theorem taken_of_done (sound : Sound plan analyzers pool) (done : pool.Done) :
    pool.taken = (plan.tasks analyzers).map fun task => (task.1.ending plan).findings := by
  have all := sound.taken
  rw [done.2, sound.stages_length, List.take_of_length_le (Nat.le_of_eq (List.length_map _))]
    at all
  exact all

theorem runs_of_done (sound : Sound plan analyzers pool) (done : pool.Done) :
    pool.runs.map Run.untimed =
      analyzers.map fun analyzer => (analyzer.record (analyzer.ending plan)).untimed := by
  refine List.ext_getElem? ?_
  intro place
  rw [List.getElem?_map, List.getElem?_map]
  cases listed : analyzers[place]? with
  | none =>
    have outside : pool.runs[place]? = none := by
      rw [List.getElem?_eq_none_iff] at listed ⊢
      rw [sound.runs_length]
      exact listed
    rw [outside]
    rfl
  | some analyzer =>
    cases skipped : plan.skipReason? analyzer.kind with
    | some reason =>
      rw [sound.others place analyzer listed (by rw [skipped]; exact Option.some_ne_none reason),
        Option.map_some, Option.map_some, Analyzer.scheduled, Analyzer.ending, skipped]
    | none =>
      obtain ⟨i, inside, own⟩ := List.getElem_of_mem
        (mem_tasks.mpr ⟨listed, skipped⟩ : (analyzer, place) ∈ plan.tasks analyzers)
      have inStages : i < pool.stages.length := by
        rw [sound.stages_length]
        exact inside
      have finished := done.1 _ (List.getElem_mem inStages)
      obtain ⟨run, placed, fit⟩ := sound.own i (analyzer, place) .finished
        (by rw [List.getElem?_eq_getElem inside, own])
        (by rw [List.getElem?_eq_getElem inStages, finished])
      rw [placed, Option.map_some, Option.map_some, fit]

end

/-- In whatever order the tasks take their steps, an examination ends with the findings, the health
and the runs of examining with one analyzer after the other. -/
theorem done_eq_examineUnder (workspace : Workspace) (git : Git) (root : Path) (request : Request)
    (project : Project) (settings : Option Settings) {pool : Pool}
    (reachable : Reachable (request.plan settings)
      (request.allAnalyzers workspace git root project settings) pool)
    (done : pool.Done) :
    let diagnosis := (examineUnder workspace git root request project settings).value
    let report := Report.combine root (Settings.suppressionOf settings) pool.taken
    report = diagnosis.findings ∧ Health.ofFindings report = diagnosis.health ∧
      pool.runs.map Run.untimed = diagnosis.runs.map Run.untimed := by
  intro diagnosis report
  have sound := reachable_sound reachable
  have findings : report = diagnosis.findings := by
    show Report.combine root _ pool.taken = _
    rw [findings_examineUnder, taken_of_done sound done]
    unfold Report.combine
    rw [flatten_map_tasks]
  have runs : pool.runs.map Run.untimed = diagnosis.runs.map Run.untimed := by
    rw [runs_examineUnder, runs_of_done sound done, List.map_map]
    rfl
  exact ⟨findings, congrArg Health.ofFindings findings, runs⟩

/-- An analyzer that reports one finding. -/
def audit : Analyzer :=
  { name := "audit"
    kind := .lint
    run := fun _ => pure (.ok
      [{ file := "/proj/a.vue", plugin := "audit", rule := "r", severity := .warning,
         message := "m", help := "", line := 1, column := 1, category := "Other" }]) }

/-- The rules may begin after the given analyzer and finish before it. -/
theorem overtaken_eq_examineUnder :
    let git : Git := ⟨fun _ => .unavailable "not installed"⟩
    let root : Path := ⟨1, ["proj"]⟩
    let request : Request := { analyzers := [audit] }
    let plan := request.plan none
    let analyzers := request.allAnalyzers .empty git root {} none
    ∃ pool : Pool, Reachable plan analyzers pool ∧ pool.Done ∧
      let diagnosis := (examineUnder .empty git root request {} none).value
      let report := Report.combine root (Settings.suppressionOf none) pool.taken
      report = diagnosis.findings ∧ Health.ofFindings report = diagnosis.health ∧
        pool.runs.map Run.untimed = diagnosis.runs.map Run.untimed := by
  intro git root request plan analyzers
  have submitted : Reachable plan analyzers (initial plan analyzers) := .initial
  have overtaken := (submitted.step (.start (i := 1) rfl)).step (.comeBack (i := 1) 3 rfl rfl)
  obtain ⟨pool, reachable, done⟩ := exists_done overtaken
  exact ⟨pool, reachable, done, done_eq_examineUnder _ _ _ _ _ _ reachable done⟩

end Checkup.Pool
