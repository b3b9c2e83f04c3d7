import Checkup.Proofs.Examination.Outcomes

/-!
# Analyzers in a pool of workers

The analyzers of an examination may run at the same time. Each has a task of its own that calls the
analyzer, writes the run's record field by field and then hands its findings over; the findings are
taken in the order of submission. `Pool.Step` lets the tasks take turns in any order.
-/

namespace Checkup

/-! ### Tasks -/

/-- A change that a task makes to its record. -/
inductive Run.Change where
  | status (word : String)
  | reason (text : String)
  | findings (count : Int)
  | elapsed (milliseconds : Int)

def Run.change (run : Run) : Run.Change → Run
  | .status word => { run with status := word }
  | .reason text => { run with reason := text }
  | .findings count => { run with findings := count }
  | .elapsed milliseconds => { run with elapsed := some milliseconds }

/-- The record without the time that the run took. -/
def Run.untimed (run : Run) : Run := { run with elapsed := none }

/-- The changes to the record after the analyzer has come back, in the order of writing. -/
def changesAfter (result : Except Failure (List Finding)) (elapsed : Int) : List Run.Change :=
  match result with
  | .ok findings =>
    [.status "ran", .reason "completed", .findings findings.length, .elapsed elapsed]
  | .error failure =>
    [.status "failed", .reason failure.text, .findings 0, .elapsed elapsed]

/-- How far a task has come. -/
inductive Stage where
  | submitted
  | running
  /-- The analyzer has come back; some changes to the record are left to be written. -/
  | writing (result : Except Failure (List Finding)) (left : List Run.Change)
  | finished

/-- The record of an analyzer before any task has begun. -/
def Analyzer.scheduled (analyzer : Analyzer) (plan : Plan) : Run :=
  match plan.skipReason? analyzer.kind with
  | some reason => analyzer.record (.skipped reason)
  | none =>
    { name := analyzer.name, kind := analyzer.kind.name, status := "scheduled", reason := "" }

/-- The analyzers that a plan runs, each with the place of its record, in order of submission. -/
def Plan.tasks (plan : Plan) (analyzers : List Analyzer) : List (Analyzer × Nat) :=
  analyzers.zipIdx.filter fun task => (plan.skipReason? task.1.kind).isNone

theorem mem_tasks {plan : Plan} {analyzers : List Analyzer} {task : Analyzer × Nat} :
    task ∈ plan.tasks analyzers ↔
      analyzers[task.2]? = some task.1 ∧ plan.skipReason? task.1.kind = none := by
  rw [Plan.tasks, List.mem_filter, List.mem_zipIdx_iff_getElem?, Option.isNone_iff_eq_none]

/-- No two tasks have one record. -/
theorem task_unique {plan : Plan} {analyzers : List Analyzer} {i j : Nat} {a b : Analyzer × Nat}
    (left : (plan.tasks analyzers)[i]? = some a) (right : (plan.tasks analyzers)[j]? = some b)
    (same : a.2 = b.2) : i = j := by
  have increasing : (plan.tasks analyzers).Pairwise fun a b => a.2 < b.2 := by
    refine List.Pairwise.filter _ ?_
    rw [List.pairwise_iff_getElem]
    intro i j hi hj before
    simpa using before
  rw [List.pairwise_iff_getElem] at increasing
  obtain ⟨hi, rfl⟩ := List.getElem?_eq_some_iff.mp left
  obtain ⟨hj, rfl⟩ := List.getElem?_eq_some_iff.mp right
  rcases Nat.lt_trichotomy i j with before | equal | after
  · have := increasing i j hi hj before
    omega
  · exact equal
  · have := increasing j i hj hi after
    omega

theorem flatten_map_tasks (plan : Plan) (analyzers : List Analyzer) :
    ((plan.tasks analyzers).map fun task => (task.1.ending plan).findings).flatten =
      (analyzers.map fun analyzer => (analyzer.ending plan).findings).flatten := by
  have from_ : ∀ position, (((analyzers.zipIdx position).filter fun task =>
      (plan.skipReason? task.1.kind).isNone).map fun task =>
        (task.1.ending plan).findings).flatten =
      (analyzers.map fun analyzer => (analyzer.ending plan).findings).flatten := by
    induction analyzers with
    | nil => intro position; rfl
    | cons analyzer rest ih =>
      intro position
      rw [List.zipIdx_cons, List.map_cons, List.flatten_cons]
      cases skipped : plan.skipReason? analyzer.kind with
      | none =>
        rw [List.filter_cons_of_pos (by simp [skipped]), List.map_cons, List.flatten_cons, ih]
      | some reason =>
        have none : (analyzer.ending plan).findings = [] := by
          rw [findings_ending, skipped]
          rfl
        rw [List.filter_cons_of_neg (by simp [skipped]), none, ih, List.nil_append]
  exact from_ 0

/-! ### Pools -/

structure Pool where
  /-- How far each task has come. -/
  stages : List Stage
  /-- The records of all analyzers, also of those that are not run. -/
  runs : List Run
  /-- What each task has handed over. -/
  futures : List (Option (List Finding))
  /-- The findings that have been taken from the tasks, in the order of submission. -/
  taken : List (List Finding)

namespace Pool

/-- The pool after all tasks have been submitted. -/
def initial (plan : Plan) (analyzers : List Analyzer) : Pool :=
  { stages := (plan.tasks analyzers).map fun _ => .submitted
    runs := analyzers.map (·.scheduled plan)
    futures := (plan.tasks analyzers).map fun _ => none
    taken := [] }

/-- One task takes one step, or the findings of the next task are taken once it has handed them
over. How long an analyzer takes is left open. -/
inductive Step (plan : Plan) (analyzers : List Analyzer) (pool : Pool) : Pool → Prop where
  | start {i : Nat} (waiting : pool.stages[i]? = some .submitted) :
      Step plan analyzers pool { pool with stages := pool.stages.set i .running }
  | comeBack {i : Nat} {task : Analyzer × Nat} (elapsed : Int)
      (own : (plan.tasks analyzers)[i]? = some task)
      (called : pool.stages[i]? = some .running) :
      Step plan analyzers pool
        { pool with
          stages := pool.stages.set i (.writing (task.1.run plan.paths).value
            (changesAfter (task.1.run plan.paths).value elapsed)) }
  | write {i : Nat} {task : Analyzer × Nat} {result : Except Failure (List Finding)}
      {change : Run.Change} {left : List Run.Change}
      (own : (plan.tasks analyzers)[i]? = some task)
      (back : pool.stages[i]? = some (.writing result (change :: left))) :
      Step plan analyzers pool
        { pool with
          stages := pool.stages.set i (.writing result left)
          runs := pool.runs.modify task.2 (·.change change) }
  | handOver {i : Nat} {result : Except Failure (List Finding)}
      (written : pool.stages[i]? = some (.writing result [])) :
      Step plan analyzers pool
        { pool with
          stages := pool.stages.set i .finished
          futures := pool.futures.set i (some (handedOver result)) }
  | take {findings : List Finding}
      (ready : pool.futures[pool.taken.length]? = some (some findings)) :
      Step plan analyzers pool { pool with taken := pool.taken ++ [findings] }

inductive Reachable (plan : Plan) (analyzers : List Analyzer) : Pool → Prop where
  | initial : Reachable plan analyzers (initial plan analyzers)
  | step {pool next : Pool} : Reachable plan analyzers pool → Step plan analyzers pool next →
      Reachable plan analyzers next

/-- Every task has run to its end and all findings have been taken. -/
def Done (pool : Pool) : Prop :=
  (∀ stage ∈ pool.stages, stage = .finished) ∧ pool.taken.length = pool.stages.length

end Pool

end Checkup
