import Checkup.Proofs.Render.Payload

/-!
# Diagnoses that are written

A diagnosis whose integers are short enough is written, whatever its texts hold. The value says with
which revision it was compared and lists the findings in their order (`Diagnosis.exists_json`).
-/

namespace Checkup

/-! ### Values without long integers -/

namespace Json

@[simp]
theorem holdsLong_list_eq_false {items : List Value} :
    holdsLong (.list items) = false ↔ ∀ item ∈ items, holdsLong item = false := by
  rw [holdsLong, anyHoldsLong_eq_any, List.any_eq_false]
  simp

@[simp]
theorem holdsLong_table_eq_false {entries : Table} :
    holdsLong (.table entries) = false ↔ ∀ entry ∈ entries, holdsLong entry.2 = false := by
  rw [holdsLong, fieldHoldsLong_eq_any, List.any_eq_false]
  simp

@[simp]
theorem holdsLong_int (n : Int) : holdsLong (.int n) = isLong n := rfl

@[simp]
theorem holdsLong_str (text : CodeText) : holdsLong (.str text) = false := rfl

@[simp]
theorem holdsLong_bool (b : Bool) : holdsLong (.bool b) = false := rfl

theorem holdsLong_ofOption {encode : α → Value} {option : Option α}
    (short : ∀ a ∈ option, holdsLong (encode a) = false) :
    holdsLong (.ofOption encode option) = false := by
  cases option with
  | none => rfl
  | some a => exact short a rfl

end Json

/-! ### The parts of a payload -/

open Json

theorem Finding.holdsLong_toValue {finding : Finding}
    (settled : finding.severity = .error ∨ finding.severity = .warning)
    (line : isLong finding.line = false) (column : isLong finding.column = false) :
    holdsLong finding.toValue = false := by
  have severity : holdsLong finding.severity.toValue = false := by
    rcases settled with error | warning
    · rw [error]
      exact holdsLong_str _
    · rw [warning]
      exact holdsLong_str _
  simp [toValue, severity, line, column]

theorem Run.holdsLong_toValue {run : Run} (elapsed : ∀ time ∈ run.elapsed, isLong time = false)
    (findings : isLong run.findings = false) : holdsLong run.toValue = false := by
  have written : holdsLong (.ofOption .int run.elapsed) = false := by
    apply holdsLong_ofOption
    simpa using elapsed
  simp [toValue, written, findings]

theorem Project.holdsLong_toValue {project : Project} (files : isLong project.sourceFiles = false) :
    holdsLong project.toValue = false := by
  have version : holdsLong (.ofOption .str project.vueVersion) = false :=
    holdsLong_ofOption fun version _ => holdsLong_str version
  simp [toValue, version, files]

theorem Health.holdsLong_toValue {health : Health} (score : isLong health.score = false) :
    holdsLong health.toValue = false :=
  (Health.portable_toValue 0 score).holdsLong_eq_false

namespace Diagnosis

/-- No integer of a diagnosis has more digits than the limit, nor is any of its severities a value
of another kind. -/
structure Short (diagnosis : Diagnosis) : Prop where
  severities : ∀ finding ∈ diagnosis.findings,
    finding.severity = .error ∨ finding.severity = .warning
  integers : ∀ n ∈ diagnosis.integers, isLong n = false

theorem Short.holdsLong_findings {diagnosis : Diagnosis} (short : diagnosis.Short) :
    ∀ finding ∈ diagnosis.findings, holdsLong finding.toValue = false := by
  intro finding found
  have inside : ∀ n ∈ [finding.line, finding.column], n ∈ diagnosis.integers := fun n member =>
    List.mem_append_left _ (List.mem_append_right _ (List.mem_flatMap.mpr ⟨finding, found, member⟩))
  exact finding.holdsLong_toValue (short.severities finding found)
    (short.integers _ (inside _ (by simp))) (short.integers _ (inside _ (by simp)))

theorem Short.holdsLong_runs {diagnosis : Diagnosis} (short : diagnosis.Short) :
    ∀ run ∈ diagnosis.runs, holdsLong run.toValue = false := by
  intro run recorded
  have inside : ∀ n ∈ run.elapsed.toList ++ [run.findings], n ∈ diagnosis.integers :=
    fun n member => List.mem_append_right _ (List.mem_flatMap.mpr ⟨run, recorded, member⟩)
  apply run.holdsLong_toValue
  · intro time given
    exact short.integers _ (inside _ (by simp [Option.mem_def.mp given]))
  · exact short.integers _ (inside _ (by simp))

/-- A diagnosis of a finite time without long integers is written. -/
theorem Short.exists_json {diagnosis : Diagnosis} (short : diagnosis.Short) (generatedAt : String)
    (base : Option String) {magnitude : Decimal.Magnitude}
    (finite : Decimal.read diagnosis.elapsed = .finite magnitude) :
    ∃ entries metadata, diagnosis.json generatedAt base = .ok (Json.write (.table entries)) ∧
      Table.get? entries "meta" = some (.table metadata) ∧
      Table.get? metadata "diff_base" = some (.ofOption .ofString base) ∧
      Table.get? entries "diagnostics" = some (.list (diagnosis.findings.map Finding.toValue)) := by
  obtain ⟨elapsed, rounded, few⟩ := Decimal.exists_roundToInt finite
  have text (given : Option String) : holdsLong (.ofOption .ofString given) = false :=
    holdsLong_ofOption fun s _ => holdsLong_str s
  have files := short.integers diagnosis.project.sourceFiles
    (List.mem_cons_of_mem _ List.mem_cons_self)
  have health : holdsLong diagnosis.health.toValue = false :=
    Health.holdsLong_toValue (short.integers diagnosis.health.score List.mem_cons_self)
  rw [json, payload, metadata, rounded]
  refine ⟨_, _, if_neg (Bool.eq_false_iff.mp ?_), rfl, rfl, rfl⟩
  simpa [health, Project.holdsLong_toValue files, text, few] using
    And.intro short.holdsLong_findings short.holdsLong_runs

end Diagnosis

end Checkup
