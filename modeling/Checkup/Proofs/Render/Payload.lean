import Checkup.Proofs.Json.Ascii
import Checkup.Render.Payload

/-!
# Diagnoses read back

A diagnosis in JSON is read back as the value it was written from, up to the order of entries
(`Diagnosis.exists_read_json`). Too long a number keeps it from being written
(`Diagnosis.json_of_long_line`), and from being read (`Json.read_of_isLong`).
-/

namespace Checkup

/-! ### Rounded times -/

namespace Decimal

theorem nearest_le (num den : Nat) : nearest num den ≤ num + 1 := by
  have down : num / den ≤ num := Nat.div_le_self num den
  unfold nearest
  dsimp only
  split <;> omega

theorem bounds_of_read {x : Float} {magnitude : Magnitude} (finite : read x = .finite magnitude) :
    magnitude.mantissa < 2 ^ 53 ∧ magnitude.exponent.toNat ≤ 971 := by
  unfold read at finite
  have field : x.toBits.toNat / Nat.pow 2 52 % Nat.pow 2 11 < 2048 := Nat.mod_lt _ (by decide)
  have fraction : x.toBits.toNat % Nat.pow 2 52 < 2 ^ 52 := Nat.mod_lt _ (by decide)
  dsimp only at finite
  split at finite
  · split at finite <;> cases finite
  · split at finite
    · obtain rfl := Reading.finite.inj finite
      dsimp only
      omega
    · obtain rfl := Reading.finite.inj finite
      have top : Nat.pow 2 52 = 2 ^ 52 := rfl
      dsimp only
      omega

theorem rounded_zero_le {magnitude : Magnitude} (small : magnitude.mantissa < 2 ^ 53) :
    magnitude.rounded 0 ≤ 2 ^ (53 + magnitude.exponent.toNat) := by
  have positive : 0 < 2 ^ magnitude.exponent.toNat := Nat.two_pow_pos _
  calc magnitude.rounded 0
      ≤ magnitude.mantissa * 2 ^ magnitude.exponent.toNat + 1 := by
        rw [Magnitude.rounded, Nat.pow_eq, Nat.pow_zero, Nat.mul_one]
        exact nearest_le _ _
    _ ≤ (magnitude.mantissa + 1) * 2 ^ magnitude.exponent.toNat := by
        rw [Nat.add_mul, Nat.one_mul]
        omega
    _ ≤ 2 ^ 53 * 2 ^ magnitude.exponent.toNat := Nat.mul_le_mul_right _ small
    _ = 2 ^ (53 + magnitude.exponent.toNat) := (Nat.pow_add 2 53 _).symm

/-- The digits of a double are within the limit. -/
theorem exists_roundToInt {x : Float} {magnitude : Magnitude}
    (finite : read x = .finite magnitude) : ∃ n, roundToInt x = .ok n ∧ Json.isLong n = false := by
  obtain ⟨mantissa, exponent⟩ := bounds_of_read finite
  have bound : magnitude.rounded 0 < 10 ^ Value.digitLimit := by
    calc magnitude.rounded 0
        ≤ 2 ^ (53 + magnitude.exponent.toNat) := rounded_zero_le mantissa
      _ ≤ 10 ^ (53 + magnitude.exponent.toNat) := Nat.pow_le_pow_left (by decide) _
      _ < 10 ^ Value.digitLimit := by
        apply Nat.pow_lt_pow_right (by decide)
        rw [Value.digitLimit]
        omega
  rw [roundToInt, finite]
  refine ⟨_, rfl, ?_⟩
  rw [Json.isLong_eq_false_iff]
  split
  · rw [Int.natAbs_neg]
    exact bound
  · exact bound

end Decimal

/-! ### Portable values -/

namespace Json

@[simp]
theorem portable_ofString (depth : Nat) (s : String) : Portable depth (.str s) :=
  .str depth (halvesApart_ofString s)

@[simp]
theorem portable_bool (depth : Nat) (b : Bool) : Portable depth (.bool b) := .bool depth b

@[simp]
theorem portable_int_iff {depth : Nat} {n : Int} :
    Portable depth (.int n) ↔ isLong n = false := by
  refine ⟨?_, .int depth⟩
  rintro ⟨⟩
  assumption

theorem portable_ofOption {depth : Nat} {encode : α → Value} {option : Option α}
    (portable : ∀ a ∈ option, Portable depth (encode a)) :
    Portable depth (.ofOption encode option) := by
  cases option with
  | none => exact .null depth
  | some a => exact portable a rfl

theorem nodup_map_ofString {names : List String} (distinct : names.Nodup) :
    (names.map CodeText.ofString).Nodup :=
  distinct.map fun _ _ => CodeText.ofString_inj.mp

/-- Tables whose keys are known strings. -/
theorem portable_record {depth : Nat} {entries : Table} (names : List String)
    (named : entries.map Prod.fst = names.map CodeText.ofString) (distinct : names.Nodup)
    (each : ∀ value ∈ entries.map Prod.snd, Portable depth value) :
    Portable (depth + 1) (.table entries) := by
  apply Portable.table
  · rw [named]
    exact nodup_map_ofString distinct
  · intro entry member
    have key := List.mem_map_of_mem (f := Prod.fst) member
    rw [named] at key
    obtain ⟨name, _, same⟩ := List.mem_map.mp key
    rw [← same]
    exact halvesApart_ofString name
  · intro entry member
    exact each entry.2 (List.mem_map_of_mem member)

end Json

/-! ### The parts of a payload -/

open Json

theorem Finding.portable_toValue {finding : Finding} (depth : Nat)
    (worded : ∃ word : String, finding.severity.toValue = .str word)
    (line : isLong finding.line = false) (column : isLong finding.column = false) :
    Portable (depth + 1) finding.toValue := by
  obtain ⟨word, severity⟩ := worded
  apply portable_record ["file_path", "plugin", "rule", "severity", "message", "help", "line",
    "column", "category"] rfl (by decide)
  simp [severity, line, column]

theorem Health.portable_toValue {health : Health} (depth : Nat)
    (score : isLong health.score = false) : Portable (depth + 1) health.toValue := by
  apply portable_record ["score", "label"] rfl (by decide)
  simp [score]

theorem Project.portable_toValue {project : Project} (depth : Nat)
    (readable : ∀ version ∈ project.vueVersion, ∃ s : String, version = s)
    (files : isLong project.sourceFiles = false) : Portable (depth + 1) project.toValue := by
  have written : Portable depth (.ofOption .str project.vueVersion) := by
    apply portable_ofOption
    intro version given
    obtain ⟨s, rfl⟩ := readable version given
    exact portable_ofString depth s
  apply portable_record ["vue_version", "framework", "framework_display_name", "has_typescript",
    "has_pinia", "has_vuex", "has_vue_router", "source_file_count"] rfl (by decide)
  simp [written, files]

theorem Run.portable_toValue {run : Run} (depth : Nat)
    (elapsed : ∀ time ∈ run.elapsed, isLong time = false) (findings : isLong run.findings = false) :
    Portable (depth + 1) run.toValue := by
  have written : Portable depth (.ofOption .int run.elapsed) :=
    portable_ofOption fun time given => .int depth (elapsed time given)
  apply portable_record ["name", "kind", "status", "reason", "elapsed_ms", "diagnostics"] rfl
    (by decide)
  simp [written, findings]

namespace Diagnosis

/-- The integers of a diagnosis. -/
def integers (diagnosis : Diagnosis) : List Int :=
  [diagnosis.health.score, diagnosis.project.sourceFiles] ++
    (diagnosis.findings.flatMap fun finding => [finding.line, finding.column]) ++
    (diagnosis.runs.flatMap fun run => run.elapsed.toList ++ [run.findings])

/-- A diagnosis whose texts are strings, also its severities, and whose integers have no more digits
than the limit. -/
structure Plain (diagnosis : Diagnosis) : Prop where
  severities : ∀ finding ∈ diagnosis.findings, ∃ word : String,
    finding.severity.toValue = .str word
  version : ∀ version ∈ diagnosis.project.vueVersion, ∃ s : String, version = s
  integers : ∀ n ∈ diagnosis.integers, (Nat.toDigits 10 n.natAbs).length ≤ Value.digitLimit

section

variable {diagnosis : Diagnosis}

theorem Plain.isLong_eq_false (plain : diagnosis.Plain) {n : Int}
    (member : n ∈ diagnosis.integers) : isLong n = false := by
  rw [Bool.eq_false_iff, Ne, isLong_iff, Nat.not_lt]
  exact plain.integers n member

theorem Plain.portable_findings (plain : diagnosis.Plain) (depth : Nat) :
    Portable (depth + 2) (.list (diagnosis.findings.map Finding.toValue)) := by
  apply Portable.list
  intro value member
  obtain ⟨finding, found, rfl⟩ := List.mem_map.mp member
  apply finding.portable_toValue depth (plain.severities finding found)
  all_goals
    apply plain.isLong_eq_false
    apply List.mem_append_left
    apply List.mem_append_right
    exact List.mem_flatMap.mpr ⟨finding, found, by simp⟩

theorem Plain.portable_runs (plain : diagnosis.Plain) (depth : Nat) :
    Portable (depth + 2) (.list (diagnosis.runs.map Run.toValue)) := by
  apply Portable.list
  intro value member
  obtain ⟨run, recorded, rfl⟩ := List.mem_map.mp member
  apply run.portable_toValue depth
  · intro time given
    apply plain.isLong_eq_false
    apply List.mem_append_right
    exact List.mem_flatMap.mpr ⟨run, recorded, by simp [Option.mem_def.mp given]⟩
  · apply plain.isLong_eq_false
    apply List.mem_append_right
    exact List.mem_flatMap.mpr ⟨run, recorded, by simp⟩

/-- The diagnosis of a finite time is a table that JSON carries, with the findings in their order. -/
theorem Plain.exists_payload (plain : diagnosis.Plain) (generatedAt : String)
    (base : Option String) {magnitude : Decimal.Magnitude}
    (finite : Decimal.read diagnosis.elapsed = .finite magnitude) :
    ∃ entries, diagnosis.payload generatedAt base = .ok (.table entries) ∧
      Portable 4 (.table entries) ∧
      Table.get? entries "diagnostics" = some (.list (diagnosis.findings.map Finding.toValue)) := by
  obtain ⟨elapsed, rounded, short⟩ := Decimal.exists_roundToInt finite
  have text (given : Option String) : Portable 2 (.ofOption .ofString given) :=
    portable_ofOption fun s _ => portable_ofString 2 s
  have score : isLong diagnosis.health.score = false := plain.isLong_eq_false List.mem_cons_self
  have files : isLong diagnosis.project.sourceFiles = false :=
    plain.isLong_eq_false (List.mem_cons_of_mem _ List.mem_cons_self)
  have metadata : ∃ value, diagnosis.metadata generatedAt base = .ok value ∧ Portable 3 value := by
    rw [Diagnosis.metadata, rounded]
    refine ⟨_, rfl, ?_⟩
    apply portable_record ["generated_at", "version", "diff_base", "config_source", "elapsed_ms",
      "analyzers"] rfl (by decide)
    simp [text, short, plain.portable_runs 0]
  obtain ⟨value, given, portable⟩ := metadata
  rw [Diagnosis.payload, given]
  refine ⟨_, rfl, ?_, rfl⟩
  apply portable_record ["score", "project", "diagnostics", "meta"] rfl (by decide)
  have health : Portable 3 diagnosis.health.toValue := Health.portable_toValue 2 score
  simp [health, portable, plain.portable_findings 1, Project.portable_toValue 2 plain.version files]

end

/-- A diagnosis in JSON is one line of ASCII. It is read back, and its findings in their order. -/
theorem exists_read_json (diagnosis : Diagnosis) (generatedAt : String) (base : Option String)
    (plain : diagnosis.Plain)
    (finite : ∃ magnitude, Decimal.read diagnosis.elapsed = .finite magnitude) :
    ∃ value text entries items, diagnosis.payload generatedAt base = .ok value ∧
      diagnosis.json generatedAt base = .ok text ∧ (∀ c ∈ text.toList, ' ' ≤ c ∧ c ≤ '~') ∧
      Json.read text.toList = .ok (.table entries) ∧ Value.Same (.table entries) value ∧
      Table.get? entries "diagnostics" = some (.list items) ∧
      List.Forall₂ Value.Same items (diagnosis.findings.map Finding.toValue) := by
  obtain ⟨magnitude, finite⟩ := finite
  obtain ⟨fields, given, portable, listed⟩ := plain.exists_payload generatedAt base finite
  obtain ⟨found, reads, same⟩ := portable.exists_read (by decide)
  obtain ⟨entries, rfl⟩ := same.exists_entries
  have distinct : (fields.map Prod.fst).Nodup := by
    cases portable with
    | table distinct keys each => exact distinct
  obtain ⟨list, get, sameList⟩ := same.exists_get? distinct listed
  obtain ⟨items, rfl, each⟩ := sameList.exists_items
  have written : diagnosis.json generatedAt base = .ok (Json.write (.table fields)) := by
    rw [json, given]
    exact if_neg (Bool.eq_false_iff.mp portable.holdsLong_eq_false)
  have text : (Json.write (.table fields)).toList = writeValue (.table fields) :=
    String.toList_ofList
  refine ⟨.table fields, _, entries, items, given, written, ?_, ?_, same, get, each⟩
  · rw [text]
    exact fun c member => isVisible_iff.mp (portable.isVisible_of_mem c member)
  · rw [text]
    exact reads

/-- Quotes, a control character and a character of two units, and more digits than a machine word
holds. -/
theorem exists_read_json_of_odd_message :
    let finding : Finding :=
      ⟨"src/App.vue", "lint", "no-eval", .ofValue (.str "info"), "\"\\\x07\x7f𝔘", "", 10 ^ 25, -1,
        "Other"⟩
    let diagnosis : Diagnosis :=
      { findings := [finding]
        health := ⟨-7, .needsWork⟩
        project := { vueVersion := some (CodeText.ofString "^3.4.0") }
        runs := [⟨"lint", "lint", "ran", "completed", some 2, 1⟩]
        elapsed := 1499.5 }
    diagnosis.Plain ∧
      ∃ text entries items, diagnosis.json "2024-01-02T03:04:05Z" (some "main") = .ok text ∧
        Json.read text.toList = .ok (.table entries) ∧
        Table.get? entries "diagnostics" = some (.list items) ∧
        List.Forall₂ Value.Same items [finding.toValue] := by
  intro finding diagnosis
  have plain : diagnosis.Plain := by
    constructor
    case severities =>
      intro other member
      rw [List.mem_singleton.mp member]
      exact ⟨"info", rfl⟩
    case version =>
      rintro version ⟨⟩
      exact ⟨"^3.4.0", rfl⟩
    case integers => decide +kernel
  have finite : ∃ magnitude, Decimal.read 1499.5 = .finite magnitude := ⟨_, rfl⟩
  obtain ⟨value, text, entries, items, -, written, -, reads, -, get, each⟩ :=
    diagnosis.exists_read_json "2024-01-02T03:04:05Z" (some "main") plain finite
  exact ⟨plain, text, entries, items, written, reads, get, each⟩

end Diagnosis

/-! ### What is not written -/

namespace Json

theorem isLong_pow : isLong (10 ^ Value.digitLimit : Nat) = true := by
  rw [← Bool.not_eq_false, isLong_eq_false_iff, Int.natAbs_natCast]
  exact Nat.lt_irrefl _

/-- A long integer ends the reading. -/
theorem read_of_isLong {n : Int} (long : isLong n = true) :
    read (writeValue (.int n)) = .error (.longInteger (Nat.toDigits 10 n.natAbs).length) := by
  have nothing : Ends [] := by
    rintro c ⟨⟩
  have lexed := tokens_toString n nothing
  rw [List.append_nil, integer_toDigits_of_long long] at lexed
  show resume (.needValue []) (writeValue (.int n)) >>= State.result = _
  rw [writeValue, resume_of_tokens lexed]
  rfl

theorem holdsLong_list {items : List Value} {item : Value} (member : item ∈ items)
    (long : holdsLong item = true) : holdsLong (.list items) = true := by
  rw [holdsLong, anyHoldsLong_eq_any, List.any_eq_true]
  exact ⟨item, member, long⟩

theorem holdsLong_table {entries : Table} {entry : CodeText × Value} (member : entry ∈ entries)
    (long : holdsLong entry.2 = true) : holdsLong (.table entries) = true := by
  rw [holdsLong, fieldHoldsLong_eq_any, List.any_eq_true]
  exact ⟨entry, member, long⟩

end Json

namespace Diagnosis

/-- A finding at a line with too long a number keeps the whole diagnosis from being written. -/
theorem json_of_long_line {diagnosis : Diagnosis} {finding : Finding}
    (found : finding ∈ diagnosis.findings) (long : isLong finding.line = true)
    (generatedAt : String) (base : Option String) {value : Value}
    (given : diagnosis.payload generatedAt base = .ok value) :
    diagnosis.json generatedAt base = .error .longInteger := by
  have holds : holdsLong value = true := by
    have line : holdsLong finding.toValue = true := by
      have entry : (CodeText.ofString "line", Value.int finding.line) ∈
          [(CodeText.ofString "line", Value.int finding.line),
            (CodeText.ofString "column", Value.int finding.column),
            (CodeText.ofString "category", Value.str finding.category)] := List.mem_cons_self
      exact holdsLong_table (List.mem_append_right [_, _, _, _, _, _] entry) long
    have findings := holdsLong_list (List.mem_map_of_mem found) line
    unfold payload at given
    cases timed : diagnosis.metadata generatedAt base with
    | error reason =>
      rw [timed] at given
      cases given
    | ok metadata =>
      rw [timed] at given
      obtain rfl := Except.ok.inj given
      exact holdsLong_table (List.mem_cons_of_mem _ (List.mem_cons_of_mem _ List.mem_cons_self))
        findings
  rw [json, given]
  exact if_pos holds

/-- A number of a line with a digit more than the limit, and a time without end. -/
theorem json_of_huge_numbers :
    let finding (line : Int) : Finding :=
      ⟨"src/App.vue", "lint", "no-eval", .warning, "Bad call", "", line, 1, "Other"⟩
    let huge : Int := (10 ^ Value.digitLimit : Nat)
    let health : Health := ⟨100, .great⟩
    let far : Diagnosis := { findings := [finding huge], health, project := {} }
    let endless : Diagnosis :=
      { findings := [finding 1], health, project := {}, elapsed := 1.0 / 0.0 }
    (∃ value, far.payload "2024-01-02T03:04:05Z" none = .ok value) ∧
      far.json "2024-01-02T03:04:05Z" none = .error .longInteger ∧
      (∃ digits, Json.read (Json.writeValue (.int huge)) = .error (.longInteger digits)) ∧
      endless.json "2024-01-02T03:04:05Z" none = .error (.timeless .infinite) := by
  intro finding huge health far endless
  have long : isLong huge = true := isLong_pow
  clear_value huge
  have found : finding huge ∈ far.findings := List.mem_cons_self
  have finite : ∃ magnitude, Decimal.read 0.0 = .finite magnitude := ⟨_, rfl⟩
  obtain ⟨magnitude, finite⟩ := finite
  obtain ⟨elapsed, rounded, -⟩ := Decimal.exists_roundToInt finite
  have given : ∃ value, far.payload "2024-01-02T03:04:05Z" none = .ok value := by
    rw [payload, metadata, show Decimal.roundToInt far.elapsed = .ok elapsed from rounded]
    exact ⟨_, rfl⟩
  refine ⟨given, ?_, ⟨_, read_of_isLong long⟩, ?_⟩
  · obtain ⟨value, given⟩ := given
    exact json_of_long_line found long _ _ given
  · have infinite : Decimal.roundToInt (1.0 / 0.0) = .error .infinite := rfl
    rw [json, payload, metadata,
      show Decimal.roundToInt endless.elapsed = .error .infinite from infinite]
    rfl

end Diagnosis

end Checkup
