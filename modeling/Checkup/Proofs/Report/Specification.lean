import Checkup.Proofs.Report.Distinct
import Checkup.Proofs.Report.Order
import Checkup.Settings
import Mathlib.Data.List.Forall2
import Mathlib.Data.List.Sort

/-!
# What a report is

`IsReport` says what makes a list the report of some findings: which findings it has, how it is
ordered, and what happens where the order leaves a choice. `eq_combine_iff` shows that exactly one
list has these properties, and that it is the one that `combine` gives.
-/

namespace Checkup

/-! ### The common form -/

namespace Finding

/-- `normal` is `raw` in the form common to all analyzers. -/
structure IsNormalForm (root : Path) (raw normal : Finding) : Prop where
  absolute : raw.file.toList.head? = some '/' →
    normal.file = Path.relativeText root (.ofString raw.file)
  relative : raw.file.toList.head? ≠ some '/' → normal.file = raw.file
  /-- An error is what an analyzer calls one, in any case and between any blanks. -/
  error_iff : normal.severity = .error ↔ ∃ word, raw.severity.text.chars? = some word ∧
    String.ofList ((Text.trim word).map Char.toLower) ∈ ["error", "fatal", "2"]
  settled : normal.severity = .error ∨ normal.severity = .warning
  known : raw.category ∈ knownCategories → normal.category = raw.category
  unknown : raw.category ∉ knownCategories → normal.category = "Other"
  plugin : normal.plugin = raw.plugin
  rule : normal.rule = raw.rule
  message : normal.message = raw.message
  help : normal.help = raw.help
  line : normal.line = raw.line
  column : normal.column = raw.column

theorem opens_slash_iff {text : List Char} :
    Text.opens "/" text = true ↔ text.head? = some '/' := by
  rw [Text.opens, show "/".toList = ['/'] from rfl]
  cases text with
  | nil => simp
  | cons c rest =>
    rw [List.head?_cons, Option.some_inj, List.isPrefixOf_cons_cons, List.isPrefixOf_nil_left,
      Bool.and_true, beq_iff_eq, eq_comm]

end Finding

namespace Severity

theorem settled_eq (severity : Severity) :
    severity.settled = .error ∨ severity.settled = .warning := by
  unfold settled
  split
  · dsimp only
    split
    · exact Or.inl rfl
    · exact Or.inr rfl
  · exact Or.inr rfl

theorem settled_eq_error_iff (severity : Severity) : severity.settled = .error ↔
    ∃ word, severity.text.chars? = some word ∧
      String.ofList ((Text.trim word).map Char.toLower) ∈ ["error", "fatal", "2"] := by
  unfold settled
  cases severity.text.chars? with
  | none => simp
  | some chars =>
    dsimp only
    rw [show errorWords = ["error", "fatal", "2"] from rfl]
    split
    · next called =>
      exact ⟨fun _ => ⟨chars, rfl, List.contains_iff_mem.mp called⟩, fun _ => rfl⟩
    · next other =>
      constructor
      · intro impossible
        cases impossible
      · rintro ⟨word, same, called⟩
        rw [Option.some_inj] at same
        rw [← same] at called
        exact absurd (List.contains_iff_mem.mpr called) other

theorem eq_of_settled {a b : Severity} (left : a = .error ∨ a = .warning)
    (right : b = .error ∨ b = .warning) (same : a = .error ↔ b = .error) : a = b := by
  rcases left with rfl | rfl
  · exact (same.mp rfl).symm
  · rcases right with rfl | rfl
    · exact same.mpr rfl
    · rfl

end Severity

namespace Finding

theorem normalised_isNormalForm (root : Path) (raw : Finding) :
    IsNormalForm root raw (raw.normalised root) where
  absolute slash := if_pos (opens_slash_iff.mpr slash)
  relative other := if_neg fun slash => other (opens_slash_iff.mp slash)
  error_iff := Severity.settled_eq_error_iff raw.severity
  settled := Severity.settled_eq raw.severity
  known member := if_pos (List.contains_iff_mem.mpr member)
  unknown absent := if_neg fun member => absent (List.contains_iff_mem.mp member)
  plugin := rfl
  rule := rfl
  message := rfl
  help := rfl
  line := rfl
  column := rfl

/-- A finding has one normal form. -/
theorem IsNormalForm.eq {root : Path} {raw a b : Finding} (left : IsNormalForm root raw a)
    (right : IsNormalForm root raw b) : a = b := by
  have file : a.file = b.file := by
    by_cases slash : raw.file.toList.head? = some '/'
    · rw [left.absolute slash, right.absolute slash]
    · rw [left.relative slash, right.relative slash]
  have severity : a.severity = b.severity :=
    Severity.eq_of_settled left.settled right.settled (left.error_iff.trans right.error_iff.symm)
  have category : a.category = b.category := by
    by_cases known : raw.category ∈ knownCategories
    · rw [left.known known, right.known known]
    · rw [left.unknown known, right.unknown known]
  have plugin := left.plugin.trans right.plugin.symm
  have rule := left.rule.trans right.rule.symm
  have message := left.message.trans right.message.symm
  have help := left.help.trans right.help.symm
  have line := left.line.trans right.line.symm
  have column := left.column.trans right.column.symm
  exact Finding.ext file plugin rule severity message help line column category

theorem forall₂_isNormalForm_iff {root : Path} {raw normal : List Finding} :
    List.Forall₂ (IsNormalForm root) raw normal ↔ normal = raw.map (normalised root) := by
  constructor
  · intro forms
    induction forms with
    | nil => rfl
    | cons form _ ih => rw [List.map_cons, ← ih, form.eq (normalised_isNormalForm _ _)]
  · rintro rfl
    rw [List.forall₂_map_right_iff, List.forall₂_same]
    exact fun finding _ => normalised_isNormalForm root finding

end Finding

/-! ### Suppressed findings -/

/-- A finding is suppressed by its rule, by its analyzer and rule, or by its file. -/
def Suppression.Suppresses (suppression : Suppression) (finding : Finding) : Prop :=
  CodeText.ofString finding.rule ∈ suppression.rules ∨
    CodeText.ofString (finding.plugin ++ "/" ++ finding.rule) ∈ suppression.rules ∨
    ∃ glob ∈ suppression.files, Glob.describes glob finding.file = true

instance (suppression : Suppression) : DecidablePred suppression.Suppresses := fun _ =>
  inferInstanceAs (Decidable (_ ∨ _ ∨ _))

namespace Settings

/-- The rules that the settings ignore. Without settings there are none. -/
def ignoredRules : Option Settings → List CodeText
  | some settings => settings.suppression.rules
  | none => []

def ignoredFiles : Option Settings → List CodeText
  | some settings => settings.suppression.files
  | none => []

/-- The settings ignore a finding for its rule, with or without its analyzer, or for its file. -/
def Ignores (settings : Option Settings) (finding : Finding) : Prop :=
  CodeText.ofString finding.rule ∈ ignoredRules settings ∨
    CodeText.ofString (finding.plugin ++ "/" ++ finding.rule) ∈ ignoredRules settings ∨
    ∃ glob ∈ ignoredFiles settings, Glob.describes glob finding.file = true

instance (settings : Option Settings) : DecidablePred (Ignores settings) := fun _ =>
  inferInstanceAs (Decidable (_ ∨ _ ∨ _))

theorem rules_suppressionOf (settings : Option Settings) :
    (suppressionOf settings).rules = ignoredRules settings := by
  cases settings <;> rfl

theorem files_suppressionOf (settings : Option Settings) :
    (suppressionOf settings).files = ignoredFiles settings := by
  cases settings <;> rfl

theorem suppresses_suppressionOf_iff {settings : Option Settings} {finding : Finding} :
    (suppressionOf settings).Suppresses finding ↔ Ignores settings finding := by
  rw [Suppression.Suppresses, rules_suppressionOf, files_suppressionOf, Ignores]

end Settings

theorem Suppression.covers_iff {suppression : Suppression} {finding : Finding} :
    suppression.covers finding = true ↔ suppression.Suppresses finding := by
  simp [covers, Suppresses, Finding.qualifiedRule, or_assoc]

/-! ### Reports -/

namespace Report

open Finding

/-- Two findings of one rule on one line of one file. -/
def SameIssue (a b : Finding) : Prop := a.file = b.file ∧ a.line = b.line ∧ a.rule = b.rule

instance (a : Finding) : DecidablePred (SameIssue a) := fun _ =>
  inferInstanceAs (Decidable (_ ∧ _ ∧ _))

theorem decide_sameIssue (a : Finding) :
    (fun b => decide (SameIssue a b)) = fun b => decide (b.key = a.key) := by
  funext b
  apply decide_eq_decide.mpr
  simp only [SameIssue, key, Prod.mk.injEq, eq_comm]

/-- `report` is the report of the findings `normal`, in the common form and not suppressed. -/
structure IsReport (normal report : List Finding) : Prop where
  /-- Of the findings of one issue the report has the first, once, and it has nothing else. -/
  firsts : ∀ issue : Finding, report.filter (SameIssue issue ·) =
    (normal.find? (SameIssue issue ·)).toList
  sorted : report.Pairwise fun a b =>
    (a.severity = .error ∧ b.severity = .warning) ∨ (a.severity = b.severity ∧ a.file ≤ b.file)
  stable : report.Pairwise fun a b => a.severity = b.severity → a.file = b.file →
    normal.findIdx (SameIssue a ·) < normal.findIdx (SameIssue b ·)

theorem IsReport.filter_key {normal report : List Finding} (isReport : IsReport normal report)
    (issue : Finding) : report.filter (fun finding => finding.key = issue.key) =
      (normal.find? fun finding => finding.key = issue.key).toList := by
  rw [← decide_sameIssue]
  exact isReport.firsts issue

theorem findIdx_sameIssue (normal : List Finding) (a : Finding) :
    normal.findIdx (SameIssue a ·) = position normal a.key := by
  rw [decide_sameIssue]
  rfl

/-- Findings whose severity is an error or a warning. -/
def Settled (findings : List Finding) : Prop :=
  ∀ finding ∈ findings, finding.severity = .error ∨ finding.severity = .warning

theorem alongside_iff_of_settled {a b : Finding}
    (left : a.severity = .error ∨ a.severity = .warning)
    (right : b.severity = .error ∨ b.severity = .warning) :
    a.alongside b = true ↔ a.severity = b.severity ∧ a.file = b.file := by
  rw [alongside_iff]
  rcases left with ha | ha <;> rcases right with hb | hb <;> simp [rank, Severity.isError, ha, hb]

theorem notAfter_iff_of_settled {a b : Finding} (left : a.severity = .error ∨ a.severity = .warning)
    (right : b.severity = .error ∨ b.severity = .warning) :
    a.notAfter b = true ↔ (a.severity = .error ∧ b.severity = .warning) ∨
      (a.severity = b.severity ∧ a.file ≤ b.file) := by
  rw [notAfter_iff]
  rcases left with ha | ha <;> rcases right with hb | hb <;> simp [rank, Severity.isError, ha, hb]

theorem isReport_ordered_distinct {normal : List Finding} (settled : Settled normal) :
    IsReport normal (ordered (distinct normal)) where
  firsts issue := by
    rw [decide_sameIssue]
    have kept := (ordered_perm (distinct normal)).filter fun finding => finding.key = issue.key
    rw [filter_key_distinct] at kept
    cases found : normal.find? (fun finding => finding.key = issue.key) with
    | none =>
      rw [found] at kept
      exact List.perm_nil.mp kept
    | some first =>
      rw [found] at kept
      exact List.perm_singleton.mp kept
  sorted := by
    refine (ordered_ordered (distinct normal)).imp_of_mem ?_
    intro a b left right before
    have inside : ∀ f ∈ ordered (distinct normal), f ∈ normal := fun f member =>
      (distinct_sublist normal).subset ((ordered_perm _).mem_iff.mp member)
    exact (notAfter_iff_of_settled (settled a (inside a left))
      (settled b (inside b right))).mp before
  stable := by
    have groups : ∀ a : Finding, ((ordered (distinct normal)).filter a.alongside).Pairwise
        fun a b => position normal a.key < position normal b.key := by
      intro a
      rw [filter_alongside_ordered]
      exact (position_lt_of_distinct normal).filter _
    refine (pairwise_of_alongside groups).imp ?_
    intro a b increasing severity file
    rw [findIdx_sameIssue, findIdx_sameIssue]
    refine increasing (alongside_iff.mpr ⟨?_, file⟩)
    rw [rank, rank, severity]

theorem IsReport.mem_iff {normal report : List Finding} (isReport : IsReport normal report)
    (finding : Finding) : finding ∈ report ↔ finding ∈ distinct normal := by
  have byKey : ∀ xs : List Finding,
      finding ∈ xs ↔ finding ∈ xs.filter (fun other => other.key = finding.key) := by
    intro xs
    simp [List.mem_filter]
  rw [byKey report, byKey (distinct normal), isReport.filter_key, filter_key_distinct]

/-- There is one report. -/
theorem IsReport.eq_ordered_distinct {normal report : List Finding} (settled : Settled normal)
    (isReport : IsReport normal report) : report = ordered (distinct normal) := by
  have inside : ∀ f ∈ report, f.severity = .error ∨ f.severity = .warning := fun f member =>
    settled f ((distinct_sublist normal).subset ((isReport.mem_iff f).mp member))
  have sorted : Ordered report := by
    refine isReport.sorted.imp_of_mem ?_
    intro a b left right before
    exact (notAfter_iff_of_settled (inside a left) (inside b right)).mpr before
  refine eq_of_ordered sorted (ordered_ordered _) ?_
  intro a
  rw [filter_alongside_ordered]
  -- Both groups have the same members, and positions increase along both.
  let earlier : Finding → Finding → Prop := fun a b => position normal a.key < position normal b.key
  have : Std.Irrefl earlier := ⟨fun f => Nat.lt_irrefl _⟩
  have : Std.Antisymm earlier := ⟨fun f g before after => (Nat.lt_asymm before after).elim⟩
  have increasing : (report.filter a.alongside).Pairwise earlier := by
    refine (isReport.stable.filter _).imp_of_mem ?_
    intro f g left right steps
    obtain ⟨hf, besideF⟩ := List.mem_filter.mp left
    obtain ⟨hg, besideG⟩ := List.mem_filter.mp right
    have together := alongside_of_notAfter (notAfter_of_alongside besideF besideG)
      (notAfter_of_alongside besideG besideF)
    obtain ⟨severity, file⟩ := (alongside_iff_of_settled (inside f hf) (inside g hg)).mp together
    have before := steps severity file
    rwa [findIdx_sameIssue, findIdx_sameIssue] at before
  refine increasing.eq_of_mem_iff ((position_lt_of_distinct normal).filter _) ?_
  intro f
  rw [List.mem_filter, List.mem_filter, isReport.mem_iff]

/-- An analyzer's finding for a rule on the third line of a component. -/
def evalFinding (plugin : String) (severity : Severity) : Finding :=
  { file := "src/App.vue", plugin, rule := "no-eval", severity, message := "m", help := ""
    line := 3, column := 1, category := "Security" }

end Report

end Checkup
