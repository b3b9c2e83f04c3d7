import Checkup.Proofs.Health.Score
import Checkup.Proofs.Report.Specification

/-!
# What suppression does to a report

A finding is suppressed by its rule or its file, which belong to its key, or by its analyzer, which
does not. What is suppressed by key may as well be dropped from the finished report
(`combine_suppressed`). Suppression by analyzer may let a finding of another analyzer take the place
of the first one of an issue, and only in this way can more entries make the score worse
(`score_le_or_replaced`).
-/

namespace Checkup

namespace Suppression

/-- Entries that name rules without their analyzers. -/
def Bare (entries : List CodeText) : Prop := ∀ entry ∈ entries, CodePoint.char '/' ∉ entry.points

/-- A finding is suppressed by what belongs to its key: its rule or its file. -/
def SuppressesIssue (suppression : Suppression) (finding : Finding) : Prop :=
  CodeText.ofString finding.rule ∈ suppression.rules ∨
    ∃ glob ∈ suppression.files, Glob.describes glob finding.file = true

instance (suppression : Suppression) : DecidablePred suppression.SuppressesIssue := fun _ =>
  inferInstanceAs (Decidable (_ ∨ _))

theorem suppresses_iff {suppression : Suppression} {finding : Finding} :
    suppression.Suppresses finding ↔
      suppression.SuppressesIssue finding ∨
        CodeText.ofString finding.qualifiedRule ∈ suppression.rules := by
  unfold Suppresses SuppressesIssue Finding.qualifiedRule
  constructor
  · rintro (rule | qualified | file)
    · exact Or.inl (Or.inl rule)
    · exact Or.inr qualified
    · exact Or.inl (Or.inr file)
  · rintro ((rule | file) | qualified)
    · exact Or.inl rule
    · exact Or.inr (Or.inr file)
    · exact Or.inr (Or.inl qualified)

theorem suppressesIssue_congr (suppression : Suppression) {a b : Finding} (key : a.key = b.key) :
    suppression.SuppressesIssue a ↔ suppression.SuppressesIssue b := by
  have file : a.file = b.file := congrArg Prod.fst key
  have rule : a.rule = b.rule := congrArg (fun key => key.2.2) key
  rw [SuppressesIssue, SuppressesIssue, file, rule]

theorem slash_mem_qualifiedRule (finding : Finding) :
    CodePoint.char '/' ∈ (CodeText.ofString finding.qualifiedRule).points := by
  simp [CodeText.ofString, CodeText.ofChars, Finding.qualifiedRule]

theorem suppresses_iff_of_bare {suppression : Suppression} (bare : Bare suppression.rules)
    (finding : Finding) :
    suppression.Suppresses finding ↔ suppression.SuppressesIssue finding := by
  rw [suppresses_iff]
  refine or_iff_left ?_
  intro listed
  exact bare _ listed (slash_mem_qualifiedRule finding)

theorem not_suppresses_empty (finding : Finding) :
    ¬ Suppression.Suppresses {} finding := by
  rintro (rule | qualified | ⟨glob, listed, _⟩)
  · cases rule
  · cases qualified
  · cases listed

theorem Suppresses.mono {narrow wide : Suppression} (rules : narrow.rules ⊆ wide.rules)
    (files : narrow.files ⊆ wide.files) {finding : Finding}
    (suppressed : narrow.Suppresses finding) : wide.Suppresses finding := by
  rcases suppressed with rule | qualified | ⟨glob, listed, described⟩
  · exact Or.inl (rules rule)
  · exact Or.inr (Or.inl (rules qualified))
  · exact Or.inr (Or.inr ⟨glob, files listed, described⟩)

end Suppression

namespace Report

open Finding

/-! ### The findings that a report is made of -/

/-- What is left of the findings of some sources, in the common form, when the suppressed ones have
gone. -/
def candidates (root : Path) (suppression : Suppression) (sources : List (List Finding)) :
    List Finding :=
  (sources.flatten.map (normalised root)).filter fun finding => ¬ suppression.Suppresses finding

section

variable {root : Path} {suppression : Suppression} {sources : List (List Finding)}

theorem mem_candidates {finding : Finding} :
    finding ∈ candidates root suppression sources ↔
      finding ∈ sources.flatten.map (normalised root) ∧ ¬ suppression.Suppresses finding := by
  rw [candidates, List.mem_filter, decide_eq_true_iff]

theorem combine_eq_candidates (root : Path) (suppression : Suppression)
    (sources : List (List Finding)) :
    combine root suppression sources =
      ordered (distinct (candidates root suppression sources)) := by
  unfold combine candidates
  refine congrArg (fun findings => ordered (distinct findings)) (List.filter_congr ?_)
  intro finding _
  simp [← Suppression.covers_iff]

theorem mem_distinct_iff {findings : List Finding} {finding : Finding} :
    finding ∈ distinct findings ↔
      findings.find? (fun other => other.key = finding.key) = some finding := by
  rw [← Option.mem_toList, ← filter_key_distinct, List.mem_filter]
  simp

theorem mem_combine_iff {finding : Finding} :
    finding ∈ combine root suppression sources ↔
      (candidates root suppression sources).find? (fun other => other.key = finding.key) =
        some finding := by
  rw [combine_eq_candidates, (ordered_perm _).mem_iff, mem_distinct_iff]

theorem mem_candidates_of_mem_combine {finding : Finding}
    (reported : finding ∈ combine root suppression sources) :
    finding ∈ candidates root suppression sources :=
  List.mem_of_find?_eq_some (mem_combine_iff.mp reported)

theorem settled_combine (root : Path) (suppression : Suppression) (sources : List (List Finding)) :
    Settled (combine root suppression sources) := by
  intro finding reported
  have candidate := mem_candidates_of_mem_combine reported
  obtain ⟨raw, _, rfl⟩ := List.mem_map.mp (mem_candidates.mp candidate).1
  exact Severity.settled_eq raw.severity

/-- A report has a finding for every issue among its candidates. -/
theorem exists_mem_combine {finding : Finding}
    (candidate : finding ∈ candidates root suppression sources) :
    ∃ first ∈ combine root suppression sources, first.key = finding.key := by
  have some_ : ((candidates root suppression sources).find?
      fun other => other.key = finding.key).isSome := by
    rw [List.find?_isSome]
    exact ⟨finding, candidate, decide_eq_true rfl⟩
  obtain ⟨first, found⟩ := Option.isSome_iff_exists.mp some_
  have same : first.key = finding.key := by simpa using List.find?_some found
  refine ⟨first, ?_, same⟩
  rw [mem_combine_iff, same]
  exact found

theorem nodup_keys_combine (root : Path) (suppression : Suppression)
    (sources : List (List Finding)) :
    ((combine root suppression sources).map Finding.key).Nodup := by
  rw [combine_eq_candidates, ((ordered_perm _).map _).nodup_iff, List.Nodup, List.pairwise_map]
  refine (position_lt_of_distinct _).imp ?_
  intro a b before same
  rw [same] at before
  exact Nat.lt_irrefl _ before

/-- What is suppressed in addition may as well be left out of the source. -/
theorem combine_filter {narrow wide : Suppression} {findings : List Finding}
    {keep : Finding → Bool}
    (same : ∀ finding ∈ findings, wide.Suppresses (finding.normalised root) ↔
      narrow.Suppresses (finding.normalised root) ∨ ¬ keep finding = true) :
    combine root narrow [findings.filter keep] = combine root wide [findings] := by
  rw [combine_eq_candidates, combine_eq_candidates]
  unfold candidates
  rw [List.flatten_singleton, List.flatten_singleton, List.filter_map, List.filter_map,
    List.filter_filter]
  refine congrArg (fun findings => ordered (distinct (findings.map (normalised root))))
    (List.filter_congr ?_)
  intro finding member
  have both := same finding member
  by_cases kept : keep finding = true
  · simp [kept, both]
  · simp [kept, both]

end

/-! ### Suppression by key -/

/-- Where entries name rules without their analyzers, the report is the one without suppression less
what is suppressed. Whatever the entries are, they bring no new issue into the report. -/
theorem combine_suppressed (root : Path) (settings : Option Settings)
    (sources : List (List Finding)) :
    (Suppression.Bare (Settings.ignoredRules settings) →
      combine root (Settings.suppressionOf settings) sources =
        (combine root (Settings.suppressionOf none) sources).filter fun finding =>
          ¬ (CodeText.ofString finding.rule ∈ Settings.ignoredRules settings ∨
            ∃ glob ∈ Settings.ignoredFiles settings, Glob.describes glob finding.file = true)) ∧
      (combine root (Settings.suppressionOf settings) sources).map Finding.key ⊆
        (combine root (Settings.suppressionOf none) sources).map Finding.key := by
  rw [← Settings.rules_suppressionOf, ← Settings.files_suppressionOf]
  generalize Settings.suppressionOf settings = suppression
  have everything : candidates root (Settings.suppressionOf none) sources =
      sources.flatten.map (normalised root) := by
    refine List.filter_eq_self.mpr ?_
    intro finding _
    exact decide_eq_true (Suppression.not_suppresses_empty finding)
  refine ⟨?_, ?_⟩
  · intro bare
    show _ = (combine root _ sources).filter fun finding => ¬ suppression.SuppressesIssue finding
    rw [combine_eq_candidates, combine_eq_candidates, everything, ← ordered_filter,
      ← distinct_filter]
    · unfold candidates
      simp only [Suppression.suppresses_iff_of_bare bare]
    · intro a b key
      simp only [suppression.suppressesIssue_congr key]
  · intro key listed
    obtain ⟨finding, reported, rfl⟩ := List.mem_map.mp listed
    have raw := (mem_candidates.mp (mem_candidates_of_mem_combine reported)).1
    rw [← everything] at raw
    obtain ⟨first, member, same⟩ := exists_mem_combine raw
    exact same ▸ List.mem_map_of_mem member

/-- Two analyzers report an issue, and its rule is ignored. -/
theorem combine_bare_rule :
    let settings : Settings := { suppression := { rules := ["no-eval"], files := ["legacy/**"] } }
    let sources := [[evalFinding "style" .warning], [evalFinding "audit" .error]]
    let root : Path := ⟨1, ["proj"]⟩
    Suppression.Bare (Settings.ignoredRules (some settings)) ∧
      combine root (Settings.suppressionOf (some settings)) sources =
        (combine root (Settings.suppressionOf none) sources).filter fun finding =>
          ¬ (CodeText.ofString finding.rule ∈ settings.suppression.rules ∨
            ∃ glob ∈ settings.suppression.files, Glob.describes glob finding.file = true) := by
  intro settings sources root
  have bare : Suppression.Bare (Settings.ignoredRules (some settings)) := by
    intro entry listed
    obtain rfl : entry = CodeText.ofString "no-eval" := by
      simpa [Settings.ignoredRules, settings] using listed
    decide
  exact ⟨bare, (combine_suppressed root (some settings) sources).1 bare⟩

end Report

/-! ### Scores -/

namespace Health

theorem errors_add_warnings {findings : List Finding} (settled : Report.Settled findings) :
    errors findings + warnings findings = findings.length := by
  have rest : warnings findings = findings.countP fun finding => ¬ finding.severity.isError := by
    refine List.countP_congr ?_
    intro finding member
    rcases settled finding member with error | warning
    · simp [error, Severity.isError, Severity.isWarning]
    · simp [warning, Severity.isError, Severity.isWarning]
  rw [rest]
  exact (List.length_eq_countP_add_countP _).symm

/-- Fewer errors among no more findings are no worse. -/
theorem score_le_of_settled {xs ys : List Finding} (left : Report.Settled xs)
    (right : Report.Settled ys) (fewer : errors ys ≤ errors xs) (shorter : ys.length ≤ xs.length) :
    (ofFindings xs).score ≤ (ofFindings ys).score := by
  have allLeft := errors_add_warnings left
  have allRight := errors_add_warnings right
  rw [score_eq, score_eq]
  omega

end Health

namespace Report

open Finding

theorem find?_filter_of_kept {findings : List Finding} {wanted : Finding → Bool} {first : Finding}
    (found : findings.find? wanted = some first) (keep : Finding → Bool)
    (kept : keep first = true) :
    (findings.filter keep).find? wanted = some first := by
  rw [List.find?_eq_some_iff_append] at found ⊢
  obtain ⟨hit, before, after, rfl, earlier⟩ := found
  refine ⟨hit, before.filter keep, after.filter keep, ?_, ?_⟩
  · rw [List.filter_append, List.filter_cons_of_pos kept]
  · intro other member
    exact earlier other (List.mem_filter.mp member).1

theorem countP_le_of_keys {xs ys : List Finding} {counted : Finding → Bool}
    (unique : (xs.map Finding.key).Nodup)
    (within : ∀ x ∈ xs, counted x = true → ∃ y ∈ ys, counted y = true ∧ y.key = x.key) :
    xs.countP counted ≤ ys.countP counted := by
  have subset : (xs.filter counted).map Finding.key ⊆ (ys.filter counted).map Finding.key := by
    intro key listed
    obtain ⟨x, member, rfl⟩ := List.mem_map.mp listed
    obtain ⟨inXs, count⟩ := List.mem_filter.mp member
    obtain ⟨y, inYs, also, same⟩ := within x inXs count
    exact same ▸ List.mem_map_of_mem (List.mem_filter.mpr ⟨inYs, also⟩)
  have distinctKeys : ((xs.filter counted).map Finding.key).Nodup :=
    unique.sublist (List.filter_sublist.map _)
  have shorter := (List.subperm_of_subset distinctKeys subset).length_le
  rw [List.length_map, List.length_map] at shorter
  rw [List.countP_eq_length_filter, List.countP_eq_length_filter]
  exact shorter

section

variable {root : Path} {narrow wide : Suppression} {sources : List (List Finding)}

theorem candidates_of_subset (rules : narrow.rules ⊆ wide.rules)
    (files : narrow.files ⊆ wide.files) :
    candidates root wide sources =
      (candidates root narrow sources).filter fun finding => ¬ wide.Suppresses finding := by
  unfold candidates
  rw [List.filter_filter]
  refine List.filter_congr ?_
  intro finding _
  by_cases suppressed : wide.Suppresses finding
  · simp [suppressed]
  · have shown : ¬ narrow.Suppresses finding := fun less => suppressed (less.mono rules files)
    simp [suppressed, shown]

/-- With more entries each issue of the report was there before. Its finding is the same, unless an
entry for the analyzer of that finding was added. -/
theorem exists_mem_combine_of_subset (rules : narrow.rules ⊆ wide.rules)
    (files : narrow.files ⊆ wide.files) {finding : Finding}
    (reported : finding ∈ combine root wide sources) :
    ∃ shown ∈ combine root narrow sources, shown.key = finding.key ∧
      (shown = finding ∨
        (CodeText.ofString shown.qualifiedRule ∈ wide.rules ∧
          CodeText.ofString shown.qualifiedRule ∉ narrow.rules ∧
          finding.plugin ≠ shown.plugin)) := by
  have candidate := mem_candidates_of_mem_combine reported
  have visible : ¬ wide.Suppresses finding := (mem_candidates.mp candidate).2
  rw [candidates_of_subset rules files] at candidate
  obtain ⟨shown, first, same⟩ := exists_mem_combine (List.mem_filter.mp candidate).1
  refine ⟨shown, first, same, ?_⟩
  by_cases suppressed : wide.Suppresses shown
  · right
    have unlisted : CodeText.ofString shown.qualifiedRule ∉ narrow.rules := by
      intro listed
      have hidden := Suppression.suppresses_iff.mpr (Or.inr listed)
      exact (mem_candidates.mp (mem_candidates_of_mem_combine first)).2 hidden
    rcases Suppression.suppresses_iff.mp suppressed with byKey | qualified
    · rw [wide.suppressesIssue_congr same] at byKey
      exact absurd (Suppression.suppresses_iff.mpr (Or.inl byKey)) visible
    · refine ⟨qualified, unlisted, ?_⟩
      intro plugin
      have rule : shown.rule = finding.rule := congrArg (fun key => key.2.2) same
      rw [qualifiedRule, ← plugin, rule, ← qualifiedRule] at qualified
      exact visible (Suppression.suppresses_iff.mpr (Or.inr qualified))
  · left
    have kept := find?_filter_of_kept (mem_combine_iff.mp first)
      (fun finding => ¬ wide.Suppresses finding) (decide_eq_true suppressed)
    rw [← candidates_of_subset rules files, same, mem_combine_iff.mp reported] at kept
    exact (Option.some.inj kept).symm

theorem score_le_or_exists_error (root : Path) (sources : List (List Finding))
    (rules : narrow.rules ⊆ wide.rules) (files : narrow.files ⊆ wide.files) :
    let before := combine root narrow sources
    let after := combine root wide sources
    (Health.ofFindings before).score ≤ (Health.ofFindings after).score ∨
      ∃ warning ∈ before, ∃ error ∈ after,
        warning.severity = .warning ∧ error.severity = .error ∧ error.key = warning.key ∧
          error.plugin ≠ warning.plugin ∧
          CodeText.ofString warning.qualifiedRule ∈ wide.rules ∧
          CodeText.ofString warning.qualifiedRule ∉ narrow.rules := by
  intro before after
  refine or_iff_not_imp_right.mpr ?_
  intro unreplaced
  have unique := nodup_keys_combine root wide sources
  have fewer : Health.errors after ≤ Health.errors before := by
    refine countP_le_of_keys unique ?_
    intro error reported isError
    obtain ⟨shown, first, same, alike⟩ := exists_mem_combine_of_subset rules files reported
    refine ⟨shown, first, ?_, same⟩
    rcases alike with rfl | ⟨added, unlisted, other⟩
    · exact isError
    · rcases settled_combine _ _ _ shown first with worse | warning
      · rw [worse]
        rfl
      · refine absurd ⟨shown, first, error, reported, warning, ?_, same.symm, other, added,
          unlisted⟩ unreplaced
        rcases settled_combine _ _ _ error reported with severity | severity
        · exact severity
        · rw [severity] at isError
          cases isError
  have shorter : after.length ≤ before.length := by
    rw [← List.countP_true]
    refine countP_le_of_keys unique ?_
    intro finding reported _
    obtain ⟨shown, first, same, _⟩ := exists_mem_combine_of_subset rules files reported
    exact ⟨shown, first, rfl, same⟩
  exact Health.score_le_of_settled (settled_combine _ _ _) (settled_combine _ _ _) fewer shorter

end

/-- With more entries the score is no worse, unless an added entry for one analyzer takes a warning
out of the report and an error of another analyzer takes its place. Added globs and rules without
their analyzers never make it worse. -/
theorem score_le_or_replaced (root : Path) (settings wider : Option Settings)
    (sources : List (List Finding))
    (rules : Settings.ignoredRules settings ⊆ Settings.ignoredRules wider)
    (files : Settings.ignoredFiles settings ⊆ Settings.ignoredFiles wider) :
    let before := combine root (Settings.suppressionOf settings) sources
    let after := combine root (Settings.suppressionOf wider) sources
    let noWorse := (Health.ofFindings before).score ≤ (Health.ofFindings after).score
    (noWorse ∨
      ∃ warning ∈ before, ∃ error ∈ after,
        warning.severity = .warning ∧ error.severity = .error ∧ error.key = warning.key ∧
          error.plugin ≠ warning.plugin ∧
          CodeText.ofString warning.qualifiedRule ∈ Settings.ignoredRules wider ∧
          CodeText.ofString warning.qualifiedRule ∉ Settings.ignoredRules settings) ∧
      ((∀ entry ∈ Settings.ignoredRules wider, entry ∉ Settings.ignoredRules settings →
        CodePoint.char '/' ∉ entry.points) → noWorse) := by
  intro before after noWorse
  rw [← Settings.rules_suppressionOf, ← Settings.rules_suppressionOf] at rules ⊢
  rw [← Settings.files_suppressionOf, ← Settings.files_suppressionOf] at files
  have outcome := score_le_or_exists_error root sources rules files
  refine ⟨outcome, ?_⟩
  intro bare
  rcases outcome with better | ⟨warning, _, _, _, _, _, _, _, added, unlisted⟩
  · exact better
  · exact absurd (Suppression.slash_mem_qualifiedRule warning) (bare _ added unlisted)

/-- Both analyzers' findings are suppressed by their rule, which is added to another one. -/
theorem score_of_bare_rule :
    let settings : Settings := { suppression := { rules := ["lint/no-debugger"] } }
    let wider : Settings :=
      { suppression := { rules := ["lint/no-debugger", "no-eval"], files := ["legacy/**"] } }
    let sources := [[evalFinding "style" .warning], [evalFinding "audit" .error]]
    let before := combine ⟨1, ["proj"]⟩ (Settings.suppressionOf (some settings)) sources
    let after := combine ⟨1, ["proj"]⟩ (Settings.suppressionOf (some wider)) sources
    settings.suppression.rules ⊆ wider.suppression.rules ∧
      settings.suppression.files ⊆ wider.suppression.files ∧
      (∀ entry ∈ wider.suppression.rules, entry ∉ settings.suppression.rules →
        CodePoint.char '/' ∉ entry.points) ∧
      (Health.ofFindings before).score ≤ (Health.ofFindings after).score := by
  intro settings wider sources before after
  have rules : settings.suppression.rules ⊆ wider.suppression.rules :=
    List.sublist_append_left _ _ |>.subset
  have bare : ∀ entry ∈ wider.suppression.rules, entry ∉ settings.suppression.rules →
      CodePoint.char '/' ∉ entry.points := by
    decide +kernel
  have outcome := score_le_or_replaced ⟨1, ["proj"]⟩ (some settings) (some wider) sources rules
    (List.nil_subset _)
  exact ⟨rules, List.nil_subset _, bare, outcome.2 bare⟩

/-- An entry for one analyzer takes its warning away, and the other analyzer's error comes to
light. -/
theorem score_lt_of_qualified_rule :
    let settings : Settings := {}
    let wider : Settings := { suppression := { rules := ["style/no-eval"] } }
    let sources := [[evalFinding "style" .warning], [evalFinding "audit" .error]]
    let before := combine ⟨1, ["proj"]⟩ (Settings.suppressionOf (some settings)) sources
    let after := combine ⟨1, ["proj"]⟩ (Settings.suppressionOf (some wider)) sources
    settings.suppression.rules ⊆ wider.suppression.rules ∧
      settings.suppression.files ⊆ wider.suppression.files ∧
      (Health.ofFindings after).score < (Health.ofFindings before).score := by
  refine ⟨List.nil_subset _, List.nil_subset _, ?_⟩
  decide +kernel

end Report

end Checkup
