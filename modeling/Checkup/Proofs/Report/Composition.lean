import Checkup.Proofs.Path.Names
import Checkup.Proofs.Report.Suppression

/-!
# Reports of more sources, and of reports

A source that comes last adds findings to a report, and neither takes any away nor moves them
(`combine_append_source`). A report may itself be a source: what is in the common form stays as it
is, so that combining a report again gives it back (`combine_combine`).
-/

namespace Checkup

/-! ### The common form is kept -/

namespace Severity

theorem settled_settled (severity : Severity) : severity.settled.settled = severity.settled := by
  rcases settled_eq severity with error | warning
  · rw [error]; rfl
  · rw [warning]; rfl

end Severity

namespace Finding

theorem relativeFile_relativeFile (root : Path) (file : String) :
    relativeFile root (relativeFile root file) = relativeFile root file := by
  by_cases slash : Text.opens "/" file.toList = true
  · have relative : relativeFile root file = Path.relativeText root (.ofString file) :=
      if_pos slash
    rw [relative]
    apply if_neg
    rw [opens_slash_iff]
    exact Path.head?_relativeText_ne_slash root file
  · have same : relativeFile root file = file := if_neg slash
    rw [same, same]

theorem settledCategory_settledCategory (category : String) :
    settledCategory (settledCategory category) = settledCategory category := by
  by_cases known : knownCategories.contains category = true
  · have same : settledCategory category = category := if_pos known
    rw [same, same]
  · have other : settledCategory category = "Other" := if_neg known
    rw [other]
    rfl

theorem normalised_normalised (root : Path) (finding : Finding) :
    (finding.normalised root).normalised root = finding.normalised root := by
  apply Finding.ext
  case file => exact relativeFile_relativeFile root finding.file
  case severity => exact Severity.settled_settled finding.severity
  case category => exact settledCategory_settledCategory finding.category
  all_goals rfl

end Finding

/-! ### A later source -/

namespace Report

open Finding

section

variable {root : Path} {suppression : Suppression}

theorem candidates_append (sources more : List (List Finding)) :
    candidates root suppression (sources ++ more) =
      candidates root suppression sources ++ candidates root suppression more := by
  simp [candidates]

/-- The part of a report that is about the issues of the first sources is their report. -/
theorem combine_eq_filter_append (sources more : List (List Finding)) :
    combine root suppression sources =
      (combine root suppression (sources ++ more)).filter fun finding =>
        finding.key ∈ (candidates root suppression sources).map Finding.key := by
  rw [combine_eq_candidates, combine_eq_candidates, candidates_append, ← ordered_filter,
    distinct_append, List.filter_append]
  generalize candidates root suppression sources = earlier
  generalize candidates root suppression more = later
  have stay : (distinct earlier).filter (fun finding => finding.key ∈ earlier.map Finding.key) =
      distinct earlier := by
    apply List.filter_eq_self.mpr
    intro finding member
    have listed := List.mem_map_of_mem (f := Finding.key) ((distinct_sublist earlier).subset member)
    exact decide_eq_true listed
  have go : ((distinct later).filter fun finding => finding.key ∉ earlier.map Finding.key).filter
      (fun finding => finding.key ∈ earlier.map Finding.key) = [] := by
    apply List.filter_eq_nil_iff.mpr
    intro finding member
    simpa using (List.mem_filter.mp member).2
  rw [stay, go, List.append_nil]

end

/-- A source that comes last takes nothing out of a report and leaves the order as it was, and the
score is no better for it. -/
theorem combine_append_source (root : Path) (settings : Option Settings)
    (sources : List (List Finding)) (extra : List Finding) :
    let before := combine root (Settings.suppressionOf settings) sources
    let after := combine root (Settings.suppressionOf settings) (sources ++ [extra])
    before.Sublist after ∧ (Health.ofFindings after).score ≤ (Health.ofFindings before).score := by
  intro before after
  have kept : before.Sublist after := by
    show (combine root _ sources).Sublist after
    rw [combine_eq_filter_append sources [extra]]
    exact List.filter_sublist
  exact ⟨kept, Health.score_le_of_sublist kept⟩

/-! ### A report as a source -/

theorem ordered_of_ordered {findings : List Finding} (sorted : Ordered findings) :
    ordered findings = findings :=
  eq_of_ordered (ordered_ordered findings) sorted (filter_alongside_ordered findings)

/-- The findings of a report are in the common form, and none of them is suppressed. -/
theorem candidates_combine (root : Path) (suppression : Suppression)
    (sources : List (List Finding)) :
    candidates root suppression [combine root suppression sources] =
      combine root suppression sources := by
  have candidate : ∀ finding ∈ combine root suppression sources,
      finding.normalised root = finding ∧ ¬ suppression.Suppresses finding := by
    intro finding reported
    obtain ⟨normal, shown⟩ := mem_candidates.mp (mem_candidates_of_mem_combine reported)
    obtain ⟨raw, _, rfl⟩ := List.mem_map.mp normal
    exact ⟨normalised_normalised root raw, shown⟩
  have normal : (combine root suppression sources).map (normalised root) =
      combine root suppression sources := by
    have fixed := List.map_congr_left fun finding reported => (candidate finding reported).1
    exact fixed.trans (List.map_id _)
  rw [candidates, List.flatten_singleton, normal]
  apply List.filter_eq_self.mpr
  intro finding reported
  exact decide_eq_true (candidate finding reported).2

/-- A report combined again is the same report. -/
theorem combine_combine (root : Path) (settings : Option Settings)
    (sources : List (List Finding)) :
    let report := combine root (Settings.suppressionOf settings) sources
    combine root (Settings.suppressionOf settings) [report] = report := by
  intro report
  have unique := nodup_keys_combine root (Settings.suppressionOf settings) sources
  calc combine root (Settings.suppressionOf settings) [report]
      = ordered (distinct report) := by rw [combine_eq_candidates, candidates_combine]
    _ = ordered report := by rw [distinct_of_nodup unique]
    _ = report := ordered_of_ordered (ordered_ordered _)

end Report

end Checkup
