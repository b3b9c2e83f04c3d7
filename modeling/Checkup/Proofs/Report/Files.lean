import Checkup.Proofs.Report.Distinct
import Checkup.Proofs.Report.Order

/-!
# Reports on files

Files are inspected one by one, and what is found in a file names that file. Then the part of a
report that is about a file depends on the file alone: not on the place of the file among the
others, and not on how often it was inspected. So a report on some of the files is that part of the
report on all of them (`combine_flatMap_of_subset`).
-/

namespace Checkup.Report

open Finding

theorem distinct_filter_file {found : String → List Finding} {files : List String}
    (own : ∀ file ∈ files, ∀ finding ∈ found file, finding.file = file) (file : String) :
    distinct ((files.flatMap found).filter fun finding => finding.file = file) =
      if file ∈ files then distinct (found file) else [] := by
  induction files with
  | nil => rfl
  | cons first rest ih =>
    have ownRest : ∀ file ∈ rest, ∀ finding ∈ found file, finding.file = file :=
      fun file later => own file (List.mem_cons_of_mem _ later)
    rw [List.flatMap_cons, List.filter_append]
    by_cases same : first = file
    · subst same
      have whole : (found first).filter (fun finding => finding.file = first) = found first := by
        refine List.filter_eq_self.mpr ?_
        intro finding member
        rw [decide_eq_true_iff]
        exact own first List.mem_cons_self finding member
      rw [whole, if_pos List.mem_cons_self]
      -- What is found in the file again was found before.
      refine distinct_append_of_keys ?_
      intro finding again
      obtain ⟨inRest, about⟩ := List.mem_filter.mp again
      obtain ⟨other, later, member⟩ := List.mem_flatMap.mp inRest
      rw [decide_eq_true_iff, ownRest other later finding member] at about
      subst about
      exact List.mem_map_of_mem member
    · have none : (found first).filter (fun finding => finding.file = file) = [] := by
        refine List.filter_eq_nil_iff.mpr ?_
        intro finding member
        rw [decide_eq_true_iff, own first List.mem_cons_self finding member]
        exact same
      rw [none, List.nil_append, ih ownRest]
      have listed : file ∈ first :: rest ↔ file ∈ rest := by
        rw [List.mem_cons, or_iff_right (Ne.symm same)]
      simp only [listed]

theorem filter_alongside_distinct {found : String → List Finding} {files : List String}
    (own : ∀ file ∈ files, ∀ finding ∈ found file, finding.file = file) (a : Finding) :
    (distinct (files.flatMap found)).filter a.alongside =
      if a.file ∈ files then (distinct (found a.file)).filter a.alongside else [] := by
  have sameFile : ∀ findings : List Finding, findings.filter a.alongside =
      (findings.filter fun finding => finding.file = a.file).filter a.alongside := by
    intro findings
    rw [List.filter_filter]
    refine List.filter_congr ?_
    intro finding _
    by_cases beside : a.alongside finding = true
    · rw [beside, (alongside_iff.mp beside).2]
      simp
    · simp [beside]
  rw [sameFile, ← distinct_filter, distinct_filter_file own]
  · split
    · rfl
    · rfl
  · intro b c key
    rw [show b.file = c.file from congrArg Prod.fst key]

/-- A report on some files is the part about them of the report on more files. -/
theorem ordered_distinct_of_subset {found : String → List Finding} {chosen all : List String}
    (subset : chosen ⊆ all) (own : ∀ file ∈ all, ∀ finding ∈ found file, finding.file = file) :
    ordered (distinct (chosen.flatMap found)) =
      (ordered (distinct (all.flatMap found))).filter fun finding => finding.file ∈ chosen := by
  rw [← ordered_filter]
  refine ordered_congr ?_
  intro a
  rw [List.filter_filter,
    filter_alongside_distinct fun file member => own file (subset member)]
  by_cases member : a.file ∈ chosen
  · have kept : ∀ finding : Finding,
        (a.alongside finding && decide (finding.file ∈ chosen)) = a.alongside finding := by
      intro finding
      by_cases beside : a.alongside finding = true
      · rw [beside, ← (alongside_iff.mp beside).2]
        simp [member]
      · simp [beside]
    simp only [kept]
    rw [filter_alongside_distinct own, if_pos member, if_pos (subset member)]
  · rw [if_neg member]
    refine (List.filter_eq_nil_iff.mpr ?_).symm
    intro finding _ both
    rw [Bool.and_eq_true, decide_eq_true_iff] at both
    rw [(alongside_iff.mp both.1).2] at member
    exact member both.2

theorem combine_flatMap_of_subset {root : Path} {inspect : String → List Finding}
    {chosen all : List String} (subset : chosen ⊆ all)
    (own : ∀ file ∈ all, ∀ finding ∈ inspect file, relativeFile root finding.file = file)
    (suppression : Suppression) :
    combine root suppression [chosen.flatMap inspect] =
      (combine root suppression [all.flatMap inspect]).filter fun finding =>
        finding.file ∈ chosen := by
  have byFile : ∀ files : List String, combine root suppression [files.flatMap inspect] =
      ordered (distinct (files.flatMap fun file =>
        ((inspect file).map (normalised root)).filter fun finding =>
          !suppression.covers finding)) := by
    intro files
    rw [combine, List.flatten_singleton, List.map_flatMap, List.filter_flatMap]
  rw [byFile, byFile]
  refine ordered_distinct_of_subset subset ?_
  intro file listed finding member
  obtain ⟨raw, inFile, rfl⟩ := List.mem_map.mp (List.mem_filter.mp member).1
  exact own file listed raw inFile

end Checkup.Report
