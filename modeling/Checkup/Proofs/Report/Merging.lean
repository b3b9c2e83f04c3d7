import Checkup.Proofs.Path.Lexical
import Checkup.Proofs.Report.Suppression

/-!
# Findings that a report merges

Analyzers may write the path of one file in many ways. A report writes each absolute path in the one
canonical way relative to the project, so two findings of one rule on one line are one issue exactly
when their paths lead to the same place (`relativeFile_canonical`).
-/

namespace Checkup.Report

open Finding Checkup.Path

section

variable {root : Path} {suppression : Suppression} {sources : List (List Finding)}

theorem filter_key_combine (issue : Finding) :
    (combine root suppression sources).filter (fun finding => finding.key = issue.key) =
      ((candidates root suppression sources).find? fun finding =>
        finding.key = issue.key).toList := by
  have settled : Settled (candidates root suppression sources) := by
    intro finding member
    obtain ⟨raw, -, rfl⟩ := List.mem_map.mp (mem_candidates.mp member).1
    exact Severity.settled_eq raw.severity
  rw [combine_eq_candidates]
  exact (isReport_ordered_distinct settled).filter_key issue

/-- Two findings that are not suppressed come out as one exactly when they are of one issue. -/
theorem length_filter_keys_eq_one_iff {a b : Finding}
    (ha : a ∈ candidates root suppression sources) (hb : b ∈ candidates root suppression sources) :
    ((combine root suppression sources).filter fun finding =>
      finding.key = a.key ∨ finding.key = b.key).length = 1 ↔ a.key = b.key := by
  constructor
  · intro single
    obtain ⟨only, found⟩ := List.length_eq_one_iff.mp single
    obtain ⟨x, hx, sameA⟩ := exists_mem_combine ha
    obtain ⟨y, hy, sameB⟩ := exists_mem_combine hb
    have isOnly : ∀ z ∈ combine root suppression sources, z.key = a.key ∨ z.key = b.key →
        z = only := by
      intro z hz key
      rw [← List.mem_singleton, ← found, List.mem_filter]
      exact ⟨hz, by simpa using key⟩
    rw [← sameA, ← sameB, isOnly x hx (Or.inl sameA), isOnly y hy (Or.inr sameB)]
  · intro same
    have first : ((candidates root suppression sources).find?
        fun finding => finding.key = b.key).isSome := by
      rw [List.find?_isSome]
      exact ⟨b, hb, by simp⟩
    obtain ⟨finding, found⟩ := Option.isSome_iff_exists.mp first
    simp only [same, or_self, filter_key_combine, found]
    rfl

end

theorem relativeFile_of_absolute (root : Path) {file : String}
    (absolute : file.toList.head? = some '/') :
    relativeFile root file = relativeText root (.ofString file) :=
  if_pos (opens_slash_iff.mpr absolute)

/-- From a resolved directory, every absolute path is written in its canonical way. So findings of
one rule and line whose paths are absolute are merged exactly when the paths lead to one place. -/
theorem relativeFile_canonical {root : Path} (resolved : Path.Settled root.parts) :
    (∀ file : String, file.toList.head? = some '/' →
      IsCanonical root.parts file (relativeFile root file)) ∧
    ∀ (suppression : Suppression) (sources : List (List Finding)) (a b : Finding),
      a ∈ sources.flatten → b ∈ sources.flatten →
      a.file.toList.head? = some '/' → b.file.toList.head? = some '/' →
      a.line = b.line → a.rule = b.rule →
      ¬ suppression.Suppresses (a.normalised root) → ¬ suppression.Suppresses (b.normalised root) →
      (((combine root suppression sources).filter fun finding =>
          finding.key = (a.normalised root).key ∨ finding.key = (b.normalised root).key).length = 1 ↔
        ∃ place, LeadsTo (components a.file) place ∧ LeadsTo (components b.file) place) := by
  constructor
  · intro file absolute
    rw [relativeFile_of_absolute root absolute]
    exact isCanonical_relativeText resolved file
  · intro suppression sources a b ha hb absoluteA absoluteB line rule keptA keptB
    have ca := mem_candidates.mpr ⟨List.mem_map_of_mem ha, keptA⟩
    have cb := mem_candidates.mpr ⟨List.mem_map_of_mem hb, keptB⟩
    have keys : (a.normalised root).key = (b.normalised root).key ↔
        relativeFile root a.file = relativeFile root b.file := by
      simp [key, normalised, line, rule]
    rw [length_filter_keys_eq_one_iff ca cb, keys, relativeFile_of_absolute root absoluteA,
      relativeFile_of_absolute root absoluteB, relativeText_eq_iff resolved]

/-- A finding of one rule and line, with its file as an analyzer spells it. -/
def spelled (plugin file : String) : Finding where
  file := file
  plugin := plugin
  rule := "no-eval"
  severity := .warning
  message := "m"
  help := ""
  line := 3
  column := 1
  category := "Other"

/-- A spelling that goes above the root. -/
def aboveRoot : Finding := spelled "style" "/../proj/src/.//App.vue"

/-- A spelling of the same file that goes through another directory. -/
def acrossLib : Finding := spelled "audit" "//proj/lib/../src/App.vue"

theorem relativeFile_canonical_spellings :
    Path.Settled ["proj"] ∧
    IsCanonical ["proj"] aboveRoot.file (relativeFile ⟨1, ["proj"]⟩ aboveRoot.file) ∧
    ((combine ⟨1, ["proj"]⟩ {} [[aboveRoot], [acrossLib]]).filter fun finding =>
      finding.key = (aboveRoot.normalised ⟨1, ["proj"]⟩).key ∨
        finding.key = (acrossLib.normalised ⟨1, ["proj"]⟩).key).length = 1 := by
  have resolved : Path.Settled (⟨1, ["proj"]⟩ : Path).parts :=
    List.forall_mem_singleton.mpr ⟨by decide, by decide, by decide, by decide⟩
  obtain ⟨canonical, merged⟩ := relativeFile_canonical resolved
  have both := merged {} [[aboveRoot], [acrossLib]] aboveRoot acrossLib (by simp) (by simp)
    (by decide) (by decide) rfl rfl (Suppression.not_suppresses_empty _)
    (Suppression.not_suppresses_empty _)
  exact ⟨resolved, canonical _ (by decide), both.mpr ⟨["proj", "src", "App.vue"],
    leadsTo_components_iff.mpr (by decide), leadsTo_components_iff.mpr (by decide)⟩⟩

end Checkup.Report
