import Checkup.Proofs.Report.Suppression
import Checkup.Proofs.Selection.Modes

/-!
# Files given by their full paths

Files may be given by their paths from the root instead of their names. That selects the same
components, and a report on them is about no other files (`file_mem_of_reported`).
-/

namespace Checkup

namespace Path

variable {root : Path}

theorem join_join (absolute : root.slashes = 1) (path : Path) :
    root.join (root.join path) = root.join path := by
  have whole : (root.join path).isAbsolute = true := by
    unfold join
    split
    · next full => exact full
    · simp [isAbsolute, absolute]
  generalize root.join path = joined at whole ⊢
  rw [join, if_pos whole]

theorem suffix_join (root : Path) {name : String} (plain : IsPlain name) :
    (root.join (.ofString name)).suffix = (ofString name).suffix := by
  have named : (ofString name).parts ≠ [] := by
    simp [ofString_of_relative plain.2, Text.pieces_ne_nil]
  rw [join_of_plain root plain, suffix, suffix, List.getLast?_append_of_ne_nil _ named]

end Path

section

variable {workspace : Workspace} {git : Git} {root : Path} {names : List String}

/-- Full paths select the same files as the names do. -/
theorem selectComponents_full (git : Git) (absolute : root.slashes = 1) (nonempty : names ≠ [])
    (plain : ∀ name ∈ names, Path.IsPlain name) :
    (selectComponents git root (some (filesOf root names))).value =
      (selectComponents git root (some (names.map .ofString))).value := by
  have suffixes : (names.filter fun name =>
      (root.join (.ofString name)).suffix = componentSuffix) =
        names.filter fun name => (Path.ofString name).suffix = componentSuffix := by
    refine List.filter_congr fun name member => ?_
    rw [Path.suffix_join root (plain name member)]
  have given : filesOf root names ≠ [] := by simpa [filesOf] using nonempty
  rw [selectComponents_some given, selectComponents_map nonempty, filesOf_eq_map,
    givenComponents_map, List.filter_map, List.map_map, List.map_map]
  simp only [Function.comp_def, suffixes, filesOf, Path.join_join absolute]

/-- Whatever is reported on files that are given by their full paths is in one of the components
among them. -/
theorem file_mem_of_reported (absolute : root.slashes = 1) (settled : Path.Settled root.parts)
    (request : Request) (alone : request.analyzers = []) (project : Project)
    (settings : Option Settings) (nonempty : names ≠ [])
    (plain : ∀ name ∈ names, Path.IsPlain name) {finding : Finding}
    (reported : finding ∈ (examineUnder workspace git root
      { request with paths := some (filesOf root names) }
      project settings).value.findings) :
    finding.file ∈ names ∧ Text.closes componentSuffix finding.file.toList = true := by
  have selected := (selectComponents_full git absolute nonempty plain).trans
    (selectComponents_names root nonempty fun name member => (plain name member).2)
  generalize kept : (names.filter fun name => Text.closes componentSuffix name.toList).filter
    (fun name => ¬ Path.IsBareSuffix name) = components at selected
  have chosen : ∀ name ∈ components,
      name ∈ names ∧ Text.closes componentSuffix name.toList = true := by
    intro name member
    rw [← kept] at member
    exact List.mem_filter.mp (List.mem_filter.mp member).1
  have plainChosen : ∀ name ∈ components, Path.IsPlain name :=
    fun name member => plain name (chosen name member).1
  have given : filesOf root names ≠ [] := by simpa [filesOf] using nonempty
  rw [← scope_some given] at selected
  rw [findings_examineUnder_of_selected alone project settings selected plainChosen] at reported
  obtain ⟨raw, found, rfl⟩ := List.mem_map.mp
    (Report.mem_candidates.mp (Report.mem_candidates_of_mem_combine reported)).1
  rw [List.flatten_singleton] at found
  split at found
  · obtain ⟨name, member, inFile⟩ := List.mem_flatMap.mp found
    have file : (raw.normalised root).file = name :=
      relativeFile_of_mem_namedFindings absolute settled (plainChosen name member) inFile
    rw [file]
    exact chosen name member
  · cases found

end

end Checkup
