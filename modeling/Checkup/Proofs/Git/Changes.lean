import Checkup.Git

/-!
# Changes since a revision

Git is asked about one revision after the other until it answers (`Compares`). The names in that
answer are all that is taken from it, and without an answer nothing has changed.
-/

namespace Checkup.Git

/-- The names in an answer that are those of source files. -/
def sourceNames (text : String) : List String :=
  ((Text.lines text.toList).map String.ofList).filter fun name =>
    name ≠ "" ∧ ∃ ending ∈ sourceEndings, Text.closes ending name.toList = true

/-- Git gives no listing, and says why. -/
inductive Answer.Refuses : Answer → Prop
  | failed (words : String) : Refuses (.failed words)
  | unavailable (reason : String) : Refuses (.unavailable reason)

theorem Answer.Refuses.exists_listing {answer : Answer} (refuses : answer.Refuses)
    (question : Question) : ∃ message, listing question answer = .error (.failed message) := by
  cases refuses with
  | unavailable reason => exact ⟨_, rfl⟩
  | failed words =>
    rw [listing]
    split
    · exact ⟨_, rfl⟩
    · exact ⟨_, rfl⟩

/-- The first of some revisions for which git answers, and the names of the source files in the
answer. -/
inductive Compares (git : Git) : List String → String → List String → Prop
  | here {base text others} : git.answer (.changes base) = .output text →
      Compares git (base :: others) base (sourceNames text)
  | later {base others candidate names} : (git.answer (.changes base)).Refuses →
      Compares git others candidate names → Compares git (base :: others) candidate names

/-- For the first of some revisions for which git does not refuse, its output is not a text. -/
inductive Garbles (git : Git) : List String → Prop
  | here {base others} : git.answer (.changes base) = .binary → Garbles git (base :: others)
  | later {base others} : (git.answer (.changes base)).Refuses → Garbles git others →
      Garbles git (base :: others)

section

variable {git : Git} {directory : Path} {bases : List String} {candidate base : String}
  {names : List String}

theorem sourceFiles_eq_sourceNames (text : String) :
    sourceFiles (((Text.lines text.toList).filter fun name => !name.isEmpty).map String.ofList) =
      sourceNames text := by
  rw [sourceFiles, sourceNames, List.filter_map, List.filter_map, List.filter_filter]
  refine congrArg (List.map String.ofList) (List.filter_congr fun name _ => ?_)
  cases name with
  | nil => simp [String.ofList_nil]
  | cons c rest =>
    rw [Bool.eq_iff_iff]
    simp

theorem value_changesSince_of_output {text : String} {others : List String}
    (answered : git.answer (.changes base) = .output text) :
    (git.changesSince directory (base :: others)).value =
      .ok (some ⟨base, (sourceNames text).map fun name => directory.join (.ofString name)⟩) := by
  rw [← sourceFiles_eq_sourceNames]
  simp only [changesSince, ask, bind, answered, listing]
  rfl

theorem value_changesSince_of_refuses {others : List String}
    (refuses : (git.answer (.changes base)).Refuses) :
    (git.changesSince directory (base :: others)).value =
      (git.changesSince directory others).value := by
  obtain ⟨message, failed⟩ := refuses.exists_listing (.changes base)
  simp only [changesSince, ask, bind, failed]

theorem Compares.value_changesSince (compares : git.Compares bases candidate names) :
    (git.changesSince directory bases).value =
      .ok (some ⟨candidate, names.map fun name => directory.join (.ofString name)⟩) := by
  induction compares with
  | here answered => exact value_changesSince_of_output answered
  | later refuses _ ih => rw [value_changesSince_of_refuses refuses, ih]

theorem Garbles.value_changesSince (garbles : git.Garbles bases) :
    (git.changesSince directory bases).value = .error .undecoded := by
  induction garbles with
  | here undecoded =>
    simp only [changesSince, ask, bind, undecoded]
    rfl
  | later refuses _ ih => rw [value_changesSince_of_refuses refuses, ih]

/-- Without output for any of some revisions there is nothing to compare. -/
theorem value_changesSince_of_none (decoded : ¬ git.Garbles bases)
    (silent : ∀ candidate names, ¬ git.Compares bases candidate names) :
    (git.changesSince directory bases).value = .ok none := by
  induction bases with
  | nil => rfl
  | cons base others ih =>
    have refuses : (git.answer (.changes base)).Refuses := by
      cases answer : git.answer (.changes base) with
      | output text => exact absurd (.here answer) (silent _ _)
      | binary => exact absurd (.here answer) decoded
      | failed words => exact .failed words
      | unavailable reason => exact .unavailable reason
    rw [value_changesSince_of_refuses refuses]
    refine ih (fun garbles => decoded (.later refuses garbles)) ?_
    intro candidate names compares
    exact silent _ _ (.later refuses compares)

theorem Compares.value_changes
    (compares : git.Compares [base, fallbackBase] candidate names) :
    (git.changes directory base).value =
      .ok ⟨candidate, names.map fun name => directory.join (.ofString name)⟩ := by
  show Except.map _ (git.changesSince directory [base, fallbackBase]).value = _
  rw [compares.value_changesSince]
  rfl

theorem Garbles.value_changes (garbles : git.Garbles [base, fallbackBase]) :
    (git.changes directory base).value = .error .undecoded := by
  show Except.map _ (git.changesSince directory [base, fallbackBase]).value = _
  rw [garbles.value_changesSince]
  rfl

/-- If git answers for no revision, or names no source file, then nothing has changed. -/
theorem exists_changes_of_none (decoded : ¬ git.Garbles [base, fallbackBase])
    (nothing : ∀ candidate names,
      git.Compares [base, fallbackBase] candidate names → names = []) :
    ∃ changes, (git.changes directory base).value = .ok changes ∧ changes.files = [] := by
  by_cases answered : ∃ candidate names, git.Compares [base, fallbackBase] candidate names
  · obtain ⟨candidate, names, compares⟩ := answered
    obtain rfl := nothing candidate names compares
    exact ⟨_, compares.value_changes, rfl⟩
  · simp only [not_exists] at answered
    refine ⟨⟨base, []⟩, ?_, rfl⟩
    show Except.map _ (git.changesSince directory [base, fallbackBase]).value = _
    rw [value_changesSince_of_none decoded answered]
    rfl

end

end Checkup.Git
