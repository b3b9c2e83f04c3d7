import Checkup.Proofs.Path.Names
import Checkup.Proofs.Workspace.Lookups

/-!
# Trees

In a tree everything stands in directories. So a settled path leads to what stands at its parts, and
whether anything stands there can be told unless the path is too long (`stands_iff_of_has`).
-/

namespace Checkup.Workspace

/-- A location on the way to another. -/
def IsAbove (above location : Location) : Prop := above <+: location ∧ above ≠ location

/-- Whatever exists stands in directories and has names that are not too long. -/
structure IsTree (workspace : Workspace) : Prop where
  above : ∀ {location above}, workspace.get? location ≠ none → IsAbove above location →
    workspace.get? above = some .directory
  names : ∀ {location}, workspace.get? location ≠ none → ∀ part ∈ location, isTooLong part = false

/-- Some location on the way is a file. -/
def IsBelowFile (workspace : Workspace) (location : Location) : Prop :=
  ∃ above content, IsAbove above location ∧ workspace.get? above = some (.file content)

section

variable {workspace : Workspace} {location above here there : Location} {name : String} {path : Path}
  {entry : Entry}

/-! ### Locations -/

theorem isAbove_concat_iff : IsAbove above (here ++ [name]) ↔ above <+: here := by
  constructor
  · rintro ⟨opens, other⟩
    exact (List.prefix_concat_iff.mp opens).resolve_left other
  · intro opens
    refine ⟨opens.trans (List.prefix_append _ _), ?_⟩
    rintro rfl
    have longer := opens.length_le
    rw [List.length_append, List.length_singleton] at longer
    omega

theorem IsAbove.trans (isAbove : IsAbove above here) (opens : here <+: location) :
    IsAbove above location := by
  refine ⟨isAbove.1.trans opens, ?_⟩
  rintro rfl
  exact isAbove.2 (isAbove.1.eq_of_length_le opens.length_le)

theorem isAbove_iff_take : IsAbove above location ↔
    ∃ n < location.length, above = location.take n := by
  constructor
  · rintro ⟨opens, other⟩
    refine ⟨above.length, ?_, List.prefix_iff_eq_take.mp opens⟩
    refine Nat.lt_of_le_of_ne opens.length_le fun same => ?_
    exact other (opens.eq_of_length same)
  · rintro ⟨n, short, rfl⟩
    refine ⟨List.take_prefix n location, fun same => ?_⟩
    have shorter := congrArg List.length same
    rw [List.length_take] at shorter
    omega

theorem belowFile_iff : workspace.belowFile location = true ↔ workspace.IsBelowFile location := by
  simp only [belowFile, IsBelowFile, isAbove_iff_take, List.any_eq_true, List.mem_range]
  constructor
  · rintro ⟨n, short, file⟩
    split at file
    · next content stands => exact ⟨_, content, ⟨n, short, rfl⟩, stands⟩
    · cases file
  · rintro ⟨_, content, ⟨n, short, rfl⟩, stands⟩
    exact ⟨n, short, by rw [stands]⟩

/-! ### Lookups -/

theorem IsTree.follow_of_stands (tree : workspace.IsTree) {parts : List String}
    (stays : ∀ part ∈ parts, part ≠ "..") (stands : workspace.get? (here ++ parts) = some entry) :
    workspace.follow path here parts = .ok (here ++ parts, entry) := by
  induction parts generalizing here with
  | nil =>
    rw [List.append_nil] at stands ⊢
    rw [follow, stands]
  | cons part parts ih =>
    obtain ⟨below, later⟩ := List.forall_mem_cons.mp stays
    have exists' : workspace.get? (here ++ part :: parts) ≠ none := by simp [stands]
    have directory : workspace.get? here = some .directory :=
      tree.above exists' ⟨List.prefix_append _ _, by simp⟩
    have short : isTooLong part = false := tree.names exists' part (by simp)
    rw [List.append_cons] at stands ⊢
    rw [follow, directory]
    simp [below, short, ih later stands]

theorem eq_append_of_follow {parts : List String} (stays : ∀ part ∈ parts, part ≠ "..")
    (reached : workspace.follow path here parts = .ok (there, entry)) : there = here ++ parts := by
  induction parts generalizing here with
  | nil =>
    unfold follow at reached
    split at reached
    · cases reached
    · cases reached
      rw [List.append_nil]
  | cons part parts ih =>
    obtain ⟨below, later⟩ := List.forall_mem_cons.mp stays
    rw [follow_cons] at reached
    obtain ⟨middle, step, onward⟩ := exists_of_bind reached
    have down : middle = here ++ [part] := by
      unfold next at step
      split at step
      · cases step
      · cases step
      · rw [if_neg below] at step
        split at step
        · cases step
        · exact (Except.ok.inj step).symm
    rw [ih later onward, down, List.append_assoc]
    rfl

theorem find_of_clean (workspace : Workspace) (clean : ∀ part ∈ path.parts, '\x00' ∉ part.toList) :
    workspace.find path = if pathLimit ≤ path.text.utf8ByteSize then .error (.nameTooLong path)
      else workspace.follow path [] path.parts := by
  have noNull : ¬ path.parts.any (fun part => part.toList.contains '\x00') = true := by
    simpa using clean
  rw [find, if_neg noNull]

/-- Of a path that is too long as a whole it cannot be told whether it leads to anything. -/
theorem whole_of_has (clean : ∀ part ∈ path.parts, '\x00' ∉ part.toList) {found : Bool}
    (known : workspace.has path = .ok found) : path.text.utf8ByteSize < pathLimit := by
  refine Nat.not_le.mp fun long => ?_
  rw [has, find_of_clean workspace clean, if_pos long] at known
  cases known

theorem IsTree.stands_iff_of_has (tree : workspace.IsTree) (settled : Path.Settled path.parts)
    (clean : ∀ part ∈ path.parts, '\x00' ∉ part.toList) {found : Bool}
    (known : workspace.has path = .ok found) :
    found = true ↔ workspace.get? path.parts ≠ none := by
  have stays : ∀ part ∈ path.parts, part ≠ ".." := fun part member => (settled part member).notAbove
  have whole := Nat.not_le.mpr (whole_of_has clean known)
  rw [has, find_of_clean workspace clean, if_neg whole] at known
  constructor
  · rintro rfl
    split at known
    · next reached =>
      have stands := get?_of_follow reached
      rw [eq_append_of_follow stays reached, List.nil_append] at stands
      simp [stands]
    · cases known
    · cases known
  · intro exists'
    obtain ⟨entry, stands⟩ := Option.ne_none_iff_exists'.mp exists'
    have reached : workspace.follow path [] path.parts = .ok (path.parts, entry) :=
      tree.follow_of_stands stays stands
    rw [reached] at known
    exact (Except.ok.inj known).symm

end

end Checkup.Workspace
