import Checkup.Proofs.Workspace.Trees

/-!
# Created files

A file that can be created in a tree stands there afterwards, in directories, and nothing else
changes (`createFile_of_free`). If it cannot, then at most missing directories above it are made, and
to try again changes nothing (`createFile_again`).
-/

namespace Checkup.Workspace

/-- The second workspace differs from the first in a file and in the directories above it that were
missing. -/
structure Creates (before after : Workspace) (location : Location) (text : String) : Prop where
  written : after.get? location = some (.file (.text text))
  above : ∀ above, IsAbove above location → after.get? above = some .directory
  others : ∀ other, other ≠ location → before.get? other ≠ none ∨ ¬ IsAbove other location →
    after.get? other = before.get? other

/-- The second workspace differs from the first in directories that were missing above a location. -/
def AddsAbove (before after : Workspace) (location : Location) : Prop :=
  ∀ other, after.get? other = before.get? other ∨
    (IsAbove other location ∧ before.get? other = none ∧ after.get? other = some .directory)

section

variable {workspace after : Workspace} {location above other here : Location} {name text : String}
  {fault : PathFault}

theorem get?_nil (workspace : Workspace) : workspace.get? [] = some .directory := rfl

theorem get?_put {entry : Entry} (nonempty : location ≠ []) :
    (workspace.put location entry).get? other =
      if other = location then some entry else workspace.get? other := by
  cases other with
  | nil => simp [get?, nonempty.symm]
  | cons first rest => simp [get?, put]

theorem get?_makeDirectories : (workspace.makeDirectories location).get? other =
    (workspace.get? other).or (if other.isPrefixOf location then some .directory else none) := by
  cases other with
  | nil => rfl
  | cons first rest =>
    simp only [get?, makeDirectories, List.isEmpty_cons, Bool.false_eq_true, if_false]
    cases workspace.entry? (first :: rest) <;> rfl

/-! ### Directories -/

theorem createDirectories_of_directory (stands : workspace.get? location = some .directory) :
    workspace.createDirectories location = (workspace, .ok ()) := by
  rw [createDirectories, stands]

theorem get?_of_createDirectories (made : workspace.createDirectories location = (after, .ok ())) :
    after.get? location = some .directory := by
  unfold createDirectories at made
  split at made
  · cases made
  · next stands =>
    cases made
    exact stands
  · next missing =>
    split at made
    · cases made
    · split at made
      · cases made
      · cases made
        rw [get?_makeDirectories, missing]
        simp

theorem isPrefixOf_of_longer (longer : other.length < location.length) :
    location.isPrefixOf other = false := by
  rw [Bool.eq_false_iff, ne_eq, List.isPrefixOf_iff_prefix]
  intro opens
  have := opens.length_le
  omega

theorem file_of_makeDirectories {content : Content}
    (stands : (workspace.makeDirectories location).get? other = some (.file content)) :
    workspace.get? other = some (.file content) := by
  rw [get?_makeDirectories] at stands
  cases before : workspace.get? other with
  | some entry => simpa [before] using stands
  | none =>
    rw [before] at stands
    split at stands <;> cases stands

theorem makeDirectories_again : (workspace.makeDirectories location).makeDirectories location =
    workspace.makeDirectories location := by
  simp only [makeDirectories, mk.injEq]
  funext other
  cases workspace.entry? other with
  | some entry => rfl
  | none => cases other.isPrefixOf location <;> rfl

theorem exists_take_of_unmakable (found : workspace.unmakable? location = some above) :
    ∃ n < location.length, above = location.take (n + 1) ∧ above.dropLast = location.take n ∧
      (workspace.makeDirectories (location.take n)).unmakable? location = some above := by
  obtain ⟨unmade, before, later, split, first⟩ := List.find?_eq_some_iff_append.mp found
  obtain ⟨n, short, rfl⟩ := List.mem_map.mp (List.mem_of_find?_eq_some found)
  rw [List.mem_range] at short
  have dropped : (location.take (n + 1)).dropLast = location.take n := by
    rw [List.dropLast_eq_take, List.take_take, List.length_take]
    congr 1
    omega
  refine ⟨n, short, rfl, dropped, List.find?_eq_some_iff_append.mpr ⟨?_, before, later, split, ?_⟩⟩
  · have beyond : (location.take (n + 1)).isPrefixOf (location.take n) = false :=
      isPrefixOf_of_longer (by simp only [List.length_take]; omega)
    simpa [get?_makeDirectories, beyond] using unmade
  · intro other member
    have made := first other member
    simp only [Bool.not_and, Bool.or_eq_true, Bool.not_eq_true', Option.isNone_eq_false_iff]
      at made ⊢
    refine made.imp_left fun stands => ?_
    rw [get?_makeDirectories]
    simp [stands]

/-- To make directories again where they could not be made ends in the same way. -/
theorem createDirectories_again
    (failed : workspace.createDirectories location = (after, .error fault)) :
    after.createDirectories location = (after, .error fault) := by
  unfold createDirectories at failed
  split at failed
  · next stands =>
    cases failed
    rw [createDirectories, stands]
  · cases failed
  · next missing =>
    split at failed
    · next below =>
      cases failed
      rw [createDirectories, missing]
      simp only [below, if_true]
    · next notBelow =>
      split at failed
      · next above found =>
        cases failed
        obtain ⟨n, short, rfl, dropped, again⟩ := exists_take_of_unmakable found
        rw [dropped]
        have beyond : location.isPrefixOf (location.take n) = false :=
          isPrefixOf_of_longer (by simp only [List.length_take]; omega)
        have still : ¬ (workspace.makeDirectories (location.take n)).belowFile location := by
          rw [belowFile_iff] at notBelow ⊢
          rintro ⟨above, content, isAbove, stands⟩
          exact notBelow ⟨above, content, isAbove, file_of_makeDirectories stands⟩
        rw [createDirectories, get?_makeDirectories, missing, beyond]
        simp only [still, again, dropped, makeDirectories_again]
        rfl
      · cases failed

theorem addsAbove_makeDirectories (opens : location <+: here) :
    AddsAbove workspace (workspace.makeDirectories location) (here ++ [name]) := by
  intro other
  rw [get?_makeDirectories]
  cases before : workspace.get? other with
  | some entry => exact Or.inl rfl
  | none =>
    split
    · next on =>
      exact Or.inr ⟨isAbove_concat_iff.mpr ((List.isPrefixOf_iff_prefix.mp on).trans opens), rfl, rfl⟩
    · exact Or.inl rfl

theorem addsAbove_createDirectories {outcome : Except PathFault Unit}
    (created : workspace.createDirectories here = (after, outcome)) :
    AddsAbove workspace after (here ++ [name]) := by
  unfold createDirectories at created
  split at created
  · cases created
    exact fun _ => Or.inl rfl
  · cases created
    exact fun _ => Or.inl rfl
  · split at created
    · cases created
      exact fun _ => Or.inl rfl
    · split at created
      · next above found =>
        cases created
        obtain ⟨n, _, rfl, dropped, _⟩ := exists_take_of_unmakable found
        rw [dropped]
        exact addsAbove_makeDirectories (List.take_prefix n here)
      · cases created
        exact addsAbove_makeDirectories List.prefix_rfl

/-- In a tree all directories can be made on a way without files and long names. -/
theorem createDirectories_of_free (tree : workspace.IsTree)
    (free : ¬ workspace.IsBelowFile (here ++ [name]))
    (short : ∀ part ∈ here, isTooLong part = false) :
    ∃ made, workspace.createDirectories here = (made, .ok ()) ∧ ∀ other, made.get? other =
      (workspace.get? other).or (if other.isPrefixOf here then some .directory else none) := by
  cases stands : workspace.get? here with
  | some entry =>
    cases entry with
    | file content =>
      exact absurd ⟨here, content, isAbove_concat_iff.mpr List.prefix_rfl, stands⟩ free
    | directory =>
      refine ⟨workspace, createDirectories_of_directory stands, fun other => ?_⟩
      split
      · next opens =>
        by_cases same : other = here
        · rw [same, stands]
          rfl
        · rw [tree.above (by simp [stands]) ⟨List.isPrefixOf_iff_prefix.mp opens, same⟩]
          rfl
      · rw [Option.or_none]
  | none =>
    refine ⟨workspace.makeDirectories here, ?_, fun other => get?_makeDirectories⟩
    have notBelow : ¬ workspace.belowFile here := by
      rw [belowFile_iff]
      rintro ⟨above, content, isAbove, file⟩
      exact free ⟨above, content, isAbove_concat_iff.mpr isAbove.1, file⟩
    have makable : workspace.unmakable? here = none := by
      simp only [unmakable?, List.find?_eq_none]
      intro above member
      obtain ⟨n, inside, rfl⟩ := List.mem_map.mp member
      rw [List.mem_range] at inside
      rw [← List.take_append_getElem inside, List.getLast?_concat]
      simp [short _ (List.getElem_mem inside)]
    rw [createDirectories, stands]
    simp only [notBelow, makable]
    rfl

theorem short_of_createDirectories (tree : workspace.IsTree)
    (created : workspace.createDirectories here = (after, .ok ())) :
    ∀ part ∈ here, isTooLong part = false := by
  unfold createDirectories at created
  split at created
  · cases created
  · next stands => exact tree.names (by simp [stands])
  · split at created
    · cases created
    · split at created
      · cases created
      · next makable =>
        intro part member
        obtain ⟨n, inside, rfl⟩ := List.mem_iff_getElem.mp member
        have made := List.find?_eq_none.mp makable (here.take (n + 1))
          (List.mem_map.mpr ⟨n, List.mem_range.mpr inside, rfl⟩)
        rw [← List.take_append_getElem inside, List.getLast?_concat] at made
        by_cases missing : workspace.get? (here.take n ++ [here[n]]) = none
        · rw [missing] at made
          simpa using made
        · exact tree.names missing _ List.mem_concat_self

/-! ### Files -/

/-- A file cannot be created below another file. -/
theorem createFile_of_belowFile (tree : workspace.IsTree)
    (below : workspace.IsBelowFile location) :
    ∃ fault, workspace.createFile location text = (workspace, .error fault) := by
  obtain ⟨above, content, isAbove, file⟩ := below
  obtain rfl | ⟨here, name, rfl⟩ := List.eq_nil_or_concat location
  · exact absurd (List.prefix_nil.mp isAbove.1) isAbove.2
  rw [List.concat_eq_append] at isAbove ⊢
  have opens := isAbove_concat_iff.mp isAbove
  rw [createFile, List.dropLast_concat, createDirectories]
  cases stands : workspace.get? here with
  | some entry =>
    cases entry with
    | file content => exact ⟨_, rfl⟩
    | directory =>
      have directory : workspace.get? above = some .directory := by
        by_cases same : above = here
        · rw [same, stands]
        · exact tree.above (by simp [stands]) ⟨opens, same⟩
      rw [file] at directory
      cases directory
  | none =>
    have below : workspace.belowFile here = true := by
      refine belowFile_iff.mpr ⟨above, content, ⟨opens, ?_⟩, file⟩
      rintro rfl
      rw [file] at stands
      cases stands
    simp only [below]
    exact ⟨_, rfl⟩

/-- A file cannot take the place of a directory. -/
theorem createFile_of_directory (tree : workspace.IsTree)
    (stands : workspace.get? location = some .directory) :
    ∃ fault, workspace.createFile location text = (workspace, .error fault) := by
  have above : workspace.get? location.dropLast = some .directory := by
    by_cases root : location = []
    · rw [root]
      rfl
    · refine tree.above (by simp [stands]) ⟨List.dropLast_prefix _, fun same => root ?_⟩
      have := congrArg List.length same
      rw [List.length_dropLast] at this
      exact List.length_eq_zero_iff.mp (by omega)
  rw [createFile, createDirectories_of_directory above]
  dsimp only
  rw [writeFile, stands]
  exact ⟨_, rfl⟩

/-- Where nothing is in the way and no name is too long, a file is created. -/
theorem createFile_of_free (tree : workspace.IsTree) (free : ¬ workspace.IsBelowFile location)
    (noDirectory : workspace.get? location ≠ some .directory)
    (short : ∀ part ∈ location, isTooLong part = false) :
    ∃ after, workspace.createFile location text = (after, .ok ()) ∧
      Creates workspace after location text := by
  obtain rfl | ⟨here, name, rfl⟩ := List.eq_nil_or_concat location
  · exact absurd (get?_nil workspace) noDirectory
  rw [List.concat_eq_append] at free noDirectory short ⊢
  obtain ⟨shortAbove, shortName⟩ := List.forall_mem_append.mp short
  obtain ⟨made, created, get?_made⟩ := createDirectories_of_free tree free shortAbove
  have here_ne : here ++ [name] ≠ [] := by simp
  have same : made.get? (here ++ [name]) = workspace.get? (here ++ [name]) := by
    rw [get?_made, isPrefixOf_of_longer (by simp)]
    simp
  refine ⟨made.put (here ++ [name]) (.file (.text text)), ?_, ?_⟩
  · rw [createFile, List.dropLast_concat, created]
    dsimp only
    rw [writeFile, same]
    split
    · next stands => exact absurd stands noDirectory
    · rw [List.getLast?_concat]
      simp [shortName name List.mem_cons_self]
  · constructor
    · simp [get?_put here_ne]
    · intro above isAbove
      rw [get?_put here_ne, if_neg isAbove.2, get?_made,
        if_pos (List.isPrefixOf_iff_prefix.mpr (isAbove_concat_iff.mp isAbove))]
      cases stands : workspace.get? above with
      | none => rfl
      | some entry =>
        cases entry with
        | directory => rfl
        | file content => exact absurd ⟨above, content, isAbove, stands⟩ free
    · intro other apart kept
      rw [get?_put here_ne, if_neg apart, get?_made]
      rcases kept with exists' | notAbove
      · cases stands : workspace.get? other with
        | none => exact absurd stands exists'
        | some entry => rfl
      · have beside : ¬ other.isPrefixOf here = true := by
          rw [List.isPrefixOf_iff_prefix]
          exact fun opens => notAbove (isAbove_concat_iff.mpr opens)
        rw [if_neg beside, Option.or_none]

/-- If a file is created in a tree, no name is too long. -/
theorem short_of_createFile (tree : workspace.IsTree)
    (created : workspace.createFile location text = (after, .ok ())) :
    ∀ part ∈ location, isTooLong part = false := by
  obtain rfl | ⟨here, name, rfl⟩ := List.eq_nil_or_concat location
  · exact List.forall_mem_nil _
  rw [List.concat_eq_append] at created ⊢
  rw [createFile, List.dropLast_concat] at created
  split at created
  · cases created
  · next made directories =>
    refine List.forall_mem_append.mpr ⟨short_of_createDirectories tree directories, ?_⟩
    unfold writeFile at created
    split at created
    · cases created
    · rw [List.getLast?_concat] at created
      split at created
      · cases created
      · next fits => simpa using fits

theorem Creates.isTree (creates : Creates workspace after location text) (tree : workspace.IsTree)
    (noDirectory : workspace.get? location ≠ some .directory)
    (short : ∀ part ∈ location, isTooLong part = false) : after.IsTree := by
  have before : ∀ {other}, after.get? other ≠ none →
      other = location ∨ IsAbove other location ∨ workspace.get? other ≠ none := by
    intro other stands
    by_cases apart : other = location
    · exact Or.inl apart
    · by_cases isAbove : IsAbove other location
      · exact Or.inr (Or.inl isAbove)
      · rw [creates.others other apart (Or.inr isAbove)] at stands
        exact Or.inr (Or.inr stands)
  constructor
  · intro other above stands isAbove
    rcases before stands with rfl | beyond | stood
    · exact creates.above above isAbove
    · exact creates.above above (isAbove.trans beyond.1)
    · have directory := tree.above stood isAbove
      have apart : above ≠ location := by
        rintro rfl
        exact noDirectory directory
      rw [creates.others above apart (Or.inl (by simp [directory])), directory]
  · intro other stands part member
    rcases before stands with rfl | beyond | stood
    · exact short part member
    · exact short part (beyond.1.subset member)
    · exact tree.names stood part member

/-- Whatever is created in a tree is created as a file in a tree. -/
theorem creates_of_createFile (tree : workspace.IsTree)
    (created : workspace.createFile location text = (after, .ok ())) :
    Creates workspace after location text ∧ after.IsTree := by
  have noDirectory : workspace.get? location ≠ some .directory := by
    intro stands
    obtain ⟨fault, failed⟩ := createFile_of_directory tree stands
    rw [failed] at created
    cases created
  have free : ¬ workspace.IsBelowFile location := by
    intro below
    obtain ⟨fault, failed⟩ := createFile_of_belowFile tree below
    rw [failed] at created
    cases created
  have short := short_of_createFile tree created
  obtain ⟨other, same, creates⟩ := createFile_of_free tree free noDirectory short
  rw [same] at created
  cases created
  exact ⟨creates, creates.isTree tree noDirectory short⟩

/-! ### Failures -/

/-- A file cannot be created if its directories cannot be made or if it cannot be written in them,
which changes nothing more. -/
theorem createFile_error_cases
    (failed : workspace.createFile location text = (after, .error fault)) :
    workspace.createDirectories location.dropLast = (after, .error fault) ∨
      (workspace.createDirectories location.dropLast = (after, .ok ()) ∧
        after.writeFile location text = (after, .error fault)) := by
  unfold createFile at failed
  split at failed
  · next directories =>
    cases failed
    exact Or.inl directories
  · next made directories =>
    have same : made = after := by
      unfold writeFile at failed
      split at failed
      · exact congrArg Prod.fst failed
      · split at failed
        · exact congrArg Prod.fst failed
        · cases failed
    subst same
    exact Or.inr ⟨directories, failed⟩

theorem addsAbove_createFile
    (failed : workspace.createFile location text = (after, .error fault)) :
    AddsAbove workspace after location := by
  have directories : ∃ outcome, workspace.createDirectories location.dropLast = (after, outcome) := by
    rcases createFile_error_cases failed with unmade | ⟨made, _⟩
    · exact ⟨_, unmade⟩
    · exact ⟨_, made⟩
  obtain ⟨outcome, directories⟩ := directories
  obtain rfl | ⟨here, name, rfl⟩ := List.eq_nil_or_concat location
  · rw [List.dropLast_nil, createDirectories_of_directory (get?_nil workspace)] at directories
    cases directories
    exact fun _ => Or.inl rfl
  · rw [List.concat_eq_append] at directories ⊢
    rw [List.dropLast_concat] at directories
    exact addsAbove_createDirectories directories

/-- To create a file again where it could not be created changes nothing. -/
theorem createFile_again (failed : workspace.createFile location text = (after, .error fault)) :
    after.createFile location text = (after, .error fault) := by
  rw [createFile]
  rcases createFile_error_cases failed with directories | ⟨directories, unwritten⟩
  · rw [createDirectories_again directories]
  · rw [createDirectories_of_directory (get?_of_createDirectories directories)]
    exact unwritten

end

end Checkup.Workspace
