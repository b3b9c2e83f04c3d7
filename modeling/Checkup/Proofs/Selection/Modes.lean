import Checkup.Proofs.Selection.Restriction

/-!
# Given and listed components

Components are told by the suffix of their last part where paths are given, and by the end of the
whole name where git lists them. The two differ on one kind of name: one whose last part is the
ending of components and nothing else (`suffix_eq_iff`). Such a file is inspected when it is listed
and passed over when it is given, so that both ways select the same files just when no name is of
that kind (`selectComponents_given_eq_listed_iff`).
-/

namespace Checkup

theorem Text.suffix_of_suffix_last {separator : Char} {text word last : List Char}
    (final : (pieces separator text).getLast? = some last) (clean : separator ∉ word)
    (ends : word <:+ text) : word <:+ last := by
  induction text with
  | nil =>
    rw [List.suffix_nil.mp ends]
    exact List.nil_suffix
  | cons c text ih =>
    by_cases divided : separator ∈ c :: text
    · -- The last piece is that of the rest, and the word is no longer than the rest.
      have later : (pieces separator text).getLast? = some last := by
        by_cases same : c = separator
        · subst same
          rw [pieces_separator, List.getLast?_cons_of_ne_nil (pieces_ne_nil c text)] at final
          exact final
        · have more : (pieces separator text).tail ≠ [] := by
            have count := length_pieces separator text
            have inside : 0 < text.count separator :=
              List.count_pos_iff.mpr ((List.mem_cons.mp divided).resolve_left (Ne.symm same))
            intro none
            have length := congrArg List.length none
            rw [List.length_tail, List.length_nil] at length
            omega
          rw [pieces_cons_ne same, List.getLast?_cons_of_ne_nil more, List.getLast?_tail] at final
          split at final
          · cases final
          · exact final
      rcases List.suffix_cons_iff.mp ends with whole | inRest
      · rw [whole] at clean
        exact absurd divided clean
      · exact ih later inRest
    · have single : pieces separator (c :: text) = [c :: text] := by
        have joined := intercalate_pieces separator (c :: text)
        have count := length_pieces separator (c :: text)
        rw [List.count_eq_zero.mpr divided] at count
        obtain ⟨piece, only⟩ := List.length_eq_one_iff.mp count
        rw [only, List.intercalate_singleton] at joined
        rw [only, joined]
      rw [single, List.getLast?_singleton, Option.some_inj] at final
      rw [← final]
      exact ends

namespace Path

theorem exists_stem_of_nameSuffix {name ending : List Char} (nonempty : ending ≠ [])
    (suffix : nameSuffix '.' name = ending) : ∃ stem, stem ≠ [] ∧ name = stem ++ ending := by
  unfold nameSuffix at suffix
  dsimp only at suffix
  split at suffix
  · exact absurd suffix.symm nonempty
  · next proper =>
    rw [Bool.or_eq_true, not_or] at proper
    have parts := List.takeWhile_append_dropWhile (p := (· != '.')) (l := name.reverse)
    cases dropped : name.reverse.dropWhile (· != '.') with
    | nil =>
      rw [dropped] at proper
      exact absurd rfl proper.1
    | cons dot before =>
      have isDot : dot = '.' := by
        have head := List.head?_dropWhile_not (· != '.') name.reverse
        rw [dropped] at head
        simpa using head
      rw [dropped] at parts proper
      refine ⟨before.reverse, by simpa using proper.1, ?_⟩
      rw [← List.reverse_inj, ← parts, ← suffix, isDot]
      simp

theorem nameSuffix_eq_iff {name : List Char} :
    nameSuffix '.' name = componentSuffix.toList ↔
      ∃ stem, stem ≠ [] ∧ name = stem ++ componentSuffix.toList := by
  constructor
  · exact exists_stem_of_nameSuffix (by decide)
  · rintro ⟨stem, nonempty, rfl⟩
    exact nameSuffix_append nonempty

/-- The last part is the ending of components, and nothing stands before it. -/
def IsBareSuffix (name : String) : Prop :=
  (Text.pieces '/' name.toList).getLast? = some componentSuffix.toList

instance (name : String) : Decidable (IsBareSuffix name) := inferInstanceAs (Decidable (_ = _))

/-- A path has the suffix of components if its name ends so, unless that is all of its last part. -/
theorem suffix_eq_iff {name : String} (relative : IsRelative name) :
    (ofString name).suffix = componentSuffix ↔
      Text.closes componentSuffix name.toList = true ∧ ¬ IsBareSuffix name := by
  obtain ⟨last, final⟩ : ∃ last, (Text.pieces '/' name.toList).getLast? = some last :=
    Option.isSome_iff_exists.mp (List.getLast?_isSome.mpr (Text.pieces_ne_nil '/' name.toList))
  have ofLast : (ofString name).suffix = componentSuffix ↔
      nameSuffix '.' last = componentSuffix.toList := by
    rw [suffix, ofString_of_relative relative, List.getLast?_map, final, Option.map_some,
      Option.getD_some, String.toList_ofList, ← String.toList_inj, String.toList_ofList]
  rw [ofLast, nameSuffix_eq_iff, Text.closes, List.isSuffixOf_iff_suffix, IsBareSuffix, final,
    Option.some_inj]
  constructor
  · rintro ⟨stem, nonempty, rfl⟩
    refine ⟨(List.suffix_append stem _).trans (Text.suffix_of_getLast?_pieces final), ?_⟩
    intro bare
    exact nonempty (List.append_left_eq_self.mp bare)
  · rintro ⟨ends, more⟩
    obtain ⟨stem, whole⟩ := Text.suffix_of_suffix_last final (by decide) ends
    refine ⟨stem, ?_, whole.symm⟩
    rintro rfl
    exact more whole.symm

end Path

/-! ### Selected files -/

theorem selectComponents_names {git : Git} (root : Path) {names : List String}
    (nonempty : names ≠ []) (relative : ∀ name ∈ names, Path.IsRelative name) :
    (selectComponents git root (some (names.map .ofString))).value = .ok (filesOf root
      ((names.filter fun name => Text.closes componentSuffix name.toList).filter
        fun name => ¬ Path.IsBareSuffix name)) := by
  rw [selectComponents_map nonempty, List.filter_filter]
  refine congrArg (fun kept => Except.ok (filesOf root kept)) (List.filter_congr ?_)
  intro name member
  have either := Path.suffix_eq_iff (relative name member)
  simp only [either, Bool.decide_and, Bool.decide_eq_true]
  exact Bool.and_comm _ _

/-- The names that git lists select the same files when they are given, just when no name has the
ending of components for its whole last part. -/
theorem selectComponents_given_eq_listed_iff (git : Git) (root : Path) {names : List String}
    (listed : Git.listing .inventory (git.answer .inventory) = .ok names) (nonempty : names ≠ [])
    (relative : ∀ name ∈ names, Path.IsRelative name) :
    (selectComponents git root (some (names.map .ofString))).value =
        (selectComponents git root none).value ↔
      ∀ name ∈ names, ¬ Path.IsBareSuffix name := by
  rw [selectComponents_names root nonempty relative, selectComponents_listed root listed,
    Except.ok.injEq]
  constructor
  · intro same name member bare
    have shorter := congrArg List.length same
    rw [filesOf, filesOf, List.length_map, List.length_map, List.length_filter_eq_length_iff]
      at shorter
    have closes : Text.closes componentSuffix name.toList = true := by
      rw [Text.closes, List.isSuffixOf_iff_suffix]
      exact Text.suffix_of_getLast?_pieces bare
    exact of_decide_eq_true (shorter name (List.mem_filter.mpr ⟨member, closes⟩)) bare
  · intro none
    rw [List.filter_eq_self.mpr]
    intro name member
    exact decide_eq_true (none name (List.mem_filter.mp member).1)

/-- Names with several dots and without any, of which all components are selected both ways. -/
theorem selectComponents_dotted :
    let git : Git := ⟨fun _ => .output "src/App.vue\n.hidden.vue\nlib/..vue\nvue\nvue.ts\n"⟩
    let names := ["src/App.vue", ".hidden.vue", "lib/..vue", "vue", "vue.ts"]
    (selectComponents git ⟨1, ["proj"]⟩ (some (names.map .ofString))).value =
      (selectComponents git ⟨1, ["proj"]⟩ none).value := by
  intro git names
  refine (selectComponents_given_eq_listed_iff git ⟨1, ["proj"]⟩
    (show Git.listing .inventory _ = .ok names from rfl) (List.cons_ne_nil _ _) ?_).mpr ?_
  · decide +kernel
  · decide +kernel

/-- A file whose whole name is the ending is selected when it is listed and not when it is given. -/
theorem selectComponents_bare_suffix :
    let git : Git := ⟨fun _ => .output ".vue\nsrc/App.vue\n"⟩
    let names := [".vue", "src/App.vue"]
    Git.listing .inventory (git.answer .inventory) = .ok names ∧
      (∀ name ∈ names, Path.IsRelative name) ∧
      (selectComponents git ⟨1, ["proj"]⟩ (some (names.map .ofString))).value ≠
        (selectComponents git ⟨1, ["proj"]⟩ none).value := by
  intro git names
  refine ⟨rfl, by decide +kernel, ?_⟩
  intro same
  have files := congrArg Except.toOption same
  revert files
  decide +kernel

end Checkup
