import Checkup.Path
import Checkup.Proofs.Text.Pieces

/-!
# Names and settled paths

The parts of a settled path are names: they lead neither up nor nowhere, and no slash divides them.
Such a path is read back from its text, and the way to it from a directory above is the rest of its
parts. So a plain name, looked up in a settled directory, comes back as it was
(`relativeText_join`).
-/

namespace Checkup.Path

/-- A part that is a name. -/
structure IsName (part : String) : Prop where
  notEmpty : part ≠ ""
  notHere : part ≠ "."
  notAbove : part ≠ ".."
  undivided : '/' ∉ part.toList

/-- Parts that are all names. -/
def Settled (parts : List String) : Prop := ∀ part ∈ parts, IsName part

/-- A relative name, all of whose parts are names, whatever other characters they hold. -/
def IsRelative (name : String) : Prop :=
  ∀ piece ∈ Text.pieces '/' name.toList, piece ≠ [] ∧ piece ≠ ['.'] ∧ piece ≠ ['.', '.']

instance (name : String) : Decidable (IsRelative name) :=
  inferInstanceAs (Decidable (∀ piece ∈ _, _))

/-- A relative name of a file, all of whose parts are names. -/
def IsPlain (name : String) : Prop := '\x00' ∉ name.toList ∧ IsRelative name

instance (name : String) : Decidable (IsPlain name) := inferInstanceAs (Decidable (_ ∧ _))

theorem IsName.moves {part : String} (name : IsName part) : ¬ (part = "" ∨ part = ".") :=
  not_or.mpr ⟨name.notEmpty, name.notHere⟩

/-! ### Settling -/

theorem mem_partsOf {text : List Char} {part : String} (member : part ∈ partsOf text) :
    part ≠ "" ∧ part ≠ "." ∧ '/' ∉ part.toList := by
  obtain ⟨listed, kept⟩ := List.mem_filter.mp member
  obtain ⟨piece, cut, rfl⟩ := List.mem_map.mp listed
  rw [Bool.and_eq_true, bne_iff_ne, bne_iff_ne] at kept
  refine ⟨kept.1, kept.2, ?_⟩
  rw [String.toList_ofList]
  exact Text.not_mem_of_mem_pieces cut

theorem mem_climb {above : List String} {next part : String} (member : part ∈ climb above next) :
    part ∈ above ∨ (part = next ∧ part ≠ "..") := by
  unfold climb at member
  split at member
  · exact Or.inl (List.mem_of_mem_tail member)
  · next stays =>
    rcases List.mem_cons.mp member with rfl | before
    · exact Or.inr ⟨rfl, stays⟩
    · exact Or.inl before

theorem mem_foldl_climb {above parts : List String} {part : String}
    (member : part ∈ parts.foldl climb above) :
    part ∈ above ∨ (part ∈ parts ∧ part ≠ "..") := by
  induction parts generalizing above with
  | nil => exact Or.inl member
  | cons next parts ih =>
    rcases ih member with climbed | ⟨later, stays⟩
    · rcases mem_climb climbed with before | ⟨rfl, stays⟩
      · exact Or.inl before
      · exact Or.inr ⟨List.mem_cons_self, stays⟩
    · exact Or.inr ⟨List.mem_cons_of_mem _ later, stays⟩

theorem mem_settle {parts : List String} {part : String} (member : part ∈ settle parts) :
    part ∈ parts ∧ part ≠ ".." := by
  rcases mem_foldl_climb (List.mem_reverse.mp member) with none | kept
  · cases none
  · exact kept

theorem settled_resolve (directory target : String) :
    Settled (resolve (.ofString directory) (.ofString target)).parts := by
  intro part member
  obtain ⟨joined, stays⟩ := mem_settle member
  have spelled : part ∈ partsOf directory.toList ∨ part ∈ partsOf target.toList := by
    unfold join at joined
    split at joined
    · exact Or.inr joined
    · exact List.mem_append.mp joined
  obtain ⟨notEmpty, notHere, undivided⟩ := spelled.elim mem_partsOf mem_partsOf
  exact ⟨notEmpty, notHere, stays, undivided⟩

theorem foldl_climb_of_settled {parts : List String} (settled : Settled parts)
    (above : List String) : parts.foldl climb above = parts.reverse ++ above := by
  induction parts generalizing above with
  | nil => rfl
  | cons next parts ih =>
    have stays := (settled next List.mem_cons_self).notAbove
    rw [List.foldl_cons, climb, if_neg stays, ih fun part later =>
      settled part (List.mem_cons_of_mem _ later), List.reverse_cons, List.append_assoc]
    rfl

theorem settle_of_settled {parts : List String} (settled : Settled parts) :
    settle parts = parts := by
  rw [settle, foldl_climb_of_settled settled, List.append_nil, List.reverse_reverse]

theorem wayFrom_append (root parts : List String) : wayFrom root (root ++ parts) = parts := by
  induction root with
  | nil => rw [List.nil_append, wayFrom]
  | cons first root ih => rw [List.cons_append, wayFrom, if_pos rfl, ih]

/-! ### Reading -/

theorem filter_named {parts : List String} (settled : Settled parts) :
    (parts.filter fun part => part != "" && part != ".") = parts := by
  refine List.filter_eq_self.mpr ?_
  intro part member
  obtain ⟨notEmpty, notHere, _, _⟩ := settled part member
  rw [Bool.and_eq_true, bne_iff_ne, bne_iff_ne]
  exact ⟨notEmpty, notHere⟩

theorem map_ofList_toList (parts : List String) :
    (parts.map String.toList).map String.ofList = parts := by
  rw [List.map_map]
  exact (List.map_congr_left fun part _ => String.ofList_toList).trans (List.map_id parts)

theorem map_toList_ofList (pieces : List (List Char)) :
    (pieces.map String.ofList).map String.toList = pieces := by
  rw [List.map_map]
  exact (List.map_congr_left fun piece _ => String.toList_ofList).trans (List.map_id pieces)

theorem toList_text_of_spelled {path : Path} (spelled : path.slashes ≠ 0 ∨ path.parts ≠ []) :
    path.text.toList =
      List.replicate path.slashes '/' ++ ['/'].intercalate (path.parts.map String.toList) := by
  have written : ¬ (path.slashes = 0 ∧ path.parts = []) := by
    rintro ⟨unrooted, noPart⟩
    exact spelled.elim (· unrooted) (· noPart)
  rw [text, if_neg (by simpa using written), String.toList_append, String.toList_ofList,
    String.toList_intercalate]
  rfl

theorem toList_text (parts : List String) :
    (⟨1, parts⟩ : Path).text.toList = '/' :: ['/'].intercalate (parts.map String.toList) :=
  toList_text_of_spelled (Or.inl Nat.one_ne_zero)

/-- The parts of a settled absolute path are read back from its text. -/
theorem partsOf_text {parts : List String} (settled : Settled parts) (nonempty : parts ≠ []) :
    partsOf (⟨1, parts⟩ : Path).text.toList = parts := by
  have clean : ∀ part ∈ parts.map String.toList, '/' ∉ part :=
    List.forall_mem_map.mpr fun part member => (settled part member).undivided
  rw [toList_text, partsOf, Text.pieces_separator,
    Text.pieces_intercalate (by simpa using nonempty) clean, List.map_cons, map_ofList_toList,
    List.filter_cons_of_neg (by decide), filter_named settled]

theorem settled_of_relative {name : String} (relative : IsRelative name) :
    Settled ((Text.pieces '/' name.toList).map String.ofList) := by
  intro part member
  obtain ⟨piece, cut, rfl⟩ := List.mem_map.mp member
  obtain ⟨notEmpty, notHere, notAbove⟩ := relative piece cut
  have read : ∀ {word : String}, piece ≠ word.toList → String.ofList piece ≠ word := by
    intro word different same
    rw [← same, String.toList_ofList] at different
    exact different rfl
  refine ⟨read notEmpty, read notHere, read notAbove, ?_⟩
  rw [String.toList_ofList]
  exact Text.not_mem_of_mem_pieces cut

theorem ofString_of_relative {name : String} (relative : IsRelative name) :
    ofString name = ⟨0, (Text.pieces '/' name.toList).map String.ofList⟩ := by
  have unrooted : leadingSlashes '/' name.toList = 0 := by
    cases spelled : name.toList with
    | nil => rfl
    | cons c rest =>
      have first : c ≠ '/' := by
        rintro rfl
        refine (relative [] ?_).1 rfl
        rw [spelled, Text.pieces_separator]
        exact List.mem_cons_self
      rw [leadingSlashes, List.takeWhile_cons_of_neg (by simpa using first)]
      rfl
  rw [ofString, unrooted, partsOf, filter_named (settled_of_relative relative)]

theorem text_ofString {name : String} (plain : IsPlain name) : (ofString name).text = name := by
  apply String.toList_inj.mp
  rw [ofString_of_relative plain.2, toList_text_of_spelled (Or.inr (by simp [Text.pieces_ne_nil])),
    map_toList_ofList]
  exact Text.intercalate_pieces '/' name.toList

theorem join_of_plain (root : Path) {name : String} (plain : IsPlain name) :
    root.join (.ofString name) = ⟨root.slashes, root.parts ++ (ofString name).parts⟩ := by
  rw [join, ofString_of_relative plain.2]
  rfl

/-- A plain name is the way from a settled directory to the file of that name in it. -/
theorem relativeText_join {root : Path} (absolute : root.slashes = 1) (settled : Settled root.parts)
    {name : String} (plain : IsPlain name) :
    relativeText root (.ofString (root.join (.ofString name)).text) = name := by
  have parts := ofString_of_relative plain.2
  have inside : Settled (root.parts ++ (ofString name).parts) := by
    rw [parts]
    intro part member
    rcases List.mem_append.mp member with above | named
    · exact settled part above
    · exact settled_of_relative plain.2 part named
  have nonempty : root.parts ++ (ofString name).parts ≠ [] := by
    simp [parts, Text.pieces_ne_nil]
  calc relativeText root (.ofString (root.join (.ofString name)).text)
      = (⟨0, wayFrom root.parts (root.parts ++ (ofString name).parts)⟩ : Path).text := by
        rw [relativeText, join_of_plain root plain, absolute, ofString,
          partsOf_text inside nonempty, settle_of_settled inside, settle_of_settled settled]
    _ = (ofString name).text := by rw [wayFrom_append, parts]
    _ = name := text_ofString plain

/-! ### Ways -/

theorem mem_wayFrom {root target : List String} {part : String}
    (member : part ∈ wayFrom root target) : part = ".." ∨ part ∈ target := by
  fun_induction wayFrom root target with
  | case1 target => exact Or.inr member
  | case2 root _ =>
    obtain ⟨_, _, rfl⟩ := List.mem_map.mp member
    exact Or.inl rfl
  | case3 root name target ih =>
    rcases ih member with up | down
    · exact Or.inl up
    · exact Or.inr (List.mem_cons_of_mem _ down)
  | case4 r root t target different =>
    rcases List.mem_append.mp member with up | down
    · obtain ⟨_, _, rfl⟩ := List.mem_map.mp up
      exact Or.inl rfl
    · exact Or.inr down

theorem head?_text_ne_slash {parts : List String}
    (named : ∀ part ∈ parts, part ≠ "" ∧ '/' ∉ part.toList) :
    (⟨0, parts⟩ : Path).text.toList.head? ≠ some '/' := by
  cases parts with
  | nil => decide
  | cons first rest =>
    obtain ⟨notEmpty, undivided⟩ := named first List.mem_cons_self
    obtain ⟨c, cs, spelled⟩ : ∃ c cs, first.toList = c :: cs :=
      List.exists_cons_of_ne_nil (by simpa using notEmpty)
    have begins : (⟨0, first :: rest⟩ : Path).text.toList.head? = some c := by
      rw [toList_text_of_spelled (Or.inr (List.cons_ne_nil _ _))]
      cases rest with
      | nil => simp [spelled]
      | cons second rest => simp [spelled, List.intercalate_cons_cons]
    rw [begins, Ne, Option.some_inj]
    rintro rfl
    apply undivided
    rw [spelled]
    exact List.mem_cons_self

/-- A path that is written relative to a directory is not absolute any more. -/
theorem head?_relativeText_ne_slash (root : Path) (file : String) :
    (relativeText root (.ofString file)).toList.head? ≠ some '/' := by
  apply head?_text_ne_slash
  intro part member
  rcases mem_wayFrom member with rfl | below
  · decide
  · obtain ⟨notEmpty, _, undivided⟩ := mem_partsOf (mem_settle below).1
    exact ⟨notEmpty, undivided⟩

end Checkup.Path
