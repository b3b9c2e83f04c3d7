import Checkup.GivenPath
import Checkup.Proofs.Path.Names
import Mathlib.Data.List.Basic

/-!
# Given paths of characters

A given path is a path exactly if it has characters only (`path?_eq_some_iff`). Then its text, its
suffix and its place under a directory are those of that path, so that given paths are no more than
paths wherever no half occurs.
-/

namespace Checkup

theorem mapM_eq_some_iff {α β : Type} {read : α → Option β} {write : β → α}
    (inverse : ∀ a b, read a = some b ↔ a = write b) {as : List α} {bs : List β} :
    as.mapM read = some bs ↔ as = bs.map write := by
  induction as generalizing bs with
  | nil => cases bs <;> simp
  | cons a as ih =>
    rw [List.mapM_cons]
    cases bs with
    | nil => simp [Option.bind_eq_some_iff]
    | cons b bs => simp [Option.bind_eq_some_iff, inverse, ih]

theorem Text.pieces_map {α β : Type} [DecidableEq α] [DecidableEq β] {f : α → β}
    (injective : Function.Injective f) (separator : α) (text : List α) :
    pieces (f separator) (text.map f) = (pieces separator text).map (List.map f) := by
  induction text with
  | nil => rfl
  | cons c rest ih =>
    rw [List.map_cons, pieces, pieces, ih]
    by_cases same : c = separator
    · rw [if_pos same, if_pos (congrArg f same)]
      rfl
    · rw [if_neg same, if_neg (injective.ne same)]
      cases pieces separator rest with
      | nil => rfl
      | cons piece more => rfl

theorem CodePoint.char_injective : Function.Injective CodePoint.char :=
  fun _ _ => CodePoint.char.inj

theorem CodeText.chars?_eq_some_iff {text : CodeText} {chars : List Char} :
    text.chars? = some chars ↔ text = ofChars chars := by
  obtain ⟨points⟩ := text
  rw [ofChars, CodeText.mk.injEq]
  refine mapM_eq_some_iff ?_
  intro point c
  cases point with
  | char d => simp
  | half place => simp

namespace GivenPath

theorem path?_eq_some_iff {given : GivenPath} {path : Path} :
    given.path? = some path ↔ given = ofPath path := by
  have inverse : ∀ (part : CodeText) (chars : List Char),
      part.chars? = some chars ↔ part = CodeText.ofChars chars :=
    fun _ _ => CodeText.chars?_eq_some_iff
  obtain ⟨slashes, parts, textual⟩ := given
  obtain ⟨pathSlashes, names⟩ := path
  simp only [path?, ofPath, Option.map_eq_some_iff, mapM_eq_some_iff inverse, mk.injEq,
    Path.mk.injEq]
  constructor
  · rintro ⟨spelled, rfl, rfl, rfl⟩
    simp [CodeText.ofString, Function.comp_def]
  · rintro ⟨rfl, rfl⟩
    exact ⟨names.map String.toList, by simp [CodeText.ofString, Function.comp_def], rfl,
      by simp [Function.comp_def]⟩

theorem path?_ofPath (path : Path) : (ofPath path).path? = some path := path?_eq_some_iff.mpr rfl

theorem path?_eq_none_iff {given : GivenPath} :
    given.path? = none ↔ ∀ path, given ≠ ofPath path := by
  simp only [Option.eq_none_iff_forall_ne_some, ne_eq, path?_eq_some_iff]

theorem join_ofPath (base path : Path) : (ofPath path).join base = ofPath (base.join path) := by
  by_cases relative : path.slashes = 0
  · simp [join, ofPath, Path.join, Path.isAbsolute, relative]
  · simp [join, ofPath, Path.join, Path.isAbsolute, relative]

theorem nameSuffix_map {α β : Type} [DecidableEq α] [DecidableEq β] {f : α → β}
    (injective : Function.Injective f) (dot : α) (name : List α) :
    Path.nameSuffix (f dot) (name.map f) = (Path.nameSuffix dot name).map f := by
  have test : (fun c => c != f dot) ∘ f = fun c => c != dot := by
    funext c
    rw [Function.comp_apply, Bool.eq_iff_iff, bne_iff_ne, bne_iff_ne, injective.ne_iff]
  unfold Path.nameSuffix
  simp only [← List.map_reverse, List.takeWhile_map, List.dropWhile_map, test, ← List.map_drop,
    List.isEmpty_map]
  split <;> simp

theorem suffix_ofPath (path : Path) : (ofPath path).suffix = CodeText.ofString path.suffix := by
  have last : ((ofPath path).parts.getLast?.getD "").points =
      ((path.parts.getLast?.getD "").toList).map CodePoint.char := by
    rw [ofPath, List.getLast?_map]
    cases path.parts.getLast? with
    | none => rfl
    | some name => rfl
  rw [suffix, last, nameSuffix_map CodePoint.char_injective, Path.suffix, CodeText.ofString,
    CodeText.ofChars, String.toList_ofList]

/-- A text of characters spells the same path either way. -/
theorem ofText?_ofString (s : String) : ofText? (CodeText.ofString s) = some (ofString s) := by
  have cut : ((Text.pieces (.char '/') (CodeText.ofString s).points).map CodeText.mk).filter
      (fun part : CodeText => part ≠ "" ∧ part ≠ ".") = (ofString s).parts := by
    show ((Text.pieces (CodePoint.char '/') (s.toList.map .char)).map CodeText.mk).filter _ =
      (Path.partsOf s.toList).map CodeText.ofString
    have named : CodeText.mk ∘ List.map .char = CodeText.ofString ∘ String.ofList := by
      funext piece
      simp [CodeText.ofString, CodeText.ofChars]
    rw [Text.pieces_map CodePoint.char_injective, List.map_map, named, ← List.map_map,
      List.filter_map, Path.partsOf]
    congr 2
    funext part
    rw [Function.comp_apply, Bool.eq_iff_iff]
    simp [CodeText.ofString_inj]
  have slashes : Path.leadingSlashes (.char '/') (CodeText.ofString s).points =
      (ofString s).slashes := by
    show Path.leadingSlashes (CodePoint.char '/') (s.toList.map .char) =
      Path.leadingSlashes '/' s.toList
    unfold Path.leadingSlashes
    rw [List.takeWhile_map, List.length_map]
    congr 3
    funext c
    rw [Function.comp_apply, Bool.eq_iff_iff]
    simp
  have textual := (ofString s).textual
  rw [← cut] at textual
  rw [ofText?, dif_pos textual, Option.some_inj]
  exact GivenPath.mk.injEq .. |>.mpr ⟨slashes, cut⟩

end GivenPath

/-! ### Characters that no path may hold -/

/-- Whether the path holds a character that no path may hold. -/
def Path.holdsNull (path : Path) : Bool := path.parts.any fun part => part.toList.contains '\x00'

namespace GivenPath

/-- Whether the path holds a character that no path may hold. -/
def holdsNull (path : GivenPath) : Bool :=
  path.parts.any fun part => part.points.contains (.char '\x00')

theorem holdsNull_ofPath (path : Path) : (ofPath path).holdsNull = path.holdsNull := by
  have part (s : String) :
      (CodeText.ofString s).points.contains (.char '\x00') = s.toList.contains '\x00' := by
    rw [Bool.eq_iff_iff, List.contains_iff_mem, List.contains_iff_mem]
    exact List.mem_map_of_injective CodePoint.char_injective
  rw [holdsNull, ofPath, List.any_map, Path.holdsNull]
  exact congrArg (path.parts.any ·) (funext part)

theorem holdsNull_join (root : Path) (path : GivenPath) : (path.join root).holdsNull =
    if path.slashes = 0 then root.holdsNull || path.holdsNull else path.holdsNull := by
  rw [← holdsNull_ofPath root]
  unfold join
  split
  · exact List.any_append
  · rfl

end GivenPath

end Checkup
