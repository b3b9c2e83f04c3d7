import Checkup.Component
import Checkup.Proofs.Text.Cutting

/-!
# What the tags mark

The first region of a tag begins behind the first opening of the tag and ends at the next closing
one. If the first opening is never ended or closed, then no later one is (`Text.FirstAt.suffix`),
so there is nothing else to look for: `isExtracted_iff` says this of the two regions of a component.
-/

namespace Checkup.Region

/-- What an opening tag begins with. Attributes may follow. -/
def opening (tag : String) : List Char := ("<" ++ tag).toList

/-- A closing tag. -/
def closing (tag : String) : List Char := ("</" ++ tag ++ ">").toList

/-- Some opening of the tag is ended, and closed later. -/
def Closed (tag : String) (content : List Char) : Prop :=
  ∃ before attributes code after,
    content = before ++ opening tag ++ attributes ++ ['>'] ++ code ++ closing tag ++ after

/-- The tag is first opened behind `before`, with these attributes, and closed behind `code`. -/
structure Marks (tag : String) (content before attributes code after : List Char) : Prop where
  whole : content = before ++ opening tag ++ attributes ++ ['>'] ++ code ++ closing tag ++ after
  firstOpening : ∀ front back, content = front ++ opening tag ++ back →
    before.length ≤ front.length
  firstEnd : '>' ∉ attributes
  firstClosing : ∀ front back, code ++ closing tag = front ++ closing tag ++ back → back = []

/-- The region is what the tags mark, or absent if they mark nothing. -/
def IsExtracted (tag : String) (content : List Char) (region : Region) : Prop :=
  (Closed tag content → ∃ before attributes code after, Marks tag content before attributes code after ∧
    region = ⟨code, (before ++ opening tag ++ attributes ++ ['>']).count '\n'⟩) ∧
  (¬ Closed tag content → region = absent)

section

variable {tag : String} {content before attributes code after : List Char}

theorem marks_iff_firstAt : Marks tag content before attributes code after ↔
    Text.FirstAt (opening tag) content before
        (attributes ++ ['>'] ++ (code ++ closing tag ++ after)) ∧
      Text.FirstAt ['>'] (attributes ++ ['>'] ++ (code ++ closing tag ++ after)) attributes
        (code ++ closing tag ++ after) ∧
      Text.FirstAt (closing tag) (code ++ closing tag ++ after) code after := by
  rw [Text.firstAt_singleton_iff,
    show Text.FirstAt (closing tag) _ code after ↔ _ from Text.firstAt_iff_ends]
  constructor
  · rintro ⟨whole, firstOpening, firstEnd, firstClosing⟩
    refine ⟨⟨?_, firstOpening⟩, ⟨rfl, firstEnd⟩, rfl, firstClosing⟩
    rw [whole]
    simp only [List.append_assoc]
  · rintro ⟨⟨whole, firstOpening⟩, ⟨-, firstEnd⟩, -, firstClosing⟩
    refine ⟨?_, firstOpening, firstEnd, firstClosing⟩
    rw [whole]
    simp only [List.append_assoc]

theorem exists_marks (closed : Closed tag content) :
    ∃ before attributes code after, Marks tag content before attributes code after := by
  obtain ⟨front, gap, inner, back, whole⟩ := closed
  have opened : content = front ++ opening tag ++ (gap ++ ['>'] ++ (inner ++ closing tag ++ back)) := by
    rw [whole]
    simp only [List.append_assoc]
  obtain ⟨before, inTag, firstOpening⟩ := Text.exists_firstAt ⟨front, _, opened.symm⟩
  obtain ⟨earlier, inside⟩ := firstOpening.suffix opened
  have ended : inTag = (earlier ++ gap) ++ ['>'] ++ (inner ++ closing tag ++ back) := by
    rw [← inside]
    simp only [List.append_assoc]
  obtain ⟨attributes, inRegion, firstEnd⟩ := Text.exists_firstAt ⟨_, _, ended.symm⟩
  obtain ⟨more, later⟩ := firstEnd.suffix ended
  have closes : inRegion = (more ++ inner) ++ closing tag ++ back := by
    rw [← later]
    simp only [List.append_assoc]
  obtain ⟨code, after, firstClosing⟩ := Text.exists_firstAt ⟨_, _, closes.symm⟩
  obtain rfl := firstClosing.whole
  obtain rfl := firstEnd.whole
  exact ⟨before, attributes, code, after,
    marks_iff_firstAt.mpr ⟨firstOpening, firstEnd, firstClosing⟩⟩

theorem first_of_marks (oneLine : '\n' ∉ tag.toList)
    (marks : Marks tag content before attributes code after) :
    first tag content = ⟨code, (before ++ opening tag ++ attributes ++ ['>']).count '\n'⟩ := by
  obtain ⟨firstOpening, firstEnd, firstClosing⟩ := marks_iff_firstAt.mp marks
  have newlines : (before ++ opening tag ++ attributes ++ ['>']).count '\n' =
      before.count '\n' + attributes.count '\n' := by
    have inTag : (opening tag).count '\n' = 0 := by
      rw [opening, String.toList_append, List.count_append, List.count_eq_zero.mpr oneLine]
      rfl
    simp [List.count_append, inTag]
  simp only [opening, closing] at firstOpening firstEnd firstClosing
  simp only [first, Text.cut?_eq_some_iff.mpr firstOpening, Text.cut?_eq_some_iff.mpr firstEnd,
    Text.cut?_eq_some_iff.mpr firstClosing, newlines]

theorem first_of_not_closed (open' : ¬ Closed tag content) : first tag content = absent := by
  unfold first
  split
  · rfl
  · next before opened openingAt =>
    split
    · rfl
    · next attributes inside endAt =>
      split
      · rfl
      · next code after closingAt =>
        refine absurd ⟨before, attributes, code, after, ?_⟩ open'
        rw [(Text.cut?_eq_some_iff.mp openingAt).whole, (Text.cut?_eq_some_iff.mp endAt).whole,
          (Text.cut?_eq_some_iff.mp closingAt).whole, opening, closing]
        simp only [List.append_assoc]

theorem isExtracted_iff_first (oneLine : '\n' ∉ tag.toList) (region : Region) :
    IsExtracted tag content region ↔ region = first tag content := by
  constructor
  · rintro ⟨marked, unmarked⟩
    by_cases closed : Closed tag content
    · obtain ⟨before, attributes, code, after, marks, rfl⟩ := marked closed
      exact (first_of_marks oneLine marks).symm
    · rw [unmarked closed, first_of_not_closed closed]
  · rintro rfl
    refine ⟨?_, first_of_not_closed⟩
    intro closed
    obtain ⟨before, attributes, code, after, marks⟩ := exists_marks closed
    exact ⟨before, attributes, code, after, marks, first_of_marks oneLine marks⟩

end

/-- The regions of a component are what its tags mark, and nothing else is. -/
theorem isExtracted_iff (content : List Char) (region : Region) :
    (IsExtracted "script" content region ↔ region = (Component.ofText content).script) ∧
      (IsExtracted "template" content region ↔ region = (Component.ofText content).template) :=
  ⟨isExtracted_iff_first (by decide) region, isExtracted_iff_first (by decide) region⟩

-- A second opening before the closing tag is code.
example : first "script" "<script\n><script>1</script></script>".toList =
    ⟨"<script>1".toList, 1⟩ := by
  cbv

end Checkup.Region
