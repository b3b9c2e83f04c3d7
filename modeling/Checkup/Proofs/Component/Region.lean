import Checkup.Component
import Checkup.Proofs.Text.Pieces

/-!
# Regions in their file

A region is a part of its file, and `startLine` counts the newlines before it. So each line of the
region can be found in the file (`shows_of_placed`). The region of a file that has none counts as
one at the start of the file.
-/

namespace Checkup.Region

/-- The region stands somewhere in a file, after as many newlines as it says. -/
def Placed (region : Region) (content : List Char) : Prop :=
  ∃ before after, content = before ++ region.code ++ after ∧
    region.startLine = before.count '\n'

theorem absent_placed (content : List Char) : absent.Placed content :=
  ⟨[], content, rfl, rfl⟩

theorem first_placed {tag : String} (oneLine : '\n' ∉ tag.toList) (content : List Char) :
    (first tag content).Placed content := by
  unfold first
  split
  · exact absent_placed content
  · next before opened tagAt =>
    split
    · exact absent_placed content
    · next attributes inside endAt =>
      split
      · exact absent_placed content
      · next code after closeAt =>
        refine ⟨before ++ ("<" ++ tag).toList ++ (attributes ++ ['>']),
          ("</" ++ tag ++ ">").toList ++ after, ?_, ?_⟩
        · rw [Text.cut?_eq_some tagAt, Text.cut?_eq_some endAt, Text.cut?_eq_some closeAt]
          simp only [List.append_assoc]
        · have opening : ("<" ++ tag).toList.count '\n' = 0 := by
            rw [List.count_eq_zero, String.toList_append, List.mem_append]
            rintro (bracket | inTag)
            · exact absurd bracket (by decide)
            · exact oneLine inTag
          simp only [List.count_append, opening]
          rfl

/-- The file line `line`, counted from one, shows `text`, which is the region's line `index`,
counted from zero. -/
structure Shows (region : Region) (content : List Char) (index : Nat) (text : List Char)
    (line : Int) : Prop where
  number : (index : Int) = line - region.startLine - 1
  read : region.lines[index]? = some text
  /-- The region's line is part of the file's, and all of it unless it is the first or the last. -/
  part : ∃ whole, (Text.lines content)[line.toNat - 1]? = some whole ∧ text <:+: whole ∧
    (0 < index → index + 1 < region.lines.length → text = whole)

theorem shows_of_placed {region : Region} {content : List Char} (placed : region.Placed content)
    {index : Nat} {text : List Char} (read : region.lines[index]? = some text) :
    region.Shows content index text (region.fileLine index) := by
  obtain ⟨before, after, rfl, start⟩ := placed
  have number : (region.fileLine index).toNat - 1 = before.count '\n' + index := by
    rw [fileLine, start]
    omega
  refine ⟨by rw [fileLine]; omega, read, ?_⟩
  rw [number]
  exact Text.getElem?_pieces_between before after read

theorem Shows.bounds {region : Region} {content : List Char} {index : Nat} {text : List Char}
    {line : Int} (shown : region.Shows content index text line) :
    1 ≤ line ∧ line ≤ (Text.lines content).length := by
  obtain ⟨number, _, whole, found, _⟩ := shown
  obtain ⟨inside, _⟩ := List.getElem?_eq_some_iff.mp found
  omega

end Checkup.Region
