import Checkup.Proofs.Pattern.Spans

/-!
# A character behind an occurrence

A pattern without a look ahead, whose pieces all end in other characters, does not care about a
character at the end of a text, unless it could continue a word: it occurs in the text just when it
occurs in the text without that character (`occursIn_concat`). Whether a pattern is of this kind can
be read off it.
-/

namespace Checkup.Pattern

/-- Whether no part of the pattern refuses what follows it. -/
def isPlain : Pattern → Bool
  | empty | one _ | many _ | edge => true
  | seq first second | alt first second => first.isPlain && second.isPlain
  | notAhead _ => false

/-- Whether the pattern is a condition on its place and takes no character. -/
def takesNone : Pattern → Bool
  | empty | edge | notAhead _ => true
  | one _ | many _ | seq _ _ | alt _ _ => false

/-- Whether all pieces of the pattern have a last character, and none has `c` there. -/
def endsApart (c : Char) : Pattern → Bool
  | empty | many _ | edge | notAhead _ => false
  | one accepts => !accepts c
  | seq first second => second.endsApart c || (second.takesNone && first.endsApart c)
  | alt left right => left.endsApart c && right.endsApart c

variable {p : Pattern} {c : Char} {left piece right text : List Char}

theorem eq_nil_of_takesNone (none : p.takesNone = true) (spans : p.Spans left piece right) :
    piece = [] := by
  cases p with
  | empty => exact spans
  | edge => exact spans.1
  | notAhead shape => exact spans.1
  | one accepts => cases none
  | many accepts => cases none
  | seq first second => cases none
  | alt first second => cases none

theorem exists_last_of_endsApart (ends : p.endsApart c = true)
    (spans : p.Spans left piece right) : ∃ front d, piece = front ++ [d] ∧ d ≠ c := by
  induction p generalizing left piece right with
  | empty => cases ends
  | many accepts => cases ends
  | edge => cases ends
  | notAhead shape => cases ends
  | one accepts =>
    obtain ⟨d, rfl, accepted⟩ := spans
    refine ⟨[], d, rfl, ?_⟩
    rintro rfl
    simp [endsApart, accepted] at ends
  | seq first second ihFirst ihSecond =>
    obtain ⟨front, back, rfl, spansFirst, spansSecond⟩ := spans
    rw [endsApart, Bool.or_eq_true, Bool.and_eq_true] at ends
    rcases ends with later | ⟨none, earlier⟩
    · obtain ⟨others, d, rfl, apart⟩ := ihSecond later spansSecond
      exact ⟨front ++ others, d, (List.append_assoc _ _ _).symm, apart⟩
    · obtain rfl := eq_nil_of_takesNone none spansSecond
      rw [List.append_nil]
      exact ihFirst earlier spansFirst
  | alt p q ihp ihq =>
    rw [endsApart, Bool.and_eq_true] at ends
    rcases spans with spansP | spansQ
    · exact ihp ends.1 spansP
    · exact ihq ends.2 spansQ

theorem isBorder_concat (noWord : Text.isWord c = false) :
    IsBorder left (right ++ [c]) ↔ IsBorder left right := by
  cases right with
  | nil => simp [IsBorder, noWord]
  | cons d right => exact Iff.rfl

theorem spans_concat (plain : p.isPlain = true) (noWord : Text.isWord c = false) :
    p.Spans left piece (right ++ [c]) ↔ p.Spans left piece right := by
  induction p generalizing left piece right with
  | empty => exact Iff.rfl
  | one accepts => exact Iff.rfl
  | many accepts => exact Iff.rfl
  | edge => exact and_congr_right fun _ => isBorder_concat noWord
  | notAhead shape => cases plain
  | seq first second ihFirst ihSecond =>
    rw [isPlain, Bool.and_eq_true] at plain
    simp only [Spans, ← List.append_assoc, ihFirst plain.1, ihSecond plain.2]
  | alt p q ihp ihq =>
    rw [isPlain, Bool.and_eq_true] at plain
    exact or_congr (ihp plain.1) (ihq plain.2)

theorem occursIn_concat (plain : p.isPlain = true) (ends : p.endsApart c = true)
    (noWord : Text.isWord c = false) : p.occursIn (text ++ [c]) = p.occursIn text := by
  rw [Bool.eq_iff_iff, occursIn_iff, occursIn_iff]
  constructor
  · rintro ⟨before, piece, right, whole, spans⟩
    rcases List.eq_nil_or_concat right with rfl | ⟨rest, d, rfl⟩
    · -- The piece would have to end in the character behind the text.
      obtain ⟨front, d, rfl, apart⟩ := exists_last_of_endsApart ends spans
      rw [List.append_nil, ← List.append_assoc] at whole
      exact absurd (List.append_inj' whole rfl).2 (by simpa using Ne.symm apart)
    · rw [List.concat_eq_append] at whole spans
      rw [← List.append_assoc] at whole
      obtain ⟨rfl, same⟩ := List.append_inj' whole rfl
      obtain rfl : c = d := List.singleton_inj.mp same
      exact ⟨before, piece, rest, rfl, (spans_concat plain noWord).mp spans⟩
  · rintro ⟨before, piece, right, rfl, spans⟩
    exact ⟨before, piece, right ++ [c], List.append_assoc _ _ _,
      (spans_concat plain noWord).mpr spans⟩

end Checkup.Pattern
