import Checkup.CodeText
import Checkup.Proofs.Text.Sorted
import Mathlib.Data.List.Basic

/-!
# The order of code points

A code point is known by its number, and a text by the numbers of its code points. The order of
texts is the lexicographic order of these lists (`notAfter_iff`), in which `sortedDistinct` gives
each text once (`pairwise_sortedDistinct`).
-/

namespace Checkup

theorem CodePoint.ofNat_toNat (point : CodePoint) : CodePoint.ofNat point.toNat = point := by
  unfold ofNat
  cases point with
  | char c =>
    have valid : c.toNat < 0xD800 ∨ (0xDFFF < c.toNat ∧ c.toNat < 0x110000) := c.valid
    rw [dif_neg (by simp only [toNat, firstHalf]; omega)]
    exact congrArg char (Char.ofNat_toNat c)
  | half place =>
    have bound := place.isLt
    rw [dif_pos (by simp only [toNat]; omega)]
    simp [toNat]

theorem CodePoint.toNat_injective : Function.Injective CodePoint.toNat :=
  Function.LeftInverse.injective ofNat_toNat

namespace CodeText

/-- The numbers of the code points. -/
def numbers (text : CodeText) : List Nat := text.points.map CodePoint.toNat

theorem numbers_injective : Function.Injective numbers := by
  intro a b same
  have points := CodePoint.toNat_injective.list_map same
  cases a
  cases b
  exact congrArg mk points

theorem pointsNotAfter_iff {a b : List CodePoint} :
    pointsNotAfter a b = true ↔ ¬b.map CodePoint.toNat < a.map CodePoint.toNat := by
  induction a generalizing b with
  | nil => simp [pointsNotAfter]
  | cons x a ih =>
    cases b with
    | nil => simp [pointsNotAfter]
    | cons y b =>
      rw [pointsNotAfter, List.map_cons, List.map_cons, List.cons_lt_cons_iff]
      split
      · next same => simp [same, ih]
      · next different =>
        have apart : y.toNat ≠ x.toNat := CodePoint.toNat_injective.ne (Ne.symm different)
        simp only [apart, decide_eq_true_eq, false_and, or_false]
        omega

theorem notAfter_iff {a b : CodeText} : a.notAfter b = true ↔ ¬b.numbers < a.numbers :=
  pointsNotAfter_iff

theorem mem_sortedDistinct {text : CodeText} {texts : List CodeText} :
    text ∈ sortedDistinct texts ↔ text ∈ texts := by
  rw [sortedDistinct, List.mem_mergeSort, List.mem_eraseDups]

theorem pairwise_sortedDistinct (texts : List CodeText) :
    (sortedDistinct texts).Pairwise fun a b => a.numbers < b.numbers := by
  have transitive : ∀ a b c : CodeText, a.notAfter b = true → b.notAfter c = true →
      a.notAfter c = true := by
    intro a b c first second
    rw [notAfter_iff] at *
    exact List.le_trans first second
  have total : ∀ a b : CodeText, (a.notAfter b || b.notAfter a) = true := by
    intro a b
    rw [Bool.or_eq_true, notAfter_iff, notAfter_iff]
    exact List.le_total a.numbers b.numbers
  refine (pairwise_mergeSort_eraseDups transitive total texts).imp ?_
  rintro a b ⟨before, different⟩
  rw [notAfter_iff] at before
  by_contra after
  exact different (numbers_injective (List.le_antisymm before after))

end CodeText

end Checkup
