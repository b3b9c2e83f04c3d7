import Checkup.Proofs.Text.Sorted
import Checkup.Script.Navigation
import Checkup.Script.Usage
import Mathlib.Data.List.Sort

/-!
# What the scans of a script report

A scan reports a line by its number, counted from one. The lemmas here give the line back, with what
the scan objects to in it. A scan for names goes from line to line and on each line through the
names in their order, so it is the one list that has these pairs in this order (`eq_usages_iff`).
-/

namespace Checkup

theorem pairwise_zipIdx {α : Type} (items : List α) (start : Nat) :
    (items.zipIdx start).Pairwise fun a b => a.2 < b.2 := by
  have increasing : ((items.zipIdx start).map Prod.snd).Pairwise (· < ·) := by
    rw [List.zipIdx_map_snd]
    exact List.pairwise_lt_range'
  exact List.pairwise_map.mp increasing

namespace Script

theorem mem_usages {flags : String → List Char → Bool} {names : List String}
    {lines : List (List Char)} {number : Nat} {name : String} :
    (number, name) ∈ usages flags names lines ↔
      ∃ index line, lines[index]? = some line ∧ number = index + 1 ∧ name ∈ names ∧
        flags name line = true := by
  simp only [usages, List.mem_flatMap, List.mem_map, List.mem_filter, Text.mem_sortedDistinct,
    Prod.exists, Prod.mk.injEq]
  constructor
  · rintro ⟨line, place, listed, _, ⟨known, flagged⟩, rfl, rfl⟩
    obtain ⟨above, read⟩ := List.mk_mem_zipIdx_iff_le_and_getElem?_sub.mp listed
    exact ⟨place - 1, line, read, by omega, known, flagged⟩
  · rintro ⟨index, line, read, rfl, known, flagged⟩
    refine ⟨line, index + 1, ?_, name, ⟨known, flagged⟩, rfl, rfl⟩
    exact List.mk_mem_zipIdx_iff_le_and_getElem?_sub.mpr ⟨by omega, read⟩

theorem mem_usages_of_read {flags : String → List Char → Bool} {names : List String}
    {lines : List (List Char)} {index : Nat} {line : List Char} (read : lines[index]? = some line)
    {name : String} :
    (index + 1, name) ∈ usages flags names lines ↔ name ∈ names ∧ flags name line = true := by
  rw [mem_usages]
  constructor
  · intro used
    obtain ⟨index', line', read', same, flagged⟩ := used
    obtain rfl : index = index' := by omega
    obtain rfl : line = line' := Option.some.inj (read.symm.trans read')
    exact flagged
  · intro flagged
    exact ⟨index, line, read, rfl, flagged⟩

/-- The order of a scan: by line, and on each line by name in code-point order. -/
def Precedes (a b : Nat × String) : Prop := a.1 < b.1 ∨ (a.1 = b.1 ∧ a.2 < b.2)

instance : Std.Irrefl Precedes where
  irrefl a h := by
    rcases h with h | ⟨-, h⟩
    · exact Nat.lt_irrefl _ h
    · exact String.lt_irrefl _ h

instance : Std.Antisymm Precedes where
  antisymm a b h h' := by
    rcases h with h | ⟨line, h⟩ <;> rcases h' with h' | ⟨line', h'⟩
    · omega
    · omega
    · omega
    · exact absurd h' (String.lt_asymm h)

theorem pairwise_usages (flags : String → List Char → Bool) (names : List String)
    (lines : List (List Char)) : (usages flags names lines).Pairwise Precedes := by
  unfold usages
  rw [List.pairwise_flatMap]
  constructor
  · rintro ⟨line, number⟩ _
    rw [List.pairwise_map]
    refine ((Text.pairwise_sortedDistinct names).filter _).imp ?_
    intro a b before
    exact Or.inr ⟨rfl, before⟩
  · refine (pairwise_zipIdx lines 1).imp ?_
    intro a b before x inA y inB
    obtain ⟨_, _, rfl⟩ := List.mem_map.mp inA
    obtain ⟨_, _, rfl⟩ := List.mem_map.mp inB
    exact Or.inl before

theorem eq_usages_iff {flags : String → List Char → Bool} {names : List String}
    {lines : List (List Char)} {found : List (Nat × String)} :
    found = usages flags names lines ↔ found.Pairwise Precedes ∧
      ∀ number name, (number, name) ∈ found ↔ ∃ index line, lines[index]? = some line ∧
        number = index + 1 ∧ name ∈ names ∧ flags name line = true := by
  constructor
  · rintro rfl
    exact ⟨pairwise_usages flags names lines, fun _ _ => mem_usages⟩
  · rintro ⟨sorted, listed⟩
    refine sorted.eq_of_mem_iff (pairwise_usages flags names lines) ?_
    rintro ⟨number, name⟩
    rw [listed, mem_usages]

/-- Where no line has two of the names, no line is reported twice. -/
theorem pairwise_lines_usages {flags : String → List Char → Bool} {names : List String}
    {lines : List (List Char)} (once : ∀ line ∈ lines, ∀ a ∈ names, ∀ b ∈ names,
      flags a line = true → flags b line = true → a = b) :
    ((usages flags names lines).map (·.1)).Pairwise (· < ·) := by
  refine List.pairwise_map.mpr ((pairwise_usages flags names lines).imp_of_mem ?_)
  intro (number, a) (number', b) usedA usedB before
  rcases before with below | ⟨same, least⟩
  · exact below
  · obtain rfl : number = number' := same
    obtain ⟨index, line, read, rfl, knownA, flaggedA⟩ := mem_usages.mp usedA
    obtain ⟨knownB, flaggedB⟩ := (mem_usages_of_read read).mp usedB
    obtain rfl : a = b :=
      once line (List.mem_of_getElem? read) a knownA b knownB flaggedA flaggedB
    exact absurd least (String.lt_irrefl a)

theorem braceBalance_append (before after : List Char) :
    braceBalance (before ++ after) = braceBalance before + braceBalance after := by
  unfold braceBalance
  rw [List.count_append, List.count_append]
  omega

theorem mem_navigationsFrom {depth : Int} {start number : Nat} {lines : List (List Char)} :
    number ∈ navigationsFrom depth start lines ↔
      ∃ index line, lines[index]? = some line ∧ number = start + index ∧
        depth + braceBalance (lines.take (index + 1)).flatten ≤ 1 ∧
          dropsNavigation line = true := by
  induction lines generalizing depth start with
  | nil => simp [navigationsFrom]
  | cons line rest ih =>
    have headOrTail : (∃ index text, (line :: rest)[index]? = some text ∧ number = start + index ∧
        depth + braceBalance ((line :: rest).take (index + 1)).flatten ≤ 1 ∧
          dropsNavigation text = true) ↔
        (number = start ∧ depth + braceBalance line ≤ 1 ∧ dropsNavigation line = true) ∨
          number ∈ navigationsFrom (depth + braceBalance line) (start + 1) rest := by
      rw [ih]
      constructor
      · rintro ⟨index, text, read, rfl, shallow, drops⟩
        cases index with
        | zero =>
          obtain rfl : line = text := Option.some.inj read
          refine Or.inl ⟨rfl, ?_, drops⟩
          simpa using shallow
        | succ index =>
          refine Or.inr ⟨index, text, read, by omega, ?_, drops⟩
          rw [List.take_succ_cons, List.flatten_cons, braceBalance_append] at shallow
          omega
      · rintro (⟨rfl, shallow, drops⟩ | ⟨index, text, read, rfl, shallow, drops⟩)
        · exact ⟨0, line, rfl, rfl, by simpa using shallow, drops⟩
        · refine ⟨index + 1, text, read, by omega, ?_, drops⟩
          rw [List.take_succ_cons, List.flatten_cons, braceBalance_append]
          omega
    rw [headOrTail, navigationsFrom]
    split
    · next dropped =>
      rw [Bool.and_eq_true, decide_eq_true_eq] at dropped
      rw [List.mem_cons]
      simp [dropped]
    · next kept =>
      rw [Bool.and_eq_true, decide_eq_true_eq] at kept
      simp [kept]

theorem pairwise_navigationsFrom (depth : Int) (start : Nat) (lines : List (List Char)) :
    (navigationsFrom depth start lines).Pairwise (· < ·) := by
  induction lines generalizing depth start with
  | nil => exact List.Pairwise.nil
  | cons line rest ih =>
    rw [navigationsFrom]
    split
    · refine List.Pairwise.cons ?_ (ih _ _)
      intro number later
      obtain ⟨index, _, _, rfl, -⟩ := mem_navigationsFrom.mp later
      omega
    · exact ih _ _

end Script

end Checkup
