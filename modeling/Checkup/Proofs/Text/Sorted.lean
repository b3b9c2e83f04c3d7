import Checkup.Text.Search
import Mathlib.Data.List.Nodup

/-!
# Texts in order

To keep each item once is to keep it where it first occurs (`pairwise_idxOf_eraseDups`). Sorting
distinct items orders them strictly (`pairwise_mergeSort_eraseDups`), so that `sortedDistinct` keeps
each text once, in strict order.
-/

namespace Checkup

theorem idxOf_lt_of_filter {α : Type} [BEq α] [LawfulBEq α] {keep : α → Bool} {items : List α}
    {a b : α} (keptA : keep a = true) (keptB : keep b = true)
    (before : (items.filter keep).idxOf a < (items.filter keep).idxOf b) :
    items.idxOf a < items.idxOf b := by
  induction items with
  | nil => exact before
  | cons item items ih =>
    by_cases kept : keep item = true
    · rw [List.filter_cons_of_pos kept] at before
      by_cases sameB : item = b
      · rw [sameB, List.idxOf_cons_self] at before
        exact absurd before (Nat.not_lt_zero _)
      · rw [List.idxOf_cons_ne _ sameB] at before ⊢
        by_cases sameA : item = a
        · rw [sameA, List.idxOf_cons_self]
          exact Nat.succ_pos _
        · rw [List.idxOf_cons_ne _ sameA] at before ⊢
          exact Nat.succ_lt_succ (ih (Nat.lt_of_succ_lt_succ before))
    · rw [List.filter_cons_of_neg kept] at before
      have apart : ∀ {other : α}, keep other = true → item ≠ other := by
        rintro other keptOther rfl
        exact kept keptOther
      rw [List.idxOf_cons_ne _ (apart keptA), List.idxOf_cons_ne _ (apart keptB)]
      exact Nat.succ_lt_succ (ih before)

/-- Distinct items are kept in the order in which they first occur. -/
theorem pairwise_idxOf_eraseDups {α : Type} [BEq α] [LawfulBEq α] :
    ∀ items : List α, items.eraseDups.Pairwise fun a b => items.idxOf a < items.idxOf b
  | [] => List.Pairwise.nil
  | item :: rest => by
    have apart : ∀ other ∈ (rest.filter fun other => !other == item).eraseDups, item ≠ other := by
      intro other member
      have different := (List.mem_filter.mp (List.mem_eraseDups.mp member)).2
      rintro rfl
      simp at different
    rw [List.eraseDups_cons]
    refine List.Pairwise.cons ?_ ?_
    · intro other member
      rw [List.idxOf_cons_self, List.idxOf_cons_ne _ (apart other member)]
      exact Nat.succ_pos _
    · refine (pairwise_idxOf_eraseDups _).imp_of_mem ?_
      intro a b inA inB before
      rw [List.idxOf_cons_ne _ (apart a inA), List.idxOf_cons_ne _ (apart b inB)]
      refine Nat.succ_lt_succ (idxOf_lt_of_filter ?_ ?_ before)
      · exact (List.mem_filter.mp (List.mem_eraseDups.mp inA)).2
      · exact (List.mem_filter.mp (List.mem_eraseDups.mp inB)).2
termination_by items => items.length
decreasing_by
  have shorter := List.length_filter_le (fun other => !other == item) rest
  rw [List.length_cons]
  omega

theorem nodup_eraseDups {α : Type} [BEq α] [LawfulBEq α] (items : List α) :
    items.eraseDups.Nodup := by
  refine (pairwise_idxOf_eraseDups items).imp ?_
  rintro a b before rfl
  exact Nat.lt_irrefl _ before

theorem pairwise_idxOf_of_nodup {α : Type} [BEq α] [LawfulBEq α] {items : List α}
    (distinct : items.Nodup) : items.Pairwise fun a b => items.idxOf a < items.idxOf b := by
  refine List.pairwise_iff_getElem.mpr ?_
  intro i j _ _ before
  rwa [distinct.idxOf_getElem, distinct.idxOf_getElem]

/-- Where one of two items may always stand first, sorting distinct items puts each strictly before
the later ones. -/
theorem pairwise_mergeSort_eraseDups {α : Type} [BEq α] [LawfulBEq α] {notAfter : α → α → Bool}
    (transitive : ∀ a b c, notAfter a b = true → notAfter b c = true → notAfter a c = true)
    (total : ∀ a b, (notAfter a b || notAfter b a) = true) (items : List α) :
    (items.eraseDups.mergeSort notAfter).Pairwise fun a b => notAfter a b = true ∧ a ≠ b := by
  have sorted := List.pairwise_mergeSort transitive total items.eraseDups
  have distinct := (List.mergeSort_perm items.eraseDups notAfter).nodup_iff.mpr
    (nodup_eraseDups items)
  exact sorted.and distinct

namespace Text

theorem mem_sortedDistinct {text : String} {texts : List String} :
    text ∈ sortedDistinct texts ↔ text ∈ texts := by
  rw [sortedDistinct, List.mem_mergeSort, List.mem_eraseDups]

theorem pairwise_sortedDistinct (texts : List String) :
    (sortedDistinct texts).Pairwise (· < ·) := by
  have transitive : ∀ a b c : String, decide (a ≤ b) = true → decide (b ≤ c) = true →
      decide (a ≤ c) = true := by
    intro a b c first second
    simp only [decide_eq_true_eq] at *
    exact String.le_trans first second
  have total : ∀ a b : String, (decide (a ≤ b) || decide (b ≤ a)) = true := by
    intro a b
    simp only [Bool.or_eq_true, decide_eq_true_eq]
    exact String.le_total a b
  refine (pairwise_mergeSort_eraseDups transitive total texts).imp ?_
  rintro a b ⟨before, different⟩
  rw [decide_eq_true_eq] at before
  exact String.not_le.mp fun after => different (String.le_antisymm before after)

end Text

end Checkup
