import Checkup.Report

/-!
# The order of a report

Findings of one rank in one file stand alongside each other. Ordering keeps them as they stood, and
a list in the order of a report is determined by what stands alongside what (`eq_of_ordered`). So
ordering commutes with dropping findings.
-/

namespace Checkup

namespace Finding

theorem notAfter_iff {a b : Finding} :
    a.notAfter b = true ↔ a.rank < b.rank ∨ (a.rank = b.rank ∧ a.file ≤ b.file) := by
  simp [notAfter]

theorem notAfter_trans (a b c : Finding) (first : a.notAfter b = true)
    (second : b.notAfter c = true) : a.notAfter c = true := by
  rw [notAfter_iff] at *
  rcases first with below | ⟨rank, file⟩
  · rcases second with below' | ⟨rank', _⟩
    · exact Or.inl (Nat.lt_trans below below')
    · exact Or.inl (rank' ▸ below)
  · rcases second with below | ⟨rank', file'⟩
    · exact Or.inl (rank ▸ below)
    · exact Or.inr ⟨rank.trans rank', String.le_trans file file'⟩

theorem notAfter_total (a b : Finding) : (a.notAfter b || b.notAfter a) = true := by
  rw [Bool.or_eq_true, notAfter_iff, notAfter_iff]
  rcases Nat.lt_trichotomy a.rank b.rank with below | same | above
  · exact Or.inl (Or.inl below)
  · rcases String.le_total a.file b.file with file | file
    · exact Or.inl (Or.inr ⟨same, file⟩)
    · exact Or.inr (Or.inr ⟨same.symm, file⟩)
  · exact Or.inr (Or.inl above)

/-- Whether two findings have the same rank and file, so that a report may have either first. -/
def alongside (a b : Finding) : Bool := a.rank = b.rank && a.file = b.file

theorem alongside_iff {a b : Finding} :
    a.alongside b = true ↔ a.rank = b.rank ∧ a.file = b.file := by
  simp [alongside]

theorem alongside_refl (a : Finding) : a.alongside a = true := alongside_iff.mpr ⟨rfl, rfl⟩

theorem alongside_of_notAfter {a b : Finding} (first : a.notAfter b = true)
    (second : b.notAfter a = true) : a.alongside b = true := by
  rw [notAfter_iff] at first second
  rw [alongside_iff]
  rcases first with below | ⟨rank, file⟩
  · omega
  · rcases second with below | ⟨_, file'⟩
    · omega
    · exact ⟨rank, String.le_antisymm file file'⟩

theorem notAfter_of_alongside {a b c : Finding} (left : a.alongside b = true)
    (right : a.alongside c = true) : b.notAfter c = true := by
  rw [alongside_iff] at left right
  rw [notAfter_iff, ← left.1, ← right.1, ← left.2, ← right.2]
  exact Or.inr ⟨rfl, String.le_refl _⟩

end Finding

namespace Report

open Finding

/-- A list in the order of a report. -/
def Ordered (findings : List Finding) : Prop := findings.Pairwise fun a b => a.notAfter b = true

theorem ordered_ordered (findings : List Finding) : Ordered (ordered findings) :=
  List.pairwise_mergeSort notAfter_trans notAfter_total findings

theorem ordered_perm (findings : List Finding) : (ordered findings).Perm findings :=
  List.mergeSort_perm findings _

/-- Findings alongside each other keep their order. -/
theorem filter_alongside_ordered (findings : List Finding) (a : Finding) :
    (ordered findings).filter a.alongside = findings.filter a.alongside := by
  have even : (findings.filter a.alongside).Pairwise fun b c => b.notAfter c = true := by
    refine List.pairwise_of_forall_mem_list ?_
    intro b hb c hc
    exact notAfter_of_alongside (List.mem_filter.mp hb).2 (List.mem_filter.mp hc).2
  have kept : (findings.filter a.alongside).Sublist (ordered findings) :=
    List.sublist_mergeSort notAfter_trans notAfter_total even List.filter_sublist
  have inside := kept.filter a.alongside
  rw [List.filter_filter] at inside
  simp only [Bool.and_self] at inside
  exact (inside.eq_of_length ((ordered_perm findings).filter _).length_eq.symm).symm

/-- Two lists in the order of a report are the same if the same findings stand alongside each
other, in the same order. -/
theorem eq_of_ordered {xs ys : List Finding} (left : Ordered xs) (right : Ordered ys)
    (same : ∀ a : Finding, xs.filter a.alongside = ys.filter a.alongside) : xs = ys := by
  induction xs generalizing ys with
  | nil =>
    cases ys with
    | nil => rfl
    | cons y ys =>
      have none := same y
      rw [List.filter_nil, List.filter_cons_of_pos (alongside_refl y)] at none
      cases none
  | cons x xs ih =>
    cases ys with
    | nil =>
      have none := same x
      rw [List.filter_nil, List.filter_cons_of_pos (alongside_refl x)] at none
      cases none
    | cons y ys =>
      have first : ∀ {z : Finding} {zs : List Finding}, Ordered (z :: zs) → ∀ w ∈ z :: zs,
          z.notAfter w = true := by
        intro z zs sorted w member
        rcases List.mem_cons.mp member with rfl | later
        · exact notAfter_of_alongside (alongside_refl w) (alongside_refl w)
        · exact List.rel_of_pairwise_cons sorted later
      -- Each head occurs in the other list, so neither may come after the other.
      have inRight : x ∈ y :: ys := by
        have member : x ∈ (x :: xs).filter x.alongside :=
          List.mem_filter.mpr ⟨List.mem_cons_self, alongside_refl x⟩
        rw [same x] at member
        exact (List.mem_filter.mp member).1
      have inLeft : y ∈ x :: xs := by
        have member : y ∈ (y :: ys).filter y.alongside :=
          List.mem_filter.mpr ⟨List.mem_cons_self, alongside_refl y⟩
        rw [← same y] at member
        exact (List.mem_filter.mp member).1
      have together := alongside_of_notAfter (first left y inLeft) (first right x inRight)
      have heads := same x
      rw [List.filter_cons_of_pos (alongside_refl x), List.filter_cons_of_pos together] at heads
      obtain ⟨rfl, -⟩ := List.cons.inj heads
      refine congrArg (x :: ·) (ih left.tail right.tail ?_)
      intro a
      have tails := same a
      by_cases beside : a.alongside x = true
      · rw [List.filter_cons_of_pos beside, List.filter_cons_of_pos beside] at tails
        exact (List.cons.inj tails).2
      · rwa [List.filter_cons_of_neg beside, List.filter_cons_of_neg beside] at tails

theorem ordered_congr {xs ys : List Finding}
    (same : ∀ a : Finding, xs.filter a.alongside = ys.filter a.alongside) :
    ordered xs = ordered ys := by
  refine eq_of_ordered (ordered_ordered xs) (ordered_ordered ys) ?_
  intro a
  rw [filter_alongside_ordered, filter_alongside_ordered, same a]

/-- Findings may be dropped before or after ordering. -/
theorem ordered_filter (findings : List Finding) (keep : Finding → Bool) :
    ordered (findings.filter keep) = (ordered findings).filter keep := by
  refine eq_of_ordered (ordered_ordered _) ((ordered_ordered findings).filter keep) ?_
  intro a
  rw [filter_alongside_ordered, List.filter_filter, List.filter_filter]
  have commuted : ∀ xs : List Finding, xs.filter (fun f => a.alongside f && keep f) =
      (xs.filter a.alongside).filter keep := by
    intro xs
    rw [List.filter_filter]
    exact List.filter_congr fun f _ => Bool.and_comm _ _
  rw [commuted, commuted, filter_alongside_ordered]

/-- What holds between neighbours in every group of findings alongside each other holds within the
whole list. -/
theorem pairwise_of_alongside {findings : List Finding} {r : Finding → Finding → Prop}
    (groups : ∀ a : Finding, (findings.filter a.alongside).Pairwise r) :
    findings.Pairwise fun a b => a.alongside b = true → r a b := by
  induction findings with
  | nil => exact List.Pairwise.nil
  | cons x xs ih =>
    refine List.Pairwise.cons ?_ (ih ?_)
    · intro y member beside
      have group := groups x
      rw [List.filter_cons_of_pos (alongside_refl x)] at group
      exact List.rel_of_pairwise_cons group (List.mem_filter.mpr ⟨member, beside⟩)
    · intro a
      exact (groups a).sublist ((List.sublist_cons_self x xs).filter _)

end Report

end Checkup
