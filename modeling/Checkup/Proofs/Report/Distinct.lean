import Checkup.Report

/-!
# The first finding of each issue

`distinct` keeps one finding for each key, the first, and keeps them in the order in which the keys
first occur. What is dropped or kept by its key alone may be dropped before or after.
-/

namespace Checkup.Report

/-- Where a key first occurs. A key that does not occur has the position after the last. -/
def position (findings : List Finding) (key : String × Int × String) : Nat :=
  findings.findIdx fun finding => finding.key = key

theorem distinct_sublist (findings : List Finding) : (distinct findings).Sublist findings := by
  induction findings with
  | nil => exact List.Sublist.refl _
  | cons finding rest ih => exact (List.filter_sublist.trans ih).cons_cons finding

theorem distinct_of_nodup {findings : List Finding}
    (unique : (findings.map Finding.key).Nodup) : distinct findings = findings := by
  induction findings with
  | nil => rfl
  | cons finding rest ih =>
    obtain ⟨new, others⟩ := List.nodup_cons.mp unique
    rw [distinct, ih others]
    congr 1
    apply List.filter_eq_self.mpr
    intro other member
    rw [bne_iff_ne]
    intro same
    exact new (same ▸ List.mem_map_of_mem member)

/-- Of the findings with a key exactly the first is kept. -/
theorem filter_key_distinct (findings : List Finding) (key : String × Int × String) :
    (distinct findings).filter (fun finding => finding.key = key) =
      (findings.find? fun finding => finding.key = key).toList := by
  induction findings with
  | nil => rfl
  | cons finding rest ih =>
    rw [distinct]
    by_cases same : finding.key = key
    · rw [List.filter_cons_of_pos (by simpa using same),
        List.find?_cons_of_pos (by simpa using same), List.filter_filter, Option.toList_some]
      have others : (distinct rest).filter (fun other => decide (other.key = key) &&
          other.key != finding.key) = [] := by
        refine List.filter_eq_nil_iff.mpr ?_
        intro other _
        simp [same]
      rw [others]
    · rw [List.filter_cons_of_neg (by simpa using same),
        List.find?_cons_of_neg (by simpa using same), List.filter_filter, ← ih]
      refine List.filter_congr ?_
      intro other _
      by_cases this : other.key = key
      · simp [this, Ne.symm same]
      · simp [this]

/-- The findings that are kept stand in the order in which their keys first occur. -/
theorem position_lt_of_distinct (findings : List Finding) :
    (distinct findings).Pairwise fun a b =>
      position findings a.key < position findings b.key := by
  induction findings with
  | nil => exact List.Pairwise.nil
  | cons finding rest ih =>
    have later : ∀ other : Finding, other.key ≠ finding.key →
        position (finding :: rest) other.key = position rest other.key + 1 := by
      intro other different
      simp [position, List.findIdx_cons, Ne.symm different]
    have first : position (finding :: rest) finding.key = 0 := by
      simp [position, List.findIdx_cons]
    have away : ∀ other ∈ (distinct rest).filter (·.key != finding.key),
        other.key ≠ finding.key := by
      intro other member
      exact bne_iff_ne.mp (List.mem_filter.mp member).2
    refine List.Pairwise.cons ?_ ?_
    · intro other member
      rw [first, later other (away other member)]
      exact Nat.succ_pos _
    · refine (ih.filter _).imp_of_mem ?_
      intro a b left right before
      rw [later a (away a left), later b (away b right)]
      exact Nat.succ_lt_succ before

/-- What is kept or dropped by its key may be dropped first. -/
theorem distinct_filter (findings : List Finding) {keep : Finding → Bool}
    (byKey : ∀ a b : Finding, a.key = b.key → keep a = keep b) :
    distinct (findings.filter keep) = (distinct findings).filter keep := by
  induction findings with
  | nil => rfl
  | cons finding rest ih =>
    rw [distinct]
    by_cases kept : keep finding = true
    · rw [List.filter_cons_of_pos kept, List.filter_cons_of_pos kept, distinct, ih,
        List.filter_filter, List.filter_filter]
      refine congrArg (finding :: ·) (List.filter_congr ?_)
      intro other _
      exact Bool.and_comm _ _
    · rw [List.filter_cons_of_neg kept, List.filter_cons_of_neg kept, ih, List.filter_filter]
      refine List.filter_congr ?_
      intro other _
      by_cases same : other.key = finding.key
      · rw [byKey other finding same]
        simp [kept]
      · simp [same]

/-- After some findings, only those of further issues are kept. -/
theorem distinct_append (xs ys : List Finding) :
    distinct (xs ++ ys) =
      distinct xs ++ (distinct ys).filter fun finding => finding.key ∉ xs.map Finding.key := by
  induction xs with
  | nil => exact (List.filter_eq_self.mpr fun _ _ => by simp).symm
  | cons x xs ih =>
    rw [List.cons_append, distinct, distinct, ih, List.filter_append, List.filter_filter]
    refine congrArg (fun rest => x :: (_ ++ rest)) (List.filter_congr ?_)
    intro finding _
    by_cases same : finding.key = x.key
    · simp [same]
    · simp [same]

/-- Findings that were all there before add nothing. -/
theorem distinct_append_of_keys {xs ys : List Finding}
    (known : ∀ finding ∈ ys, finding.key ∈ xs.map Finding.key) :
    distinct (xs ++ ys) = distinct xs := by
  rw [distinct_append, List.filter_eq_nil_iff.mpr, List.append_nil]
  intro finding member
  have seen := known finding ((distinct_sublist ys).subset member)
  rw [decide_eq_true_iff]
  exact not_not_intro seen

end Checkup.Report
