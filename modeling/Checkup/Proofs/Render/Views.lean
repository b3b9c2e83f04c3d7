import Checkup.Proofs.Examination.Isolation
import Checkup.Proofs.Render.Lines
import Checkup.Proofs.Report.Suppression
import Mathlib

/-!
# The views of a diagnosis

Findings are filed under their categories one by one. `isGrouping_filed` says what one more finding
does to the groups and `isGrouping_groups` what comes out in the end. The views are made of lines on
these groups, or on the findings themselves, and agree on what was found (`viewsAgree_of_examined`).
-/

namespace Checkup.Render

open Ansi

/-! ### Groups -/

/-- Findings by category. -/
structure IsGrouping (findings : List Finding) (groups : List (String × List Finding)) : Prop where
  distinct : (groups.map Prod.fst).Nodup
  inOrder : (groups.map Prod.fst).Pairwise fun a b =>
    (findings.map Finding.category).idxOf a < (findings.map Finding.category).idxOf b
  nonempty : ∀ group ∈ groups, group.2 ≠ []
  items : ∀ group ∈ groups, group.2 = findings.filter (·.category = group.1)
  complete : (groups.flatMap Prod.snd).Perm findings

theorem IsGrouping.category_mem {findings : List Finding} {groups : List (String × List Finding)}
    (grouping : IsGrouping findings groups) {finding : Finding} (found : finding ∈ findings) :
    finding.category ∈ groups.map Prod.fst := by
  obtain ⟨group, member, inside⟩ := List.mem_flatMap.mp (grouping.complete.mem_iff.mpr found)
  rw [grouping.items group member, List.mem_filter, decide_eq_true_eq] at inside
  exact inside.2 ▸ List.mem_map_of_mem member

section

variable {groups : List (String × List Finding)} {finding : Finding}

theorem map_fst_filed (groups : List (String × List Finding)) (finding : Finding) :
    (filed groups finding).map Prod.fst =
      if finding.category ∈ groups.map Prod.fst then groups.map Prod.fst
      else groups.map Prod.fst ++ [finding.category] := by
  induction groups with
  | nil => simp [filed]
  | cons group rest ih =>
    obtain ⟨category, items⟩ := group
    by_cases same : category = finding.category
    · simp [filed, same]
    · rw [filed, if_neg same, List.map_cons, ih]
      by_cases later : finding.category ∈ rest.map Prod.fst
      · have known : finding.category ∈ ((category, items) :: rest).map Prod.fst :=
          List.mem_cons_of_mem _ later
        rw [if_pos later, if_pos known, List.map_cons]
      · have absent : finding.category ∉ ((category, items) :: rest).map Prod.fst := by
          rw [List.map_cons, List.mem_cons, not_or]
          exact ⟨Ne.symm same, later⟩
        rw [if_neg later, if_neg absent, List.map_cons, List.cons_append]

/-- A group after one more finding is either an old one of another category, or that of the
finding's category with the finding at its end. -/
theorem mem_filed {group : String × List Finding} (distinct : (groups.map Prod.fst).Nodup)
    (member : group ∈ filed groups finding) :
    (group ∈ groups ∧ group.1 ≠ finding.category) ∨
      ∃ items, group = (finding.category, items ++ [finding]) ∧
        ((finding.category, items) ∈ groups ∨
          items = [] ∧ finding.category ∉ groups.map Prod.fst) := by
  induction groups with
  | nil =>
    rw [filed, List.mem_singleton] at member
    exact Or.inr ⟨[], member, Or.inr ⟨rfl, by simp⟩⟩
  | cons head rest ih =>
    obtain ⟨category, items⟩ := head
    rw [List.map_cons, List.nodup_cons] at distinct
    by_cases same : category = finding.category
    · rw [filed, if_pos same, List.mem_cons] at member
      subst same
      rcases member with rfl | old
      · exact Or.inr ⟨items, rfl, Or.inl List.mem_cons_self⟩
      · left
        refine ⟨List.mem_cons_of_mem _ old, ?_⟩
        intro same
        have again : group.1 ∈ rest.map Prod.fst := List.mem_map_of_mem old
        exact distinct.1 (same ▸ again)
    · rw [filed, if_neg same, List.mem_cons] at member
      rcases member with rfl | later
      · exact Or.inl ⟨List.mem_cons_self, same⟩
      · rcases ih distinct.2 later with ⟨old, other⟩ | ⟨earlier, rfl, origin⟩
        · exact Or.inl ⟨List.mem_cons_of_mem _ old, other⟩
        · refine Or.inr ⟨earlier, rfl, ?_⟩
          rcases origin with old | ⟨rfl, absent⟩
          · exact Or.inl (List.mem_cons_of_mem _ old)
          · refine Or.inr ⟨rfl, ?_⟩
            rw [List.map_cons, List.mem_cons, not_or]
            exact ⟨Ne.symm same, absent⟩

theorem perm_filed (groups : List (String × List Finding)) (finding : Finding) :
    ((filed groups finding).flatMap Prod.snd).Perm (groups.flatMap Prod.snd ++ [finding]) := by
  induction groups with
  | nil => exact List.Perm.refl _
  | cons group rest ih =>
    obtain ⟨category, items⟩ := group
    by_cases same : category = finding.category
    · rw [filed, if_pos same]
      simp only [List.flatMap_cons, List.append_assoc]
      exact List.Perm.append_left items List.perm_append_comm
    · rw [filed, if_neg same]
      simp only [List.flatMap_cons, List.append_assoc]
      exact List.Perm.append_left items ih

section

variable {findings : List Finding} (grouping : IsGrouping findings groups)
include grouping

theorem IsGrouping.mem_categories {name : String} (listed : name ∈ groups.map Prod.fst) :
    name ∈ findings.map Finding.category := by
  obtain ⟨group, member, rfl⟩ := List.mem_map.mp listed
  obtain ⟨first, inside⟩ := List.exists_mem_of_ne_nil _ (grouping.nonempty group member)
  rw [grouping.items group member, List.mem_filter, decide_eq_true_eq] at inside
  exact inside.2 ▸ List.mem_map_of_mem inside.1

theorem IsGrouping.idxOf_append {name : String} (listed : name ∈ groups.map Prod.fst)
    (later : List Finding) : ((findings ++ later).map Finding.category).idxOf name =
      (findings.map Finding.category).idxOf name := by
  rw [List.map_append, List.idxOf_append_of_mem (grouping.mem_categories listed)]

theorem IsGrouping.items_filed {group : String × List Finding}
    (member : group ∈ filed groups finding) :
    group.2 ≠ [] ∧ group.2 = (findings ++ [finding]).filter (·.category = group.1) := by
  rw [List.filter_append]
  rcases mem_filed grouping.distinct member with ⟨old, other⟩ | ⟨items, rfl, origin⟩
  · refine ⟨grouping.nonempty group old, ?_⟩
    rw [← grouping.items group old, List.filter_singleton, decide_eq_false (Ne.symm other)]
    simp
  · refine ⟨by simp, ?_⟩
    rw [List.filter_singleton, decide_eq_true rfl]
    rcases origin with old | ⟨rfl, absent⟩
    · rw [← grouping.items _ old]
      rfl
    · have nothing : findings.filter (·.category = finding.category) = [] := by
        apply List.filter_eq_nil_iff.mpr
        intro other member same
        rw [decide_eq_true_eq] at same
        exact absent (same ▸ grouping.category_mem member)
      rw [nothing]
      rfl

theorem isGrouping_filed (finding : Finding) :
    IsGrouping (findings ++ [finding]) (filed groups finding) := by
  have ordered : (groups.map Prod.fst).Pairwise fun a b =>
      ((findings ++ [finding]).map Finding.category).idxOf a <
        ((findings ++ [finding]).map Finding.category).idxOf b := by
    refine grouping.inOrder.imp_of_mem ?_
    intro a b inA inB before
    rwa [grouping.idxOf_append inA, grouping.idxOf_append inB]
  constructor
  case nonempty => exact fun group member => (grouping.items_filed member).1
  case items => exact fun group member => (grouping.items_filed member).2
  case complete => exact (perm_filed groups finding).trans (grouping.complete.append_right _)
  all_goals
    rw [map_fst_filed]
    split
  case distinct.isTrue => exact grouping.distinct
  case inOrder.isTrue => exact ordered
  case distinct.isFalse new =>
    rw [List.nodup_append_comm]
    exact List.nodup_cons.mpr ⟨new, grouping.distinct⟩
  case inOrder.isFalse new =>
    rw [List.pairwise_append]
    refine ⟨ordered, List.pairwise_singleton _ _, ?_⟩
    intro a inA b inB
    obtain rfl := List.mem_singleton.mp inB
    have unseen : finding.category ∉ findings.map Finding.category := by
      intro seen
      obtain ⟨other, member, same⟩ := List.mem_map.mp seen
      exact new (same ▸ grouping.category_mem member)
    rw [grouping.idxOf_append inA, List.map_append, List.idxOf_append_of_notMem unseen]
    exact Nat.lt_add_right _ (List.idxOf_lt_length_iff.mpr (grouping.mem_categories inA))

end

theorem isGrouping_foldl {earlier : List Finding} (grouping : IsGrouping earlier groups)
    (later : List Finding) : IsGrouping (earlier ++ later) (later.foldl filed groups) := by
  induction later generalizing earlier groups with
  | nil => rwa [List.append_nil]
  | cons finding rest ih =>
    have next := ih (isGrouping_filed grouping finding)
    rwa [List.append_assoc] at next

end

theorem isGrouping_groups (findings : List Finding) : IsGrouping findings (groups findings) := by
  have nothing : IsGrouping [] [] := by constructor <;> simp
  exact isGrouping_foldl nothing findings

theorem sum_countP_groups (counted : Finding → Bool) (findings : List Finding) :
    ((groups findings).map fun group => group.2.countP counted).sum = findings.countP counted := by
  rw [← (isGrouping_groups findings).complete.countP_eq, List.countP_flatMap]
  rfl

/-! ### The views -/

theorem forall₂_map_of_forall {α β : Type} {holds : α → β → Prop} {items : List α} {f : α → β}
    (each : ∀ item ∈ items, holds item (f item)) : List.Forall₂ holds items (items.map f) := by
  rwa [List.forall₂_map_right_iff, List.forall₂_same]

/-- The lines on a category and its findings in full. -/
inductive IsSection : String × List Finding → List CodeText → Prop
  | lines {category : String} {items : List Finding} {title : CodeText}
      {blocks : List (List CodeText)} :
      Shows title ("  " ++ category) → List.Forall₂ IsDetail items blocks →
      IsSection (category, items) (title :: "" :: blocks.flatten)

/-- The numbers of each category. -/
def rows (findings : List Finding) : List Row :=
  (groups findings).map fun group =>
    { category := group.1
      errors := group.2.countP fun finding => finding.severity = .error
      warnings := group.2.countP fun finding => finding.severity = .warning }

section

variable {findings : List Finding}

theorem exists_sections (nonempty : findings ≠ []) : ∃ sections,
    List.Forall₂ IsSection (groups findings) sections ∧
      HasLines (details findings) sections.flatten := by
  refine ⟨(groups findings).map fun group => heading group.1 ++ group.2.flatMap findingLines,
    ?_, ?_⟩
  · refine forall₂_map_of_forall fun group _ => ?_
    exact .lines ((Shows.text _).append (shows_paint _ _))
      (forall₂_map_of_forall fun finding _ => isDetail_findingLines finding)
  · rw [details, if_neg (by simpa using nonempty)]
    exact hasLines_unlines _

theorem exists_blocks (settled : Report.Settled findings) (nonempty : findings ≠ []) :
    ∃ title blocks, Shows title "  Diagnostics for auto-fix:" ∧
      List.Forall₂ IsMending findings blocks ∧
      HasLines (fixes findings) (title :: "" :: blocks.flatten) := by
  refine ⟨_, findings.map fixLines, shows_bold _, ?_, ?_⟩
  · exact forall₂_map_of_forall fun finding found => isMending_fixLines (settled finding found)
  · rw [fixes, if_neg (by simpa using nonempty)]
    exact hasLines_unlines _

/-- What is not an error in a report is a warning, so that the rest of a category is its number of
warnings. -/
theorem categoryLine_eq (settled : Report.Settled findings) {group : String × List Finding}
    (member : group ∈ groups findings) :
    categoryLine group.1 group.2 =
      countsLine group.1 (Health.errors group.2) (Health.warnings group.2) := by
  have inGroup : Report.Settled group.2 := by
    intro finding inside
    rw [(isGrouping_groups findings).items group member] at inside
    exact settled finding (List.mem_filter.mp inside).1
  have total := Health.errors_add_warnings inGroup
  rw [categoryLine, ← total, Nat.add_sub_cancel_left]

theorem exists_rowLines (settled : Report.Settled findings) (nonempty : findings ≠ []) :
    ∃ lines, List.Forall₂ IsRow (rows findings) lines ∧
      HasLines (summary findings) (lines ++ [CodeText.ofString ""]) := by
  refine ⟨(groups findings).map fun group => categoryLine group.1 group.2, ?_, ?_⟩
  · rw [rows, List.forall₂_map_left_iff]
    refine forall₂_map_of_forall fun group member => ?_
    rw [categoryLine_eq settled member, Health.errors_eq_countP, Health.warnings_eq_countP]
    exact isRow_countsLine _
  · rw [summary, if_neg (by simpa using nonempty)]
    exact hasLines_unlines _

theorem sum_errors_rows (findings : List Finding) :
    ((rows findings).map Row.errors).sum = Health.errors findings := by
  rw [rows, List.map_map, Health.errors_eq_countP]
  exact sum_countP_groups _ findings

theorem sum_warnings_rows (findings : List Finding) :
    ((rows findings).map Row.warnings).sum = Health.warnings findings := by
  rw [rows, List.map_map, Health.warnings_eq_countP]
  exact sum_countP_groups _ findings

end

/-! ### Agreement -/

/-- What the views of a diagnosis say about its findings. In full, each finding stands in the
section of its category; to be mended, each has its block; in short, each category has a line with
its numbers, and these add up to the numbers beside the score. -/
structure ViewsAgree (diagnosis : Diagnosis) : Prop where
  counted : Health.errors diagnosis.findings + Health.warnings diagnosis.findings =
    diagnosis.findings.length
  grouped : IsGrouping diagnosis.findings (groups diagnosis.findings)
  detailed : diagnosis.findings ≠ [] → ∃ sections,
    List.Forall₂ IsSection (groups diagnosis.findings) sections ∧
      HasLines (details diagnosis.findings) sections.flatten
  mended : diagnosis.findings ≠ [] → ∃ title blocks, Shows title "  Diagnostics for auto-fix:" ∧
    List.Forall₂ IsMending diagnosis.findings blocks ∧
      HasLines (fixes diagnosis.findings) (title :: "" :: blocks.flatten)
  summed : diagnosis.findings ≠ [] → ∃ lines, List.Forall₂ IsRow (rows diagnosis.findings) lines ∧
    HasLines (summary diagnosis.findings) (lines ++ [CodeText.ofString ""])
  clear : diagnosis.findings = [] → Shows (summary diagnosis.findings) "  ✓ No issues found!\n" ∧
    Shows (details diagnosis.findings) "  ✓ No issues found!\n" ∧
      Shows (fixes diagnosis.findings) "  No issues found — nothing to fix.\n"
  errors : ((rows diagnosis.findings).map Row.errors).sum = Health.errors diagnosis.findings
  warnings : ((rows diagnosis.findings).map Row.warnings).sum = Health.warnings diagnosis.findings
  scored : ∃ lines, IsScore diagnosis ((rows diagnosis.findings).map Row.errors).sum
    ((rows diagnosis.findings).map Row.warnings).sum lines ∧ HasLines (score diagnosis) lines

theorem shows_noFindings : Shows noFindings "  ✓ No issues found!\n" := by
  have parts : CodeText.ofString "  ✓ No issues found!\n" =
      CodeText.ofString "  " ++ "✓" ++ " No issues found!\n" := by
    rw [← CodeText.ofString_append, ← CodeText.ofString_append]
    rfl
  rw [parts]
  exact ((Shows.text _).append (shows_colored _ _)).append (.text _)

theorem viewsAgree_of_settled {diagnosis : Diagnosis}
    (settled : Report.Settled diagnosis.findings) : ViewsAgree diagnosis where
  counted := Health.errors_add_warnings settled
  grouped := isGrouping_groups diagnosis.findings
  detailed := exists_sections
  mended := exists_blocks settled
  summed := exists_rowLines settled
  clear nothing := by
    rw [nothing]
    exact ⟨shows_noFindings, shows_noFindings, .text _⟩
  errors := sum_errors_rows diagnosis.findings
  warnings := sum_warnings_rows diagnosis.findings
  scored := by
    rw [sum_errors_rows, sum_warnings_rows]
    exact isScore_score diagnosis

end Checkup.Render
