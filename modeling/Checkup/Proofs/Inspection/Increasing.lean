import Checkup.Proofs.Inspection.Lines
import Checkup.Proofs.Report.Distinct
import Checkup.Proofs.Rule.Selection
import Checkup.Proofs.Script.Bindings
import Checkup.Proofs.Script.Replacements
import Checkup.Proofs.Text.Pieces

/-!
# One finding a line

A check whose hits stand on different lines loses none of them when findings of one issue are
merged. Such are the tests of the lines of one region, the check for replaced objects and that
for dropped navigations (`IsLinewise.exists_hits`). For replaced objects this needs that no line
assigns to two of the names, which are whole words (`Reassigns.unique`).
-/

namespace Checkup

/-- The hits stand on different lines, in the order of the lines. -/
def Increasing (hits : List Hit) : Prop := hits.Pairwise fun a b => a.line < b.line

namespace Check

/-- The check means each line at most once. -/
inductive IsLinewise : Check → Prop where
  | script (test : LineTest) : IsLinewise (.lines (some test) none)
  | template (test : LineTest) : IsLinewise (.lines none (some test))
  | replacements : IsLinewise (.predicate .script Rule.findReplacements)
  | navigations : IsLinewise (.predicate .script Rule.findNavigations)

end Check

/-! ### Hits -/

theorem increasing_region_hits (region : Region) (test : LineTest) :
    Increasing (region.hits test) := by
  unfold Increasing Region.hits
  split
  · exact List.Pairwise.nil
  · refine List.pairwise_filterMap.mpr ((pairwise_zipIdx region.lines 0).imp ?_)
    intro a b before hitA foundA hitB foundB
    obtain ⟨-, hereA⟩ := Option.ite_none_right_eq_some.mp foundA
    obtain ⟨-, hereB⟩ := Option.ite_none_right_eq_some.mp foundB
    rw [← Option.some.inj hereA, ← Option.some.inj hereB]
    simp only [Region.fileLine]
    omega

theorem increasing_plainHits {lines : List Nat} (sorted : lines.Pairwise (· < ·)) :
    Increasing (Rule.plainHits lines) := by
  refine List.pairwise_map.mpr (sorted.imp ?_)
  intro a b before
  exact Int.ofNat_lt.mpr before

namespace Rule

open Script

theorem increasing_findReplacements (content script template : List Char) :
    ∃ hits, findReplacements content script template = .ok hits ∧ Increasing hits := by
  refine ⟨_, rfl, increasing_plainHits (pairwise_lines_usages ?_)⟩
  intro line listed a knownA b knownB replacedA replacedB
  have oneLine : '\n' ∉ line := Text.not_mem_of_mem_pieces listed
  have reassignsA := ((replaces_iff oneLine).mp replacedA).1
  have reassignsB := ((replaces_iff oneLine).mp replacedB).1
  have identifier : ∀ {name}, name ∈ reactiveNames (Text.lines script) → Text.IsIdentifier name :=
    fun known => Bound.isIdentifier_of_mem_names .reactive known
  exact reassignsA.unique (identifier knownA) reassignsB (identifier knownB)

theorem increasing_findNavigations (content script template : List Char) :
    ∃ hits, findNavigations content script template = .ok hits ∧ Increasing hits :=
  ⟨_, rfl, increasing_plainHits (pairwise_navigationsFrom 0 1 _)⟩

end Rule

theorem Increasing.shift {hits : List Hit} (increasing : Increasing hits) (offset : Int) :
    Increasing (hits.map fun hit => { hit with line := hit.line + offset }) := by
  refine List.pairwise_map.mpr (increasing.imp ?_)
  intro a b before
  exact Int.add_lt_add_right before offset

theorem Check.IsLinewise.exists_hits {check : Check} (linewise : check.IsLinewise)
    (component : Component) : ∃ hits, check.hits component = .ok hits ∧ Increasing hits := by
  cases linewise with
  | script test =>
    refine ⟨component.script.hits test, ?_, increasing_region_hits _ _⟩
    simp [Check.hits]
  | template test => exact ⟨_, rfl, increasing_region_hits _ _⟩
  | replacements =>
    obtain ⟨hits, found, increasing⟩ := Rule.increasing_findReplacements component.content
      component.script.code component.template.code
    exact ⟨_, by rw [Check.hits, found]; rfl, increasing.shift _⟩
  | navigations =>
    obtain ⟨hits, found, increasing⟩ := Rule.increasing_findNavigations component.content
      component.script.code component.template.code
    exact ⟨_, by rw [Check.hits, found]; rfl, increasing.shift _⟩

/-! ### Findings -/

theorem nodup_keys_inspect {rule : Rule} (linewise : rule.check.IsLinewise) (file : String)
    (component : Component) : ((rule.inspect file component).value.map Finding.key).Nodup := by
  obtain ⟨hits, found, increasing⟩ := linewise.exists_hits component
  have inspected : (rule.inspect file component).value = hits.map (rule.finding file) := by
    rw [Rule.inspect, found]
    rfl
  rw [inspected, List.map_map]
  refine List.pairwise_map.mpr (increasing.imp ?_)
  intro a b before same
  have line : a.line = b.line := congrArg (fun key => key.2.1) same
  omega

theorem filter_id_eq_singleton {rules : List Rule} (distinct : (rules.map Rule.id).Nodup)
    {rule : Rule} (member : rule ∈ rules) :
    rules.filter (fun other => other.id == rule.id) = [rule] := by
  induction rules with
  | nil => cases member
  | cons first rest ih =>
    obtain ⟨new, others⟩ := List.nodup_cons.mp distinct
    rcases List.mem_cons.mp member with rfl | later
    · have alone : rest.filter (fun other => other.id == rule.id) = [] := by
        apply List.filter_eq_nil_iff.mpr
        intro other inRest same
        exact new (eq_of_beq same ▸ List.mem_map_of_mem inRest)
      rw [List.filter_cons_of_pos (by simp), alone]
    · have different : first.id ≠ rule.id := by
        intro same
        exact new (same ▸ List.mem_map_of_mem later)
      rw [List.filter_cons_of_neg (by simpa using different), ih others later]

/-- The checks for replaced objects and for dropped navigations and any test of the lines of one
region have hits on increasing lines, and merging findings of one issue removes none of what they
find in a file. -/
theorem linewise_findings :
    (∀ content script template, ∃ hits,
      Rule.findReplacements content script template = .ok hits ∧ Increasing hits) ∧
    (∀ content script template, ∃ hits,
      Rule.findNavigations content script template = .ok hits ∧ Increasing hits) ∧
    (∀ (test : LineTest) component,
      (∃ hits, (Check.lines (some test) none).hits component = .ok hits ∧ Increasing hits) ∧
      ∃ hits, (Check.lines none (some test)).hits component = .ok hits ∧ Increasing hits) ∧
    ∀ (catalog : Catalog) (framework file : String) (content : List Char),
      ∀ rule ∈ catalog.applicable framework, rule.check.IsLinewise →
        let found := (inspectText (catalog.applicable framework) file content).value
        (Report.distinct found).filter (fun finding => finding.rule == rule.id) =
          found.filter fun finding => finding.rule == rule.id := by
  refine ⟨Rule.increasing_findReplacements, Rule.increasing_findNavigations, ?_, ?_⟩
  · intro test component
    exact ⟨(Check.IsLinewise.script test).exists_hits component,
      (Check.IsLinewise.template test).exists_hits component⟩
  · intro catalog framework file content rule member linewise found
    have byKey : ∀ a b : Finding, a.key = b.key → (a.rule == rule.id) = (b.rule == rule.id) := by
      intro a b same
      rw [show a.rule = b.rule from congrArg (fun key => key.2.2) same]
    have alone : found.filter (fun finding => finding.rule == rule.id) =
        (rule.inspect file (.ofText content)).value := by
      rw [← inspectText_filter (· == rule.id),
        filter_id_eq_singleton (catalog.nodup_ids_applicable framework) member]
      exact List.flatMap_singleton _ _
    rw [← Report.distinct_filter found byKey, alone]
    exact Report.distinct_of_nodup (nodup_keys_inspect linewise file _)

/-- A component that replaces its reactive object on two lines. -/
def twiceReplaced : List Char :=
  "<script setup>\nlet s = reactive(a)\ns = b\n s = c\n</script>".toList

theorem linewise_findings_of_twice_replaced :
    let found := (inspectText (Catalog.builtin.applicable "vite") "App.vue" twiceReplaced).value
    ∃ rule ∈ Catalog.builtin.applicable "vite", rule.check.IsLinewise ∧
      (found.filter fun finding => finding.rule == rule.id).map Finding.line = [3, 4] ∧
      (Report.distinct found).filter (fun finding => finding.rule == rule.id) =
        found.filter fun finding => finding.rule == rule.id := by
  intro found
  obtain ⟨rule, listed, id, linewise, unrestricted⟩ : ∃ rule, Rule.builtin[1]? = some rule ∧
      rule.id = "reactivity-reactive-reassign" ∧ rule.check.IsLinewise ∧ rule.frameworks = none :=
    ⟨_, rfl, rfl, .replacements, rfl⟩
  have applicable : rule ∈ Catalog.builtin.applicable "vite" := by
    refine List.mem_filter.mpr ⟨List.mem_of_getElem? listed, ?_⟩
    simp [Rule.appliesTo, unrestricted]
  refine ⟨rule, applicable, linewise, ?_, ?_⟩
  · rw [id]
    decide +kernel
  · exact linewise_findings.2.2.2 Catalog.builtin "vite" "App.vue" twiceReplaced rule applicable
      linewise

end Checkup
