import Checkup.Inspection
import Checkup.Proofs.Text.Cutting
import Checkup.Rule.Catalog
import Mathlib.Data.List.Basic

/-!
# Text before a component

Text without tags before a component moves its regions down, and with them whatever the rules find
in them (`Region.first_shifts`, `Check.IsRegional.hits_shift`). This is so for all rules of the
catalog but the two that look at the file as a whole (`inspectText_shift`).
-/

namespace Checkup

/-! ### Regions -/

/-- A region with the same code, and so many more lines before it. Where an empty one stands does
not matter. -/
def Region.Shifts (lines : Nat) (region shifted : Region) : Prop :=
  shifted.code = region.code ∧ (region.code ≠ [] → shifted.startLine = region.startLine + lines)

theorem Region.first_shifts (tag : String) {before : List Char} (noTag : '<' ∉ before)
    (content : List Char) :
    Shifts (before.count '\n') (first tag content) (first tag (before ++ content)) := by
  have opening : ("<" ++ tag).toList = '<' :: tag.toList := by simp
  unfold first
  rw [opening, Text.cut?_append noTag]
  cases Text.cut? ('<' :: tag.toList) content with
  | none => exact ⟨rfl, fun inside => absurd rfl inside⟩
  | some parts =>
    dsimp only [Option.map_some]
    cases Text.cut? [ '>' ] parts.2 with
    | none => exact ⟨rfl, fun inside => absurd rfl inside⟩
    | some ended =>
      dsimp only
      cases Text.cut? ("</" ++ tag ++ ">").toList ended.2 with
      | none => exact ⟨rfl, fun inside => absurd rfl inside⟩
      | some closed =>
        refine ⟨rfl, fun _ => ?_⟩
        simp only [List.count_append]
        omega

/-! ### Hits -/

/-- The hit so many lines further down. -/
def Hit.shift (lines : Nat) (hit : Hit) : Hit := { hit with line := hit.line + lines }

/-- The finding so many lines further down. -/
def Finding.shift (lines : Nat) (finding : Finding) : Finding :=
  { finding with line := finding.line + lines }

theorem Region.Shifts.hits_shift {lines : Nat} {region shifted : Region}
    (shifts : Shifts lines region shifted) (test : LineTest) :
    shifted.hits test = (region.hits test).map (Hit.shift lines) := by
  obtain ⟨code, start⟩ := shifts
  unfold hits
  rw [code]
  split
  · rfl
  · next inside =>
    have start := start (by simpa using inside)
    rw [List.map_filterMap, Region.lines, code]
    congr 1
    funext (line, index)
    by_cases meets : test line
    · simp [meets, fileLine, start, Hit.shift]
      omega
    · simp [meets]

/-- The check is made on regions alone, and finds nothing in an empty one. -/
inductive Check.IsRegional : Check → Prop where
  | lines (script template : Option LineTest) : IsRegional (.lines script template)
  | script {find : Predicate} (inScript : List Char → List Hit) (nothing : inScript [] = [])
      (finds : ∀ content script template, find content script template = .ok (inScript script)) :
      IsRegional (.predicate .script find)

theorem Check.IsRegional.hits_shift {check : Check} (regional : check.IsRegional)
    {before : List Char} (noTag : '<' ∉ before) (content : List Char) :
    check.hits (.ofText (before ++ content)) =
      (check.hits (.ofText content)).map (List.map (Hit.shift (before.count '\n'))) := by
  have script := Region.first_shifts "script" noTag content
  have template := Region.first_shifts "template" noTag content
  cases regional with
  | lines inScript inTemplate =>
    simp only [Check.hits, Component.ofText, Except.map, List.map_append]
    cases inScript <;> cases inTemplate <;>
      simp [script.hits_shift, template.hits_shift]
  | script inScript nothing finds =>
    obtain ⟨code, start⟩ := script
    simp only [Check.hits, Component.ofText, finds, Except.map, code, LineBase.offset,
      List.map_map]
    by_cases empty : (Region.first "script" content).code = []
    · rw [empty, nothing]
      rfl
    · congr 2
      funext hit
      simp [Hit.shift, start empty]
      omega

/-! ### Findings -/

theorem Rule.inspect_shift {rule : Rule} (regional : rule.check.IsRegional) {before : List Char}
    (noTag : '<' ∉ before) (file : String) (content : List Char) :
    (rule.inspect file (.ofText (before ++ content))).value =
      (rule.inspect file (.ofText content)).value.map (Finding.shift (before.count '\n')) := by
  unfold inspect
  rw [regional.hits_shift noTag content]
  cases rule.check.hits (.ofText content) with
  | error failure => rfl
  | ok hits =>
    show (hits.map _).map _ = (hits.map _).map _
    simp only [List.map_map]
    rfl

theorem inspectText_of_regional {rules : List Rule} (regional : ∀ rule ∈ rules, rule.check.IsRegional)
    {before : List Char} (noTag : '<' ∉ before) (file : String) (content : List Char) :
    (inspectText rules file (before ++ content)).value =
      (inspectText rules file content).value.map (Finding.shift (before.count '\n')) := by
  show rules.flatMap _ = (rules.flatMap _).map _
  rw [List.map_flatMap]
  apply List.flatMap_congr
  intro rule member
  exact Rule.inspect_shift (regional rule member) noTag file content

/-- The rules that look at a file as a whole. -/
def wholeFileRules : List String := ["perf-giant-component", "arch-mixed-api-styles"]

theorem boundNames_lines_nil (initial : Pattern) :
    Script.boundNames initial (Text.lines []) = [] := by
  have unbound : (Text.lines []).filterMap (Script.boundName? initial) = [] := rfl
  simp [Script.boundNames, unbound, Text.sortedDistinct]

theorem usages_boundNames_lines_nil (flags : String → List Char → Bool) (initial : Pattern) :
    Script.usages flags (Script.boundNames initial (Text.lines [])) (Text.lines []) = [] := by
  simp [boundNames_lines_nil, Script.usages, Text.sortedDistinct]

theorem isRegional_of_builtin {rule : Rule} (listed : rule ∈ Rule.builtin)
    (regional : rule.id ∉ wholeFileRules) : rule.check.IsRegional := by
  have unused := usages_boundNames_lines_nil
  simp only [Rule.builtin, Rule.reactivity, Rule.performance, Rule.nuxt, Rule.pinia,
    Rule.architecture, List.cons_append, List.nil_append, List.mem_cons, List.not_mem_nil,
    or_false] at listed
  rcases listed with rfl | rfl | rfl | rfl | rfl | rfl | rfl | rfl | rfl | rfl
  -- reactivity-destructure-props
  · exact .lines _ _
  -- reactivity-reactive-reassign
  · refine .script _ ?_ fun _ _ _ => rfl
    exact congrArg (fun uses => Rule.plainHits (uses.map Prod.fst)) (unused _ _)
  -- reactivity-ref-no-value
  · refine .script _ ?_ fun _ _ _ => rfl
    exact congrArg (List.map _) (unused _ _)
  -- perf-giant-component
  · exact absurd (by decide) regional
  -- perf-v-for-method-call
  · exact .lines _ _
  -- nuxt-fetch-in-mounted
  · exact .lines _ _
  -- nuxt-no-navigate-to-in-setup
  · exact .script _ rfl fun _ _ _ => rfl
  -- pinia-no-store-to-refs
  · exact .lines _ _
  -- pinia-direct-state-mutation
  · refine .script _ ?_ fun _ _ _ => rfl
    exact congrArg (fun uses => Rule.plainHits (uses.map Prod.fst)) (unused _ _)
  -- arch-mixed-api-styles
  · exact absurd (by decide) regional

/-- Text without tags before a component moves the findings in its regions down by its newlines. -/
theorem inspectText_shift (framework file : String) (before content : List Char)
    (noTag : '<' ∉ before) :
    let rules := (Catalog.builtin.applicable framework).filter fun rule => rule.id ∉ wholeFileRules
    (inspectText rules file (before ++ content)).value =
      (inspectText rules file content).value.map (Finding.shift (before.count '\n')) := by
  apply inspectText_of_regional _ noTag
  intro rule member
  obtain ⟨applicable, regional⟩ := List.mem_filter.mp member
  exact isRegional_of_builtin (List.mem_filter.mp applicable).1 (of_decide_eq_true regional)

-- Each region's code begins on the line of its tag.
theorem lines_of_shifted_component :
    let rules := (Catalog.builtin.applicable "nuxt3").filter fun rule => rule.id ∉ wholeFileRules
    let before := "Notes > 1\n\n".toList
    let content := ("<template><li v-for=\"a in f(b)\"/>\n</template>\n" ++
      "<script>const \x7b id \x7d = props</script>").toList
    '<' ∉ before ∧
      (inspectText rules "App.vue" content).value.map Finding.line = [3, 1] ∧
      (inspectText rules "App.vue" (before ++ content)).value.map Finding.line = [5, 3] := by
  intro rules before content
  have noTag : '<' ∉ before := by decide
  have lines : (inspectText rules "App.vue" content).value.map Finding.line = [3, 1] := by
    decide +kernel
  have shifted := congrArg (List.map (· + 2)) lines
  rw [List.map_map] at shifted
  refine ⟨noTag, lines, ?_⟩
  rw [inspectText_shift "nuxt3" "App.vue" before content noTag, List.map_map]
  exact shifted

end Checkup
