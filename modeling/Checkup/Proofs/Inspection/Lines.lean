import Checkup.Inspection
import Checkup.Proofs.Component.Region
import Checkup.Proofs.Script.Scans
import Checkup.Rule.Catalog

/-!
# The lines of findings

A finding names a line of the file. `line_of_mem_inspectText` shows that the line exists, and that
it is the one on which the rule found what it objects to, unless the rule is about the whole file.
-/

namespace Checkup

/-! ### Hits -/

theorem mem_inspectText {rules : List Rule} {file : String} {content : List Char}
    {finding : Finding} :
    finding ∈ (inspectText rules file content).value ↔
      ∃ rule ∈ rules, ∃ hits, rule.check.hits (Component.ofText content) = .ok hits ∧
        ∃ hit ∈ hits, finding = rule.finding file hit := by
  rw [inspectText, Journaled.collect, List.mem_flatMap]
  refine exists_congr fun rule => and_congr_right fun _ => ?_
  rw [Rule.inspect]
  cases rule.check.hits (Component.ofText content) with
  | error failure =>
    constructor
    · intro impossible
      cases impossible
    · rintro ⟨_, impossible, _⟩
      cases impossible
  | ok hits =>
    show finding ∈ hits.map (rule.finding file) ↔ _
    rw [List.mem_map]
    constructor
    · rintro ⟨hit, member, rfl⟩
      exact ⟨hits, rfl, hit, member, rfl⟩
    · rintro ⟨_, same, hit, member, rfl⟩
      cases same
      exact ⟨hit, member, rfl⟩

theorem rule_of_mem_inspect {rule : Rule} {file : String} {component : Component}
    {finding : Finding} (found : finding ∈ (rule.inspect file component).value) :
    finding.rule = rule.id ∧ finding.plugin = ruleEngine := by
  unfold Rule.inspect at found
  split at found
  · obtain ⟨hit, _, rfl⟩ := List.mem_map.mp found
    exact ⟨rfl, rfl⟩
  · cases found

theorem inspectText_filter (keep : String → Bool) (rules : List Rule) (file : String)
    (content : List Char) :
    (inspectText (rules.filter fun rule => keep rule.id) file content).value =
      (inspectText rules file content).value.filter fun finding => keep finding.rule := by
  show (rules.filter _).flatMap (fun rule => (rule.inspect file (.ofText content)).value) =
    (rules.flatMap fun rule => (rule.inspect file (.ofText content)).value).filter _
  induction rules with
  | nil => rfl
  | cons rule rest ih =>
    rw [List.flatMap_cons, List.filter_append, ← ih]
    by_cases kept : keep rule.id = true
    · rw [List.filter_cons_of_pos (by simpa using kept), List.flatMap_cons]
      refine congrArg (· ++ _) (List.filter_eq_self.mpr ?_).symm
      intro finding found
      rw [(rule_of_mem_inspect found).1]
      exact kept
    · rw [List.filter_cons_of_neg (by simpa using kept)]
      refine (congrArg (· ++ _) (List.filter_eq_nil_iff.mpr ?_)).symm
      intro finding found
      rw [(rule_of_mem_inspect found).1]
      exact kept

theorem mem_region_hits {region : Region} {test : LineTest} {hit : Hit}
    (member : hit ∈ region.hits test) :
    ∃ (index : Nat) (text : List Char), region.lines[index]? = some text ∧
      hit.line = region.fileLine index ∧ test text = true := by
  unfold Region.hits at member
  split at member
  · cases member
  · obtain ⟨⟨text, index⟩, listed, found⟩ := List.mem_filterMap.mp member
    dsimp only at found
    split at found
    · next meets =>
      cases found
      exact ⟨index, text, List.mk_mem_zipIdx_iff_getElem?.mp listed, rfl, meets⟩
    · cases found

theorem mem_predicate_hits {base : LineBase} {find : Predicate} {component : Component}
    {hits : List Hit} (found : (Check.predicate base find).hits component = .ok hits) {hit : Hit}
    (member : hit ∈ hits) :
    ∃ raw, find component.content component.script.code component.template.code = .ok raw ∧
      ∃ inner ∈ raw, hit.line = inner.line + base.offset component := by
  rw [Check.hits] at found
  cases given : find component.content component.script.code component.template.code with
  | error failure =>
    rw [given] at found
    cases found
  | ok raw =>
    rw [given] at found
    cases found
    obtain ⟨inner, inRaw, rfl⟩ := List.mem_map.mp member
    exact ⟨raw, rfl, inner, inRaw, rfl⟩

theorem script_placed (content : List Char) :
    (Component.ofText content).script.Placed content :=
  Region.first_placed (by decide) content

theorem template_placed (content : List Char) :
    (Component.ofText content).template.Placed content :=
  Region.first_placed (by decide) content

/-! ### Where rules point -/

namespace Rule

open Script

/-- What a rule on scripts objects to in the line `text`, number `index` from zero, of a script. -/
inductive Objects (script : List (List Char)) (index : Nat) (text : List Char) : String → Prop where
  | replacement {name : String} : name ∈ reactiveNames script → replaces name text = true →
      Objects script index text "reactivity-reactive-reassign"
  | refMisuse {name : String} : name ∈ refNames script → misusesRef name text = true →
      Objects script index text "reactivity-ref-no-value"
  | storeWrite {name : String} : name ∈ storeNames script → writesStore name text = true →
      Objects script index text "pinia-direct-state-mutation"
  | navigation : braceBalance (script.take (index + 1)).flatten ≤ 1 →
      dropsNavigation text = true → Objects script index text "nuxt-no-navigate-to-in-setup"

/-- The line is that of a region's line that meets the test. -/
def TestPointsAt (test : LineTest) (region : Region) (content : List Char) (line : Int) : Prop :=
  ∃ index text, region.Shows content index text line ∧ test text = true

/-- A line of the file points at what the rule found. Of a rule on whole files nothing is said. -/
def PointsAt (rule : Rule) (component : Component) (line : Int) : Prop :=
  match rule.check with
  | .lines script template =>
    (∃ test ∈ script, TestPointsAt test component.script component.content line) ∨
      ∃ test ∈ template, TestPointsAt test component.template component.content line
  | .predicate .script find =>
    ∃ index text, component.script.Shows component.content index text line ∧
      (∃ hits, find component.content component.script.code component.template.code = .ok hits ∧
        ∃ hit ∈ hits, hit.line = index + 1) ∧
      Objects component.script.lines index text rule.id
  | .predicate .file _ => True

/-- The line exists, and it points at what the rule found. -/
def Locates (rule : Rule) (content : List Char) (line : Int) : Prop :=
  (1 ≤ line ∧ line ≤ (Text.lines content).length) ∧ rule.PointsAt (.ofText content) line

theorem locates_of_lines {rule : Rule} {script template : Option LineTest}
    (check : rule.check = .lines script template) {content : List Char} {hits : List Hit}
    (found : rule.check.hits (.ofText content) = .ok hits) {hit : Hit} (member : hit ∈ hits) :
    rule.Locates content hit.line := by
  have points : ∀ {test : LineTest} {region : Region}, region.Placed content →
      hit ∈ region.hits test → (1 ≤ hit.line ∧ hit.line ≤ (Text.lines content).length) ∧
        TestPointsAt test region content hit.line := by
    intro test region placed meets
    obtain ⟨index, text, read, line, matched⟩ := mem_region_hits meets
    have shown := Region.shows_of_placed placed read
    rw [← line] at shown
    exact ⟨shown.bounds, index, text, shown, matched⟩
  rw [check, Check.hits] at found
  cases found
  unfold Locates PointsAt
  rw [check]
  rcases List.mem_append.mp member with inScript | inTemplate
  · cases script with
    | none => cases inScript
    | some test =>
      obtain ⟨bounds, pointed⟩ := points (script_placed content) inScript
      exact ⟨bounds, Or.inl ⟨test, rfl, pointed⟩⟩
  · cases template with
    | none => cases inTemplate
    | some test =>
      obtain ⟨bounds, pointed⟩ := points (template_placed content) inTemplate
      exact ⟨bounds, Or.inr ⟨test, rfl, pointed⟩⟩

/-- A rule on scripts locates what it found if each of its hits is for a line that it objects to. -/
theorem locates_of_script {rule : Rule} {find : Predicate}
    (check : rule.check = .predicate .script find) {content : List Char}
    (objects : ∀ {script : List Char} {hits : List Hit} {template : List Char},
      find content script template = .ok hits → ∀ hit ∈ hits, ∃ (index : Nat) (text : List Char),
        (Text.lines script)[index]? = some text ∧ hit.line = index + 1 ∧
          Objects (Text.lines script) index text rule.id)
    {hits : List Hit} (found : rule.check.hits (.ofText content) = .ok hits) {hit : Hit}
    (member : hit ∈ hits) : rule.Locates content hit.line := by
  rw [check] at found
  obtain ⟨raw, given, inner, inRaw, line⟩ := mem_predicate_hits found member
  obtain ⟨index, text, read, number, offends⟩ := objects given inner inRaw
  have shown := Region.shows_of_placed (script_placed content) read
  have same : (Component.ofText content).script.fileLine index = hit.line := by
    rw [Region.fileLine, line, number, LineBase.offset]
    omega
  rw [same] at shown
  unfold Locates PointsAt
  rw [check]
  exact ⟨shown.bounds, index, text, shown, ⟨raw, given, inner, inRaw, number⟩, offends⟩

theorem locates_of_file {rule : Rule} {find : Predicate}
    (check : rule.check = .predicate .file find) {content : List Char}
    (first : ∀ {script : List Char} {hits : List Hit} {template : List Char},
      find content script template = .ok hits → ∀ hit ∈ hits, hit.line = 1)
    {hits : List Hit} (found : rule.check.hits (.ofText content) = .ok hits) {hit : Hit}
    (member : hit ∈ hits) : rule.Locates content hit.line := by
  rw [check] at found
  obtain ⟨raw, given, inner, inRaw, line⟩ := mem_predicate_hits found member
  have one : hit.line = 1 := by
    rw [line, first given inner inRaw]
    rfl
  have count := Text.length_pieces '\n' content
  unfold Locates PointsAt
  rw [check, one, Text.lines, count]
  exact ⟨⟨Int.le_refl 1, by omega⟩, trivial⟩

/-! ### The rules of the catalog -/

theorem mem_plainHits_usages {flags : String → List Char → Bool} {names : List String}
    {lines : List (List Char)} {hit : Hit}
    (member : hit ∈ plainHits ((usages flags names lines).map (·.1))) :
    ∃ (index : Nat) (text : List Char) (name : String), lines[index]? = some text ∧
      hit.line = index + 1 ∧ name ∈ names ∧ flags name text = true := by
  obtain ⟨number, numbered, rfl⟩ := List.mem_map.mp member
  obtain ⟨⟨_, name⟩, used, rfl⟩ := List.mem_map.mp numbered
  obtain ⟨index, text, read, rfl, known, flagged⟩ := mem_usages.mp used
  exact ⟨index, text, name, read, rfl, known, flagged⟩

/-- Every hit of a rule of the catalog has a line of the file, the one with what the rule found. -/
theorem locates_of_builtin {rule : Rule} (listed : rule ∈ builtin) {content : List Char}
    {hits : List Hit} (found : rule.check.hits (.ofText content) = .ok hits) {hit : Hit}
    (member : hit ∈ hits) : rule.Locates content hit.line := by
  simp only [builtin, reactivity, performance, nuxt, pinia, architecture, List.cons_append,
    List.nil_append, List.mem_cons, List.not_mem_nil, or_false] at listed
  rcases listed with rfl | rfl | rfl | rfl | rfl | rfl | rfl | rfl | rfl | rfl
  -- reactivity-destructure-props
  · exact locates_of_lines rfl found member
  -- reactivity-reactive-reassign
  · refine locates_of_script rfl ?_ found member
    intro script hits _ given hit inHits
    cases given
    obtain ⟨index, text, name, read, line, known, flagged⟩ := mem_plainHits_usages inHits
    exact ⟨index, text, read, line, .replacement known flagged⟩
  -- reactivity-ref-no-value
  · refine locates_of_script rfl ?_ found member
    intro script hits _ given hit inHits
    cases given
    obtain ⟨⟨number, name⟩, used, rfl⟩ := List.mem_map.mp inHits
    obtain ⟨index, text, read, rfl, known, flagged⟩ := mem_usages.mp used
    exact ⟨index, text, read, rfl, .refMisuse known flagged⟩
  -- perf-giant-component
  · refine locates_of_file rfl ?_ found member
    intro _ hits _ given hit inHits
    unfold findGiant at given
    dsimp only at given
    split at given
    · cases given
      cases inHits
    · cases given
      obtain rfl := List.mem_singleton.mp inHits
      rfl
  -- perf-v-for-method-call
  · exact locates_of_lines rfl found member
  -- nuxt-fetch-in-mounted
  · exact locates_of_lines rfl found member
  -- nuxt-no-navigate-to-in-setup
  · refine locates_of_script rfl ?_ found member
    intro script hits _ given hit inHits
    cases given
    obtain ⟨number, dropped, rfl⟩ := List.mem_map.mp inHits
    obtain ⟨index, text, read, rfl, shallow, drops⟩ := mem_navigationsFrom.mp dropped
    refine ⟨index, text, read, ?_, .navigation (by omega) drops⟩
    dsimp only
    omega
  -- pinia-no-store-to-refs
  · exact locates_of_lines rfl found member
  -- pinia-direct-state-mutation
  · refine locates_of_script rfl ?_ found member
    intro script hits _ given hit inHits
    cases given
    obtain ⟨index, text, name, read, line, known, flagged⟩ := mem_plainHits_usages inHits
    exact ⟨index, text, read, line, .storeWrite known flagged⟩
  -- arch-mixed-api-styles
  · refine locates_of_file rfl ?_ found member
    intro _ hits _ given hit inHits
    unfold findMixedStyles at given
    split at given
    · cases given
      obtain rfl := List.mem_singleton.mp inHits
      rfl
    · cases given
      cases inHits

end Rule

/-- The line of every finding is one of the file, and it points at what the rule found. -/
theorem line_of_mem_inspectText (framework file : String) (content : List Char) (finding : Finding)
    (found : finding ∈
      (inspectText (Catalog.builtin.applicable framework) file content).value) :
    (1 ≤ finding.line ∧ finding.line ≤ (Text.lines content).length) ∧
      ∃ rule ∈ Catalog.builtin.applicable framework, rule.id = finding.rule ∧
        rule.PointsAt (.ofText content) finding.line := by
  obtain ⟨rule, applicable, hits, given, hit, member, rfl⟩ := mem_inspectText.mp found
  have listed := (List.mem_filter.mp applicable).1
  obtain ⟨bounds, points⟩ := Rule.locates_of_builtin listed given member
  exact ⟨bounds, rule, applicable, rfl, points⟩

-- The destructured properties stand on the second line of the script, the third of the file.
theorem line_of_destructured_props :
    ∃ finding ∈ (inspectText (Catalog.builtin.applicable "vite") "App.vue"
        "<p/>\n<script setup>\nconst \x7b id \x7d = props\n</script>".toList).value,
      finding.line = 3 ∧
      ∃ rule ∈ Catalog.builtin.applicable "vite", rule.id = finding.rule ∧
        rule.PointsAt (.ofText
          "<p/>\n<script setup>\nconst \x7b id \x7d = props\n</script>".toList) 3 := by
  have lines : (inspectText (Catalog.builtin.applicable "vite") "App.vue"
      "<p/>\n<script setup>\nconst \x7b id \x7d = props\n</script>".toList).value.map (·.line) =
        [3] := by
    decide +kernel
  obtain ⟨finding, found, line⟩ := List.mem_map.mp (lines ▸ List.mem_singleton_self 3)
  obtain ⟨_, points⟩ := line_of_mem_inspectText _ _ _ finding found
  rw [line] at points
  exact ⟨finding, found, line, points⟩

end Checkup
