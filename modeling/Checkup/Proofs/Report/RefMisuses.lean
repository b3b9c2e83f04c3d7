import Checkup.Proofs.Inspection.Lines
import Checkup.Proofs.Report.Suppression
import Mathlib

/-!
# Misused refs in a report

The rule on refs has a hit for every ref that a line misuses, and all hits of one line are one
issue. A report shows each such line once, with the message for the first of its refs in code-point
order (`exists_mem_combine_of_refMisuse`). The other refs of the line are not named
(`combine_names_first_ref`).
-/

namespace Checkup

/-! ### The first of a line -/

namespace Script

theorem find?_usages {flags : String → List Char → Bool} {names : List String}
    {lines : List (List Char)} {number : Nat} {name : String}
    (used : (number, name) ∈ usages flags names lines) :
    ∃ first, (usages flags names lines).find? (fun usage => usage.1 = number) =
        some (number, first) ∧
      (number, first) ∈ usages flags names lines ∧
      ∀ other, (number, other) ∈ usages flags names lines → first ≤ other := by
  have some_ : ((usages flags names lines).find? fun usage => usage.1 = number).isSome := by
    rw [List.find?_isSome]
    exact ⟨(number, name), used, decide_eq_true rfl⟩
  obtain ⟨⟨line, first⟩, found⟩ := Option.isSome_iff_exists.mp some_
  obtain rfl : line = number := by simpa using List.find?_some found
  refine ⟨first, found, List.mem_of_find?_eq_some found, ?_⟩
  intro other also
  have sorted := pairwise_usages flags names lines
  obtain ⟨_, before, after, whole, earlier⟩ := List.find?_eq_some_iff_append.mp found
  rw [whole] at also sorted
  -- Nothing before the first one has its line, so the other is the same or comes later.
  rcases List.mem_append.mp also with inBefore | inRest
  · have different := earlier _ inBefore
    simp at different
  · rcases List.mem_cons.mp inRest with same | inAfter
    · rw [Prod.mk.injEq] at same
      exact same.2 ▸ String.le_refl _
    · rcases List.rel_of_pairwise_cons (List.pairwise_append.mp sorted).2.1 inAfter with
        below | ⟨_, least⟩
      · exact absurd below (Nat.lt_irrefl _)
      · exact String.not_lt.mp (String.lt_asymm least)

end Script

/-! ### The rule on refs -/

/-- The lines of a component's script on which refs are misused, with the refs. -/
def Component.refMisuses (component : Component) : List (Nat × String) :=
  Script.refMisuses (Script.refNames component.script.lines) component.script.lines

/-- The message on a misused ref. -/
def refMessage (name : String) : String :=
  "Ref \"" ++ name ++ "\" used without .value in script — this " ++
    "compares/assigns the Ref object, not its value"

/-- The id of the rule on refs. -/
def refRuleId : String := "reactivity-ref-no-value"

/-- What the rule on refs advises. -/
def refHelp : String :=
  "Access ref values with .value in <script> (auto-unwrapping only works in <template>)"

/-- The finding on a misused ref, in the common form. -/
def Component.refFinding (component : Component) (root : Path) (file : String)
    (misuse : Nat × String) : Finding :=
  { file := Finding.relativeFile root file
    plugin := ruleEngine
    rule := refRuleId
    severity := .warning
    message := refMessage misuse.2
    help := refHelp
    line := component.script.startLine + misuse.1
    column := 1
    category := "Reactivity" }

theorem exists_refRule : ∃ rule : Rule,
    Rule.builtin.filter (fun rule => rule.id == refRuleId) = [rule] ∧ rule.id = refRuleId ∧
    rule.severity = .warning ∧ rule.category = "Reactivity" ∧ rule.help = refHelp ∧
    rule.frameworks = none ∧ rule.check = .predicate .script Rule.findRefMisuses :=
  ⟨_, rfl, rfl, rfl, rfl, rfl, rfl, rfl⟩

/-- Of all that is found in a file, what the rule on refs has found. -/
theorem filter_refRule_inspectText (root : Path) (framework file : String) (content : List Char) :
    ((inspectText (Catalog.builtin.applicable framework) file content).value.filter
        fun finding => finding.rule == refRuleId).map (Finding.normalised root) =
      (Component.ofText content).refMisuses.map
        ((Component.ofText content).refFinding root file) := by
  obtain ⟨rule, alone, id, severity, category, help, unrestricted, check⟩ := exists_refRule
  have applies : rule.appliesTo framework = true := by
    rw [Rule.appliesTo, unrestricted]
  have applicable : (Catalog.builtin.applicable framework).filter
      (fun rule => rule.id == refRuleId) = [rule] := by
    show (Rule.builtin.filter _).filter _ = _
    rw [List.filter_comm, alone]
    exact List.filter_cons_of_pos applies
  have reported : ∀ misuse : Nat × String, (rule.finding file
      { line := misuse.1 + (Component.ofText content).script.startLine
        message := some (refMessage misuse.2) }).normalised root =
      (Component.ofText content).refFinding root file misuse := by
    intro misuse
    refine Finding.ext rfl rfl id ?_ rfl help (Int.add_comm _ _) rfl ?_
    · exact congrArg Severity.settled severity
    · exact congrArg Finding.settledCategory category
  have hits : (rule.inspect file (.ofText content)).value =
      (Component.ofText content).refMisuses.map fun misuse => rule.finding file
        { line := misuse.1 + (Component.ofText content).script.startLine
          message := some (refMessage misuse.2) } := by
    rw [Rule.inspect, check, Check.hits, Rule.findRefMisuses]
    show ((_ : List Hit).map _).map _ = _
    rw [List.map_map, List.map_map]
    rfl
  rw [← inspectText_filter (· == refRuleId), applicable]
  show ([rule].flatMap fun rule => (rule.inspect file (.ofText content)).value).map _ = _
  rw [List.flatMap_singleton, hits, List.map_map]
  exact List.map_congr_left fun misuse _ => reported misuse

/-! ### Reports -/

namespace Report

open Finding

theorem candidates_of_none (root : Path) (sources : List (List Finding)) :
    candidates root (Settings.suppressionOf none) sources =
      sources.flatten.map (normalised root) := by
  refine List.filter_eq_self.mpr ?_
  intro finding _
  exact decide_eq_true (Suppression.not_suppresses_empty finding)

/-- The findings of the rule on refs in a report: for each line the one on its first misused ref. -/
theorem mem_combine_refRule_iff {root : Path} {framework file : String} {content : List Char}
    {finding : Finding} (byRule : finding.rule = refRuleId) :
    finding ∈ combine root (Settings.suppressionOf none)
        [(inspectText (Catalog.builtin.applicable framework) file content).value] ↔
      ∃ misuse, (Component.ofText content).refMisuses.find? (fun other => other.1 = misuse.1) =
          some misuse ∧
        (Component.ofText content).refFinding root file misuse = finding := by
  have filtered := filter_refRule_inspectText root framework file content
  generalize (inspectText (Catalog.builtin.applicable framework) file content).value = found at *
  -- Only findings of the rule can have the key, so that the search may pass over all others.
  have ofRule : (found.map (normalised root)).find? (fun other => other.key = finding.key) =
      ((Component.ofText content).refMisuses.map
        ((Component.ofText content).refFinding root file)).find?
          fun other => other.key = finding.key := by
    rw [← filtered, List.find?_map, List.find?_map, List.find?_filter]
    refine congrArg (fun wanted => (found.find? wanted).map _) (funext fun other => ?_)
    rw [Bool.eq_iff_iff, decide_eq_true_iff, beq_iff_eq, iff_and_self]
    intro same
    have rule : (other.normalised root).rule = finding.rule :=
      congrArg (fun key => key.2.2) (of_decide_eq_true same)
    exact rule.trans byRule
  rw [mem_combine_iff, candidates_of_none, List.flatten_singleton, ofRule, List.find?_map,
    Option.map_eq_some_iff]
  refine exists_congr fun misuse => and_congr_left ?_
  rintro rfl
  have sameLine : ∀ other : Nat × String,
      ((Component.ofText content).refFinding root file other).key =
        ((Component.ofText content).refFinding root file misuse).key ↔ other.1 = misuse.1 := by
    intro other
    simp only [key, Component.refFinding, Prod.mk.injEq, true_and, and_true]
    omega
  simp only [Function.comp_def, sameLine]

/-- A line with misused refs is in the report, with the message for the first of them. -/
theorem exists_mem_combine_of_refMisuse (root : Path) (framework file : String)
    (content : List Char) {line : Nat} {name : String}
    (misused : (line, name) ∈ (Component.ofText content).refMisuses) :
    ∃ finding ∈ combine root (Settings.suppressionOf none)
        [(inspectText (Catalog.builtin.applicable framework) file content).value],
      finding.rule = "reactivity-ref-no-value" ∧ finding.file = relativeFile root file ∧
      finding.line = (Component.ofText content).script.startLine + line ∧
      ∃ first, (line, first) ∈ (Component.ofText content).refMisuses ∧
        (∀ other, (line, other) ∈ (Component.ofText content).refMisuses → first ≤ other) ∧
        finding.message = refMessage first := by
  obtain ⟨first, found, also, least⟩ := Script.find?_usages misused
  refine ⟨(Component.ofText content).refFinding root file (line, first), ?_, rfl, rfl, rfl, first,
    also, least, rfl⟩
  exact (mem_combine_refRule_iff rfl).mpr ⟨(line, first), found, rfl⟩

/-- A script that misuses two refs on one line. -/
def twoRefs : List Char :=
  "<script setup>\nconst b = ref(0)\nconst a = ref(0)\na++; b++\n</script>".toList

theorem refMisuses_twoRefs : (Component.ofText twoRefs).refMisuses = [(4, "a"), (4, "b")] := by
  have sorted : Text.sortedDistinct ["a", "b"] = ["a", "b"] := by cbv
  have names : Script.refNames (Component.ofText twoRefs).script.lines = ["a", "b"] := by
    have bound : (Component.ofText twoRefs).script.lines.filterMap
        (Script.boundName? Script.refCall) = ["b", "a"] := by decide +kernel
    rw [Script.refNames, Script.boundNames, bound]
    cbv
  rw [Component.refMisuses, names, Script.refMisuses, Script.usages, sorted]
  decide +kernel

theorem exists_mem_combine_of_second_ref :
    (4, "b") ∈ (Component.ofText twoRefs).refMisuses ∧
    ∃ finding ∈ combine ⟨1, ["proj"]⟩ (Settings.suppressionOf none)
        [(inspectText (Catalog.builtin.applicable "vite") "App.vue" twoRefs).value],
      finding.rule = "reactivity-ref-no-value" ∧
      finding.file = relativeFile ⟨1, ["proj"]⟩ "App.vue" ∧
      finding.line = (Component.ofText twoRefs).script.startLine + (4 : Nat) ∧
      ∃ first, (4, first) ∈ (Component.ofText twoRefs).refMisuses ∧
        (∀ other, (4, other) ∈ (Component.ofText twoRefs).refMisuses → first ≤ other) ∧
        finding.message = refMessage first := by
  have misused : (4, "b") ∈ (Component.ofText twoRefs).refMisuses := by
    rw [refMisuses_twoRefs]
    decide
  exact ⟨misused, exists_mem_combine_of_refMisuse ⟨1, ["proj"]⟩ "vite" "App.vue" twoRefs misused⟩

/-- Of the two refs on the line the report names only the first. -/
theorem combine_names_first_ref :
    (4, "b") ∈ (Component.ofText twoRefs).refMisuses ∧
    ∀ finding ∈ combine ⟨1, ["proj"]⟩ (Settings.suppressionOf none)
        [(inspectText (Catalog.builtin.applicable "vite") "App.vue" twoRefs).value],
      finding.rule = "reactivity-ref-no-value" → finding.message ≠ refMessage "b" := by
  refine ⟨by rw [refMisuses_twoRefs]; decide, ?_⟩
  intro finding reported byRule
  obtain ⟨⟨line, name⟩, first, rfl⟩ := (mem_combine_refRule_iff byRule).mp reported
  rw [refMisuses_twoRefs] at first
  have onLine : (line, name) ∈ [(4, "a"), (4, "b")] := List.mem_of_find?_eq_some first
  rcases List.mem_cons.mp onLine with same | second
  · cases same
    decide
  · rw [List.mem_singleton] at second
    cases second
    exact absurd first (by decide)

end Report

end Checkup
