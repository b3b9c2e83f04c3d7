import Checkup.Proofs.Inspection.Shifting
import Checkup.Proofs.Pattern.Endings
import Checkup.Proofs.Rule.Selection
import Checkup.Proofs.Text.Pieces

/-!
# A newline behind a component

A newline at the end of a file belongs to no region and completes no tag and no shape that the
rules look for. But it opens one more line. So of all rules only the one on the number of lines
takes note of it, and only where the file has as many lines as are allowed
(`inspectText_concat_newline`).
-/

namespace Checkup

/-! ### What does not change -/

theorem Region.first_concat_newline (tag : String) (oneLine : '\n' ∉ tag.toList)
    (content : List Char) : first tag (content ++ ['\n']) = first tag content := by
  have apart : ∀ {word : List Char}, '\n' ∉ word → ∀ c ∈ ['\n'], c ∉ word := by
    intro word absent c newline
    rwa [List.mem_singleton.mp newline]
  have opening : '\n' ∉ ("<" ++ tag).toList := by simp [oneLine]
  have closing : '\n' ∉ ("</" ++ tag ++ ">").toList := by simp [oneLine]
  unfold first
  rw [Text.cut?_append_of_apart (apart opening)]
  cases Text.cut? ("<" ++ tag).toList content with
  | none => rfl
  | some opened =>
    dsimp only [Option.map_some]
    rw [Text.cut?_append_of_apart (apart (by decide))]
    cases Text.cut? [ '>' ] opened.2 with
    | none => rfl
    | some ended =>
      dsimp only [Option.map_some]
      rw [Text.cut?_append_of_apart (apart closing)]
      cases Text.cut? ("</" ++ tag ++ ">").toList ended.2 <;> rfl

theorem Check.IsRegional.hits_concat_newline {check : Check} (regional : check.IsRegional)
    (content : List Char) :
    check.hits (.ofText (content ++ ['\n'])) = check.hits (.ofText content) := by
  have script := Region.first_concat_newline "script" (by decide) content
  have template := Region.first_concat_newline "template" (by decide) content
  cases regional with
  | lines inScript inTemplate => simp only [Check.hits, Component.ofText, script, template]
  | script inScript nothing finds =>
    simp only [Check.hits, Component.ofText, finds, script, LineBase.offset]

namespace Rule

theorem mixesStyles_concat_newline (content : List Char) :
    mixesStyles (content ++ ['\n']) = mixesStyles content := by
  have noWord : Text.isWord '\n' = false := by decide
  have setup : setupTag.isPlain = true ∧ setupTag.endsApart '\n' = true := by decide +kernel
  have options : optionsApi.isPlain = true ∧ optionsApi.endsApart '\n' = true := by decide +kernel
  have composition : compositionApi.isPlain = true ∧ compositionApi.endsApart '\n' = true := by
    decide +kernel
  unfold mixesStyles
  rw [Pattern.occursIn_concat setup.1 setup.2 noWord,
    Pattern.occursIn_concat options.1 options.2 noWord,
    Pattern.occursIn_concat composition.1 composition.2 noWord]

theorem hits_mixedStyles_concat_newline (content : List Char) :
    (Check.predicate .file findMixedStyles).hits (.ofText (content ++ ['\n'])) =
      (Check.predicate .file findMixedStyles).hits (.ofText content) := by
  have same : findMixedStyles (content ++ ['\n']) = findMixedStyles content := by
    funext script template
    unfold findMixedStyles
    rw [mixesStyles_concat_newline]
  simp only [Check.hits, Component.ofText, same]
  rfl

theorem check_of_mixedStyles {rule : Rule} (listed : rule ∈ builtin)
    (id : rule.id = "arch-mixed-api-styles") : rule.check = .predicate .file findMixedStyles := by
  have found : rule ∈ builtin.filter fun rule => rule.id = "arch-mixed-api-styles" :=
    List.mem_filter.mpr ⟨listed, decide_eq_true id⟩
  obtain rfl := List.mem_singleton.mp (found : rule ∈ architecture)
  rfl

theorem hits_concat_newline {rule : Rule} (listed : rule ∈ builtin)
    (other : rule.id ≠ "perf-giant-component") (content : List Char) :
    rule.check.hits (.ofText (content ++ ['\n'])) = rule.check.hits (.ofText content) := by
  by_cases mixed : rule.id = "arch-mixed-api-styles"
  · rw [check_of_mixedStyles listed mixed]
    exact hits_mixedStyles_concat_newline content
  · have regional : rule.id ∉ wholeFileRules := by simp [wholeFileRules, other, mixed]
    exact (isRegional_of_builtin listed regional).hits_concat_newline content

end Rule

theorem inspectText_concat_newline_of_others {rules : List Rule}
    (others : ∀ rule ∈ rules, rule ∈ Rule.builtin ∧ rule.id ≠ "perf-giant-component")
    (file : String) (content : List Char) :
    (inspectText rules file (content ++ ['\n'])).value = (inspectText rules file content).value := by
  apply List.flatMap_congr
  intro rule member
  obtain ⟨listed, other⟩ := others rule member
  dsimp only [Rule.inspect]
  rw [Rule.hits_concat_newline listed other]

/-! ### What changes -/

/-- The rule and the line of a finding. -/
def Finding.place (finding : Finding) : String × Int := (finding.rule, finding.line)

/-- Where the rule on the number of lines points. -/
def giantPlaces (content : List Char) : List (String × Int) :=
  if Rule.componentLineLimit < (Text.lines content).length then [("perf-giant-component", 1)]
  else []

theorem length_lines_concat_newline (content : List Char) :
    (Text.lines (content ++ ['\n'])).length = (Text.lines content).length + 1 := by
  simp [Text.lines, Text.length_pieces]

theorem giantPlaces_concat_newline_eq_iff (content : List Char) :
    giantPlaces (content ++ ['\n']) = giantPlaces content ↔
      (Text.lines content).length ≠ Rule.componentLineLimit := by
  unfold giantPlaces
  rw [length_lines_concat_newline]
  split <;> split <;> simp <;> omega

theorem Rule.places_of_giant {giant : Rule} (id : giant.id = "perf-giant-component")
    (check : giant.check = .predicate .file findGiant) (file : String) (content : List Char) :
    (giant.inspect file (.ofText content)).value.map Finding.place = giantPlaces content := by
  unfold giantPlaces
  by_cases within : (Text.lines content).length ≤ componentLineLimit
  · have found : ∀ script template, findGiant content script template = .ok [] :=
      fun _ _ => if_pos within
    have hits : giant.check.hits (.ofText content) = .ok [] := by
      rw [check]
      exact congrArg (Except.map _) (found _ _)
    rw [if_neg (Nat.not_lt.mpr within), inspect, hits]
    rfl
  · obtain ⟨hit, found, line⟩ : ∃ hit : Hit, (∀ script template,
        findGiant content script template = .ok [hit]) ∧ hit.line = 1 :=
      ⟨_, fun _ _ => if_neg within, rfl⟩
    have hits : giant.check.hits (.ofText content) = .ok [{ hit with line := hit.line + 0 }] := by
      rw [check]
      exact congrArg (Except.map _) (found _ _)
    rw [if_pos (Nat.lt_of_not_le within), inspect, hits, ← id, line]
    rfl

theorem exists_giant_applicable (framework : String) :
    ∃ giant ∈ Catalog.builtin.applicable framework, giant.id = "perf-giant-component" ∧
      giant.check = .predicate .file Rule.findGiant := by
  obtain ⟨giant, member, id, everywhere, check⟩ : ∃ giant ∈ Rule.performance,
      giant.id = "perf-giant-component" ∧ giant.frameworks = none ∧
        giant.check = .predicate .file Rule.findGiant :=
    ⟨_, List.mem_cons_self, rfl, rfl, rfl⟩
  refine ⟨giant, List.mem_filter.mpr ⟨?_, ?_⟩, id, check⟩
  · simp [Catalog.builtin, Rule.builtin, member]
  · rw [Rule.appliesTo, everywhere]

/-- The rule on the number of lines stands once among the rules for a framework. -/
theorem exists_split_at_giant (framework : String) :
    ∃ front giant back, Catalog.builtin.applicable framework = front ++ giant :: back ∧
      giant.id = "perf-giant-component" ∧ giant.check = .predicate .file Rule.findGiant ∧
      ∀ rule ∈ front ++ back, rule ∈ Rule.builtin ∧ rule.id ≠ "perf-giant-component" := by
  obtain ⟨giant, applies, id, check⟩ := exists_giant_applicable framework
  obtain ⟨front, back, split⟩ := List.append_of_mem applies
  refine ⟨front, giant, back, split, id, check, ?_⟩
  have distinct := Catalog.builtin.nodup_ids_applicable framework
  rw [split, List.map_append, List.map_cons, List.nodup_middle, List.nodup_cons,
    ← List.map_append] at distinct
  intro rule member
  constructor
  · have applicable : rule ∈ Catalog.builtin.applicable framework := by
      rw [split]
      exact ((List.sublist_cons_self giant back).append_left front).subset member
    exact (List.mem_filter.mp applicable).1
  · intro same
    exact distinct.1 (id.trans same.symm ▸ List.mem_map_of_mem member)

theorem inspectText_append_cons (front back : List Rule) (rule : Rule) (file : String)
    (content : List Char) :
    (inspectText (front ++ rule :: back) file content).value =
      (inspectText front file content).value ++ (rule.inspect file (.ofText content)).value ++
        (inspectText back file content).value := by
  show (front ++ rule :: back).flatMap _ = front.flatMap _ ++ _ ++ back.flatMap _
  rw [List.flatMap_append, List.flatMap_cons, List.append_assoc]

/-- A newline behind a file changes where the rules point if and only if the file has as many lines
as a component may have. No rule but that on the number of lines finds anything else than before. -/
theorem inspectText_concat_newline (framework file : String) (content : List Char) :
    let found := fun text => (inspectText (Catalog.builtin.applicable framework) file text).value
    let longer := content ++ ['\n']
    ((found longer).map Finding.place = (found content).map Finding.place ↔
      (Text.lines content).length ≠ Rule.componentLineLimit) ∧
    ∃ before after : List Finding, ∀ text ∈ [content, longer], ∃ giant : List Finding,
      found text = before ++ giant ++ after ∧ giant.map Finding.place = giantPlaces text := by
  intro found longer
  obtain ⟨front, giant, back, split, id, check, others⟩ := exists_split_at_giant framework
  have parts : ∀ text ∈ [content, longer], found text = (inspectText front file content).value ++
      (giant.inspect file (.ofText text)).value ++ (inspectText back file content).value := by
    intro text either
    show (inspectText _ file text).value = _
    rw [split, inspectText_append_cons]
    rcases List.mem_pair.mp either with rfl | rfl
    · rfl
    · have inFront := fun rule member => others rule (List.mem_append_left back member)
      have inBack := fun rule member => others rule (List.mem_append_right front member)
      rw [inspectText_concat_newline_of_others inFront,
        inspectText_concat_newline_of_others inBack]
  have places := Rule.places_of_giant id check file
  constructor
  · rw [parts content (by simp), parts longer (by simp)]
    simp only [List.map_append, places, List.append_left_inj, List.append_right_inj]
    exact giantPlaces_concat_newline_eq_iff content
  · refine ⟨(inspectText front file content).value, (inspectText back file content).value, ?_⟩
    intro text either
    exact ⟨_, parts text either, places text⟩

-- The newline behind the last of so many lines opens one more.
theorem not_forall_same_places_concat_newline :
    ¬∀ (framework : String) (content : List Char), content.getLast? ≠ some '\n' →
      let found := fun text =>
        (inspectText (Catalog.builtin.applicable framework) "App.vue" text).value
      (found (content ++ ['\n'])).map Finding.place = (found content).map Finding.place := by
  intro same
  let content := List.replicate 299 '\n' ++ ['x']
  have before : (inspectText (Catalog.builtin.applicable "vite") "App.vue" content).value.map
      Finding.place = [] := by
    decide +kernel
  have after : (inspectText (Catalog.builtin.applicable "vite") "App.vue"
      (content ++ ['\n'])).value.map Finding.place = [("perf-giant-component", 1)] := by
    decide +kernel
  have none := (after.symm.trans (same "vite" content (by decide))).trans before
  cases none

end Checkup
