import Checkup.Proofs.Text.CodePoints
import Checkup.Rule.Catalog

/-!
# Selecting rules by id

For known ids a selection has rules for the wanted ids that are not disabled, in their order, and no
two of one id (`select_of_known`). So to disable ids is to drop their rules from the selection that
disables none (`exists_select_disable`). Ids that are not known are refused together
(`select_of_unknown`), and nothing else is (`select_outcome`).
-/

namespace Checkup

namespace Catalog

/-- The ids of the built-in rules. -/
def knownIds : List CodeText := builtin.ids.map CodeText.ofString

/-- The ids that are asked for, each once: all that there are if none are named. -/
def wantedIds : Option (List CodeText) → List CodeText
  | none => knownIds
  | some enabled => enabled.eraseDups

theorem nodup_knownIds : knownIds.Nodup :=
  builtin.distinct.map fun _ _ => CodeText.ofString_inj.mp

theorem nodup_wantedIds (enable : Option (List CodeText)) : (wantedIds enable).Nodup := by
  cases enable with
  | none => exact nodup_knownIds
  | some enabled => exact nodup_eraseDups enabled

theorem nodup_ids_applicable (catalog : Catalog) (framework : String) :
    ((catalog.applicable framework).map Rule.id).Nodup :=
  catalog.distinct.sublist (List.filter_sublist.map Rule.id)

theorem id_of_get? {catalog : Catalog} {id : CodeText} {rule : Rule}
    (found : catalog.get? id = some rule) : CodeText.ofString rule.id = id := by
  have same := List.find?_some found
  exact eq_of_beq same

theorem mem_of_get? {catalog : Catalog} {id : CodeText} {rule : Rule}
    (found : catalog.get? id = some rule) : rule ∈ catalog.rules :=
  List.mem_of_find?_eq_some found

theorem nodup_ids_of_get? {ids : List CodeText} (distinct : ids.Nodup) (catalog : Catalog) :
    ((ids.filterMap catalog.get?).map Rule.id).Nodup := by
  rw [List.map_filterMap]
  refine distinct.filterMap ?_
  intro a b ruleId left right
  obtain ⟨rule, foundA, rfl⟩ := Option.map_eq_some_iff.mp left
  obtain ⟨other, foundB, same⟩ := Option.map_eq_some_iff.mp right
  rw [← id_of_get? foundA, ← id_of_get? foundB, same]

theorem filterMap_get?_filter (catalog : Catalog) (ids : List CodeText) (keep : CodeText → Bool) :
    (ids.filter keep).filterMap catalog.get? =
      (ids.filterMap catalog.get?).filter fun rule => keep (CodeText.ofString rule.id) := by
  rw [List.filterMap_filter, List.filter_filterMap]
  refine List.filterMap_congr ?_
  intro id _
  cases found : catalog.get? id with
  | none => exact ite_self none
  | some rule => rw [Option.filter_some, id_of_get? found]

/-- The ids that are listed and not known, as often as they are listed. -/
def unknownIds (enable disable : Option (List CodeText)) : List CodeText :=
  (enable.getD [] ++ disable.getD []).filter fun id => !knownIds.contains id

/-- The ids that are asked for and not disabled. -/
def chosenIds (enable disable : Option (List CodeText)) : List CodeText :=
  (wantedIds enable).filter fun id => !(disable.getD []).contains id

section

variable {enable disable : Option (List CodeText)}

theorem select_eq : select enable disable =
    if (unknownIds enable disable).isEmpty then
      ofRules ((chosenIds enable disable).filterMap builtin.get?)
    else .error (.unknownRules (CodeText.sortedDistinct (unknownIds enable disable))) := by
  cases enable <;> rfl

theorem mem_unknownIds {id : CodeText} : id ∈ unknownIds enable disable ↔
    id ∈ enable.getD [] ++ disable.getD [] ∧ id ∉ knownIds := by
  rw [unknownIds, List.mem_filter]
  simp

theorem mem_wantedIds {id : CodeText} : id ∈ wantedIds enable ↔ id ∈ enable.getD knownIds := by
  cases enable with
  | none => exact Iff.rfl
  | some enabled => exact List.mem_eraseDups

theorem mem_chosenIds {id : CodeText} : id ∈ chosenIds enable disable ↔
    id ∈ enable.getD knownIds ∧ id ∉ disable.getD [] := by
  rw [chosenIds, List.mem_filter, mem_wantedIds]
  simp

theorem nodup_chosenIds (enable disable : Option (List CodeText)) :
    (chosenIds enable disable).Nodup :=
  (nodup_wantedIds enable).filter _

theorem pairwise_idxOf_wantedIds (enable : Option (List CodeText)) : (wantedIds enable).Pairwise
    fun a b => (enable.getD knownIds).idxOf a < (enable.getD knownIds).idxOf b := by
  cases enable with
  | none => exact pairwise_idxOf_of_nodup nodup_knownIds
  | some enabled => exact pairwise_idxOf_eraseDups enabled

theorem select_of_known (known : ∀ id ∈ enable.getD [] ++ disable.getD [], id ∈ knownIds) :
    ∃ catalog, select enable disable = .ok catalog ∧
      catalog.rules = (chosenIds enable disable).filterMap builtin.get? := by
  have allKnown : unknownIds enable disable = [] := by
    refine List.filter_eq_nil_iff.mpr ?_
    intro id listed
    simpa using known id listed
  have distinct := nodup_ids_of_get? (nodup_chosenIds enable disable) builtin
  refine ⟨⟨_, distinct⟩, ?_, rfl⟩
  rw [select_eq, allKnown, List.isEmpty_nil, if_pos rfl]
  exact dif_pos distinct

theorem select_of_unknown (unknown : ∃ id ∈ enable.getD [] ++ disable.getD [], id ∉ knownIds) :
    select enable disable =
      .error (.unknownRules (CodeText.sortedDistinct (unknownIds enable disable))) := by
  obtain ⟨id, listed⟩ := unknown
  have some_ := List.ne_nil_of_mem (mem_unknownIds.mpr listed)
  rw [select_eq, if_neg (by simpa using some_)]

end

theorem exists_select_disable {enable : Option (List CodeText)} {disable : List CodeText}
    (known : ∀ id ∈ enable.getD [] ++ disable, id ∈ knownIds) :
    ∃ few all, select enable (some disable) = .ok few ∧ select enable (some []) = .ok all ∧
      (∀ rule ∈ all.rules, rule ∈ builtin.rules) ∧
      few.rules = all.rules.filter fun rule => !disable.contains (CodeText.ofString rule.id) := by
  have enabled : ∀ id ∈ enable.getD [] ++ [], id ∈ knownIds := by
    intro id listed
    rw [List.append_nil] at listed
    exact known id (List.mem_append_left _ listed)
  obtain ⟨few, selected, fewRules⟩ := @select_of_known enable (some disable) known
  obtain ⟨all, selectedAll, allRules⟩ := @select_of_known enable (some []) enabled
  refine ⟨few, all, selected, selectedAll, ?_, ?_⟩
  · intro rule member
    rw [allRules] at member
    obtain ⟨id, _, found⟩ := List.mem_filterMap.mp member
    exact mem_of_get? found
  · rw [fewRules, allRules, chosenIds, chosenIds, filterMap_get?_filter, filterMap_get?_filter]
    simp

/-! ### What a selection has -/

theorem get?_eq_some_iff {catalog : Catalog} {id : CodeText} {rule : Rule} :
    catalog.get? id = some rule ↔ rule ∈ catalog.rules ∧ CodeText.ofString rule.id = id := by
  constructor
  · intro found
    exact ⟨mem_of_get? found, id_of_get? found⟩
  · rintro ⟨member, rfl⟩
    have some_ : (catalog.get? (CodeText.ofString rule.id)).isSome :=
      List.find?_isSome.mpr ⟨rule, member, beq_self_eq_true _⟩
    obtain ⟨found, isFound⟩ := Option.isSome_iff_exists.mp some_
    have sameId : found.id = rule.id := CodeText.ofString_inj.mp (id_of_get? isFound)
    have same := List.inj_on_of_nodup_map catalog.distinct (mem_of_get? isFound) member sameId
    rw [isFound, same]

theorem exists_get?_of_known {id : CodeText} (known : id ∈ knownIds) :
    ∃ rule, builtin.get? id = some rule := by
  obtain ⟨name, listed, rfl⟩ := List.mem_map.mp known
  obtain ⟨rule, member, rfl⟩ := List.mem_map.mp listed
  exact ⟨rule, get?_eq_some_iff.mpr ⟨member, rfl⟩⟩

theorem ids_filterMap_get? {ids : List CodeText} (known : ∀ id ∈ ids, id ∈ knownIds) :
    (ids.filterMap builtin.get?).map (fun rule => CodeText.ofString rule.id) = ids := by
  rw [List.map_filterMap]
  refine (List.filterMap_congr ?_).trans List.filterMap_some
  intro id listed
  obtain ⟨rule, found⟩ := exists_get?_of_known (known id listed)
  rw [found, Option.map_some, id_of_get? found]

theorem known_of_mem_chosenIds {enable disable : Option (List CodeText)}
    (known : ∀ id ∈ enable.getD [] ++ disable.getD [], id ∈ knownIds) {id : CodeText}
    (chosen : id ∈ chosenIds enable disable) : id ∈ knownIds := by
  have asked := (mem_chosenIds.mp chosen).1
  cases enable with
  | none => exact asked
  | some enabled => exact known id (List.mem_append_left _ asked)

theorem get?_eq_some_iff_of_chosen {catalog : Catalog} {ids : List CodeText}
    (rules : catalog.rules = ids.filterMap builtin.get?) {id : CodeText} {rule : Rule} :
    catalog.get? id = some rule ↔
      rule ∈ Rule.builtin ∧ CodeText.ofString rule.id = id ∧ id ∈ ids := by
  rw [get?_eq_some_iff, rules, List.mem_filterMap]
  constructor
  · rintro ⟨⟨other, chosen, found⟩, rfl⟩
    rw [← id_of_get? found] at chosen
    exact ⟨mem_of_get? found, rfl, chosen⟩
  · rintro ⟨member, rfl, chosen⟩
    exact ⟨⟨_, chosen, get?_eq_some_iff.mpr ⟨member, rfl⟩⟩, rfl⟩

/-- For known ids there is a selection. Its ids are those that are asked for and not disabled, in
the order in which they are first asked for, and it has the built-in rule for each. Ids that are not
known are refused, and each of them is named once, in the order of texts. -/
theorem select_outcome (enable disable : Option (List CodeText)) :
    let listed := enable.getD [] ++ disable.getD []
    let wanted := enable.getD knownIds
    ((∀ id ∈ listed, id ∈ knownIds) →
      ∃ catalog, select enable disable = .ok catalog ∧ catalog.ids.Nodup ∧
        let ids := catalog.ids.map CodeText.ofString
        ids.Pairwise (fun a b => wanted.idxOf a < wanted.idxOf b) ∧
          (∀ id, id ∈ ids ↔ id ∈ wanted ∧ id ∉ disable.getD []) ∧
          ∀ id rule, catalog.get? id = some rule ↔
            rule ∈ Rule.builtin ∧ CodeText.ofString rule.id = id ∧ id ∈ ids) ∧
      ((∃ id ∈ listed, id ∉ knownIds) →
        ∃ ids, select enable disable = .error (.unknownRules ids) ∧
          (Fault.unknownRules ids).message =
            CodeText.ofString "Unknown rule ids: " ++ .intercalate ", " ids ∧
          ids.Pairwise (fun a b => a.numbers < b.numbers) ∧
          ∀ id, id ∈ ids ↔ id ∈ listed ∧ id ∉ knownIds) := by
  intro listed wanted
  refine ⟨?_, ?_⟩
  · intro known
    obtain ⟨catalog, selected, rules⟩ := select_of_known known
    have ids : catalog.ids.map CodeText.ofString = chosenIds enable disable := by
      rw [Catalog.ids, rules, List.map_map]
      exact ids_filterMap_get? fun id => known_of_mem_chosenIds known
    refine ⟨catalog, selected, catalog.distinct, ?_⟩
    rw [ids]
    exact ⟨(pairwise_idxOf_wantedIds enable).filter _, fun id => mem_chosenIds,
      fun id rule => get?_eq_some_iff_of_chosen rules⟩
  · intro unknown
    refine ⟨_, select_of_unknown unknown, rfl, CodeText.pairwise_sortedDistinct _, ?_⟩
    intro id
    rw [CodeText.mem_sortedDistinct, mem_unknownIds]

/-- One rule is enabled twice, another one disabled. Of the ids that are not known one is listed
twice. -/
theorem select_outcome_of_repeated :
    let giant := CodeText.ofString "perf-giant-component"
    let refs := CodeText.ofString "reactivity-ref-no-value"
    let misspelt := CodeText.ofString "perf-giant"
    let made := CodeText.ofString "no-eval"
    (∀ id ∈ [refs, giant, refs] ++ [giant], id ∈ knownIds) ∧
      (∃ catalog, select (some [refs, giant, refs]) (some [giant]) = .ok catalog ∧
        ∀ id, id ∈ catalog.ids.map CodeText.ofString ↔ id ∈ [refs, giant, refs] ∧ id ∉ [giant]) ∧
      (∃ id ∈ [misspelt, giant] ++ [made, misspelt], id ∉ knownIds) ∧
      ∃ ids, select (some [misspelt, giant]) (some [made, misspelt]) = .error (.unknownRules ids) ∧
        ids.Pairwise (fun a b => a.numbers < b.numbers) ∧
        ∀ id, id ∈ ids ↔ id ∈ [misspelt, giant] ++ [made, misspelt] ∧ id ∉ knownIds := by
  intro giant refs misspelt made
  have known : ∀ id ∈ [refs, giant, refs] ++ [giant], id ∈ knownIds := by decide +kernel
  have unknown : ∃ id ∈ [misspelt, giant] ++ [made, misspelt], id ∉ knownIds := by decide +kernel
  obtain ⟨catalog, selected, -, -, chosen, -⟩ :=
    (select_outcome (some [refs, giant, refs]) (some [giant])).1 known
  obtain ⟨ids, refused, -, sorted, named⟩ :=
    (select_outcome (some [misspelt, giant]) (some [made, misspelt])).2 unknown
  exact ⟨known, ⟨catalog, selected, chosen⟩, unknown, ids, refused, sorted, named⟩

end Catalog

end Checkup
