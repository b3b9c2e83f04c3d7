import Checkup.Proofs.Pattern.Spans
import Checkup.Proofs.Text.Runs
import Checkup.Proofs.Text.Sorted
import Checkup.Script.Binding
import Mathlib.Data.List.Infix

/-!
# Names that a script binds

A name is bound where a declarator, blanks, the name, an equals sign and a call of the wanted kind
follow each other. The scan for bindings takes from each line the first of them
(`boundName?_eq_some_iff`), so that it finds every bound name of a script in which no line binds two
(`mem_names_iff`). The second name of a line is missed (`not_mem_names_of_second`).
-/

namespace Checkup.Script

open Pattern

/-- What a name may be bound to. -/
inductive Bound where
  | reactive
  | ref
  | store

namespace Bound

/-- The shape of the calls of a kind. -/
def shape : Bound → Pattern
  | reactive => reactiveCall
  | ref => refCall
  | store => storeCall

/-- The names that the scan finds. -/
def names : Bound → List (List Char) → List String
  | reactive => reactiveNames
  | ref => refNames
  | store => storeNames

/-- The text is what calls of the kind begin with. -/
def Opens : Bound → List Char → Prop
  | reactive, text => text = "reactive(".toList
  | ref, text => ∃ gap bracket, text = "ref".toList ++ gap ++ [bracket] ∧
      (∀ c ∈ gap, Text.isBlank c = true) ∧ (bracket = '<' ∨ bracket = '(')
  | store, text => ∃ middle gap,
      text = "use".toList ++ middle ++ "Store".toList ++ gap ++ "()".toList ∧
        middle ≠ [] ∧ (∀ c ∈ middle, Text.isWord c = true) ∧ ∀ c ∈ gap, Text.isBlank c = true

/-- The text begins with a declaration that binds `name` to a call of the kind. -/
def BindsHere (kind : Bound) (name : String) (text : List Char) : Prop :=
  Text.IsIdentifier name ∧ ∃ keyword ∈ ["const", "let", "var"], ∃ space gap indent opening rest,
    text = keyword.toList ++ space ++ name.toList ++ gap ++ '=' :: indent ++ opening ++ rest ∧
      space ≠ [] ∧ (∀ c ∈ space, Text.isBlank c = true) ∧ (∀ c ∈ gap, Text.isBlank c = true) ∧
      (∀ c ∈ indent, Text.isBlank c = true) ∧ kind.Opens opening

/-- The line binds `name` to a call of the kind. -/
def Binds (kind : Bound) (name : String) (line : List Char) : Prop :=
  ∃ before text, line = before ++ text ∧ kind.BindsHere name text

/-- The line binds `name` to a call of the kind, and no name further left. -/
def BindsFirst (kind : Bound) (name : String) (line : List Char) : Prop :=
  ∃ before text, line = before ++ text ∧ kind.BindsHere name text ∧
    ∀ other front back, line = front ++ back → kind.BindsHere other back →
      before.length ≤ front.length

/-- The line binds no two names to calls of the kind. -/
def BindsOne (kind : Bound) (line : List Char) : Prop :=
  ∀ a b, kind.Binds a line → kind.Binds b line → a = b

variable {kind : Bound} {name : String} {text line : List Char}

/-! ### A declaration at the start of a text -/

theorem spans_shape_iff (kind : Bound) {left piece right : List Char} :
    kind.shape.Spans left piece right ↔ kind.Opens piece := by
  cases kind with
  | reactive => exact spans_lit
  | ref =>
    have bracketed : ∀ c, c ∈ "<(".toList ↔ c = '<' ∨ c = '(' := by simp
    simp only [shape, refCall, Opens, spans_append (q := oneOf "<("), spans_append_blanks, spans_lit,
      spans_oneOf, bracketed]
    constructor
    · intro spans
      obtain ⟨_, _, rfl, ⟨_, gap, rfl, rfl, blank⟩, bracket, rfl, opens⟩ := spans
      exact ⟨gap, bracket, rfl, blank, opens⟩
    · intro opens
      obtain ⟨gap, bracket, rfl, blank, opens⟩ := opens
      exact ⟨_, _, rfl, ⟨_, gap, rfl, rfl, blank⟩, bracket, rfl, opens⟩
  | store =>
    simp only [shape, storeCall, Opens, spans_append_lit, spans_append_blanks,
      spans_append (q := word), spans_word, spans_lit]
    constructor
    · intro spans
      obtain ⟨_, rfl, _, gap, rfl, ⟨_, rfl, _, middle, rfl, rfl, nonempty, accepted⟩, blank⟩ := spans
      exact ⟨middle, gap, rfl, nonempty, accepted, blank⟩
    · intro opens
      obtain ⟨middle, gap, rfl, nonempty, accepted, blank⟩ := opens
      exact ⟨_, rfl, _, gap, rfl, ⟨_, rfl, _, middle, rfl, rfl, nonempty, accepted⟩, blank⟩

theorem matchesAt_initialised_iff {left : List Char} :
    (initialised kind.shape).matchesAt ⟨left.getLast?, text⟩ = true ↔ ∃ gap indent opening rest,
      text = gap ++ '=' :: indent ++ opening ++ rest ∧ (∀ c ∈ gap, Text.isBlank c = true) ∧
        (∀ c ∈ indent, Text.isBlank c = true) ∧ kind.Opens opening := by
  have sign : "=".toList = ['='] := rfl
  rw [matchesAt_iff]
  simp only [initialised, spans_append (q := kind.shape), spans_append_blanks, spans_append_lit,
    spans_blanks, spans_shape_iff, sign]
  constructor
  · intro matched
    obtain ⟨_, rest, rfl, _, opening, rfl, ⟨_, indent, rfl, ⟨gap, rfl, between⟩, after⟩, opens⟩ :=
      matched
    exact ⟨gap, indent, opening, rest, by simp, between, after, opens⟩
  · intro declared
    obtain ⟨gap, indent, opening, rest, rfl, between, after, opens⟩ := declared
    exact ⟨_, rest, by simp, _, opening, rfl, ⟨_, indent, rfl, ⟨gap, rfl, between⟩, after⟩, opens⟩

theorem findSome?_declarators {rest : List Char} :
    (declarators.findSome? fun keyword => Text.after? keyword.toList text) = some rest ↔
      ∃ keyword ∈ ["const", "let", "var"], text = keyword.toList ++ rest := by
  constructor
  · intro found
    obtain ⟨keyword, listed, taken⟩ := List.exists_of_findSome?_eq_some found
    exact ⟨keyword, listed, Text.after?_eq_some_iff.mp taken⟩
  · intro declared
    obtain ⟨keyword, listed, rfl⟩ := declared
    simp only [List.mem_cons, List.not_mem_nil, or_false] at listed
    rcases listed with rfl | rfl | rfl <;> simp [declarators, Text.after?]

theorem nameHere?_eq_some_iff :
    nameHere? kind.shape text = some name ↔ kind.BindsHere name text := by
  rw [nameHere?, Option.bind_eq_bind, Option.bind_eq_some_iff]
  simp only [findSome?_declarators, Option.ite_none_right_eq_some, Option.some.injEq,
    Bool.and_eq_true, Bool.not_eq_true', List.isEmpty_eq_false_iff, matchesAt_initialised_iff]
  constructor
  · intro found
    obtain ⟨behind, ⟨keyword, listed, rfl⟩, ⟨⟨spaced, named⟩, gap, indent, opening, rest, value,
      opens⟩, rfl⟩ := found
    obtain ⟨whole, blank, -⟩ := Text.longestRun_takeWhile Text.isBlank behind
    obtain ⟨parts, word, -⟩ := Text.longestRun_takeWhile Text.isWord (behind.dropWhile Text.isBlank)
    refine ⟨⟨by simpa using named, by simpa using word⟩, keyword, listed,
      behind.takeWhile Text.isBlank, gap, indent, opening, rest, ?_, spaced, blank, opens⟩
    rw [value] at parts
    rw [parts] at whole
    simpa using whole
  · intro binds
    obtain ⟨identifier, keyword, listed, space, gap, indent, opening, rest, rfl, spaced, blank,
      between, after, opens⟩ := binds
    -- The blanks and the name are longest runs, so that the scan cuts the text here.
    have outer := identifier.longestRun_before blank (gap ++ '=' :: (indent ++ opening ++ rest))
    have inner := identifier.longestRun between '=' (by decide) (indent ++ opening ++ rest)
    refine ⟨space ++ (name.toList ++ (gap ++ '=' :: (indent ++ opening ++ rest))),
      ⟨keyword, listed, by simp⟩, ?_⟩
    rw [outer.takeWhile_eq, outer.dropWhile_eq, inner.takeWhile_eq, inner.dropWhile_eq]
    exact ⟨⟨⟨spaced, identifier.nonempty⟩, gap, indent, opening, rest, by simp, between, after,
      opens⟩, String.ofList_toList⟩

/-! ### The first declaration of a line -/

theorem not_bindsHere_nil : ¬ kind.BindsHere name [] := by
  intro binds
  have found := nameHere?_eq_some_iff.mpr binds
  cases found

theorem binds_cons_iff {c : Char} : kind.Binds name (c :: line) ↔
    kind.BindsHere name (c :: line) ∨ kind.Binds name line := by
  constructor
  · intro binds
    obtain ⟨before, text, whole, binds⟩ := binds
    rcases List.cons_eq_append_iff.mp whole with ⟨rfl, rfl⟩ | ⟨before, rfl, rfl⟩
    · exact Or.inl binds
    · exact Or.inr ⟨before, text, rfl, binds⟩
  · intro binds
    rcases binds with here | ⟨before, text, rfl, binds⟩
    · exact ⟨[], c :: line, rfl, here⟩
    · exact ⟨c :: before, text, rfl, binds⟩

theorem bindsFirst_cons_iff {c : Char} : kind.BindsFirst name (c :: line) ↔
    kind.BindsHere name (c :: line) ∨
      (∀ other, ¬ kind.BindsHere other (c :: line)) ∧ kind.BindsFirst name line := by
  constructor
  · intro first
    obtain ⟨before, text, whole, binds, least⟩ := first
    rcases List.cons_eq_append_iff.mp whole with ⟨rfl, rfl⟩ | ⟨before, rfl, rfl⟩
    · exact Or.inl binds
    · refine Or.inr ⟨?_, before, text, rfl, binds, ?_⟩
      · intro other here
        simpa using least other [] _ rfl here
      · intro other front back whole binds'
        simpa using least other (c :: front) back (by rw [whole]; rfl) binds'
  · intro first
    rcases first with here | ⟨nothing, before, text, rfl, binds, least⟩
    · exact ⟨[], c :: line, rfl, here, fun _ _ _ _ _ => Nat.zero_le _⟩
    · refine ⟨c :: before, text, rfl, binds, ?_⟩
      intro other front back whole binds'
      rcases List.cons_eq_append_iff.mp whole with ⟨rfl, rfl⟩ | ⟨front, rfl, rest⟩
      · exact absurd binds' (nothing other)
      · simpa using least other front back rest binds'

theorem boundName?_eq_some_iff :
    boundName? kind.shape line = some name ↔ kind.BindsFirst name line := by
  induction line with
  | nil =>
    constructor
    · intro found
      cases found
    · intro first
      obtain ⟨before, text, whole, binds, -⟩ := first
      obtain ⟨-, rfl⟩ := List.nil_eq_append_iff.mp whole
      exact absurd binds not_bindsHere_nil
  | cons c line ih =>
    have nothing : nameHere? kind.shape (c :: line) = none ↔
        ∀ other, ¬ kind.BindsHere other (c :: line) := by
      simp only [Option.eq_none_iff_forall_ne_some, ne_eq, nameHere?_eq_some_iff]
    rw [boundName?, Option.or_eq_some_iff, nameHere?_eq_some_iff, nothing, ih, bindsFirst_cons_iff]

theorem BindsFirst.binds (first : kind.BindsFirst name line) : kind.Binds name line := by
  obtain ⟨before, text, whole, binds, -⟩ := first
  exact ⟨before, text, whole, binds⟩

theorem Binds.exists_first (binds : kind.Binds name line) :
    ∃ first, kind.BindsFirst first line := by
  induction line with
  | nil =>
    obtain ⟨before, text, whole, binds⟩ := binds
    obtain ⟨-, rfl⟩ := List.nil_eq_append_iff.mp whole
    exact absurd binds not_bindsHere_nil
  | cons c line ih =>
    by_cases here : ∃ other, kind.BindsHere other (c :: line)
    · obtain ⟨other, here⟩ := here
      exact ⟨other, bindsFirst_cons_iff.mpr (Or.inl here)⟩
    · obtain ⟨first, isFirst⟩ := ih ((binds_cons_iff.mp binds).resolve_left (not_exists.mp here name))
      exact ⟨first, bindsFirst_cons_iff.mpr (Or.inr ⟨not_exists.mp here, isFirst⟩)⟩

/-! ### The scan -/

theorem mem_names {lines : List (List Char)} :
    name ∈ kind.names lines ↔ ∃ line ∈ lines, kind.BindsFirst name line := by
  have scan : kind.names lines = boundNames kind.shape lines := by cases kind <;> rfl
  rw [scan, boundNames, Text.mem_sortedDistinct, List.mem_filterMap]
  simp only [boundName?_eq_some_iff]

theorem isIdentifier_of_mem_names (kind : Bound) {lines : List (List Char)} (found : name ∈ kind.names lines) :
    Text.IsIdentifier name := by
  obtain ⟨line, -, first⟩ := mem_names.mp found
  obtain ⟨before, text, -, binds⟩ := first.binds
  exact binds.1

/-- The scan finds the name that each line binds first. That is all names, if no line binds two;
and on a line that binds two it misses one. -/
theorem mem_names_iff (kind : Bound) (lines : List (List Char)) :
    (∀ name, name ∈ kind.names lines ↔ ∃ line ∈ lines, kind.BindsFirst name line) ∧
    ((∀ line ∈ lines, kind.BindsOne line) →
      ∀ name, name ∈ kind.names lines ↔ ∃ line ∈ lines, kind.Binds name line) ∧
    ∀ line, (∀ name, name ∈ kind.names [line] ↔ kind.Binds name line) → kind.BindsOne line := by
  refine ⟨fun name => mem_names, ?_, ?_⟩
  · intro single name
    rw [mem_names]
    constructor
    · intro found
      obtain ⟨line, listed, first⟩ := found
      exact ⟨line, listed, first.binds⟩
    · intro found
      obtain ⟨line, listed, binds⟩ := found
      obtain ⟨first, isFirst⟩ := binds.exists_first
      obtain rfl : first = name := single line listed first name isFirst.binds binds
      exact ⟨line, listed, isFirst⟩
  · intro line complete a b bindsA bindsB
    have first : ∀ name, kind.Binds name line → kind.BindsFirst name line := by
      intro name binds
      obtain ⟨line', listed, isFirst⟩ := mem_names.mp ((complete name).mpr binds)
      rwa [List.mem_singleton.mp listed] at isFirst
    have foundA := boundName?_eq_some_iff.mpr (first a bindsA)
    rw [boundName?_eq_some_iff.mpr (first b bindsB)] at foundA
    exact (Option.some.inj foundA).symm

theorem bindsOne_of_tails (name : String)
    (single : ∀ text ∈ line.tails, (nameHere? kind.shape text).all (· == name) = true) :
    kind.BindsOne line := by
  have only : ∀ other, kind.Binds other line → other = name := by
    intro other binds
    obtain ⟨before, text, whole, binds⟩ := binds
    have tail : text ∈ line.tails := (List.mem_tails _ _).mpr ⟨before, whole.symm⟩
    simpa [nameHere?_eq_some_iff.mpr binds] using single text tail
  intro a b bindsA bindsB
  rw [only a bindsA, only b bindsB]

theorem mem_names_of_one_each :
    let lines := ["const state = reactive(a)".toList, "  var total=reactive(b)".toList]
    (∀ line ∈ lines, reactive.BindsOne line) ∧ "total" ∈ reactive.names lines := by
  intro lines
  have single : ∀ line ∈ lines, reactive.BindsOne line := by
    apply List.forall_mem_cons.mpr ⟨bindsOne_of_tails "state" ?_, ?_⟩
    · decide +kernel
    · apply List.forall_mem_cons.mpr ⟨bindsOne_of_tails "total" ?_, ?_⟩
      · decide +kernel
      · simp
  refine ⟨single, ((mem_names_iff reactive lines).2.1 single "total").mpr ?_⟩
  refine ⟨"  var total=reactive(b)".toList, by simp [lines], [' ', ' '], _, rfl, by decide, "var",
    by decide, [' '], [], [], "reactive(".toList, "b)".toList, rfl, by decide, ?_, ?_, ?_, rfl⟩
  all_goals simp [Text.isBlank]

/-- The second name that a line binds is missed. -/
theorem not_mem_names_of_second :
    let line := "const a = reactive(x); const b = reactive(y)".toList
    reactive.Binds "b" line ∧ "b" ∉ reactive.names [line] := by
  intro line
  constructor
  · refine ⟨"const a = reactive(x); ".toList, _, rfl, by decide, "const", by decide, [' '], [' '],
      [' '], "reactive(".toList, "y)".toList, rfl, by decide, ?_, ?_, ?_, rfl⟩
    all_goals simp [Text.isBlank]
  · intro found
    obtain ⟨line', listed, first⟩ := mem_names.mp found
    rw [List.mem_singleton.mp listed, ← boundName?_eq_some_iff] at first
    exact absurd first (by decide +kernel)

end Bound

end Checkup.Script
