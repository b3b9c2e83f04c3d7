import Checkup.Pattern

/-!
# What a pattern stands for

`Spans` says when a piece of a text has the shape of a pattern, by what stands on either side of it
and without a search. `matchesThen_iff` shows that the search tries exactly these pieces, whatever
is to hold where a piece ends. So a pattern occurs in a text where the text has such a piece
(`occursIn_iff`), and covers it if the text is one (`covers_iff`).
-/

namespace Checkup.Pattern

/-- A word begins or ends between two texts. -/
def IsBorder (left right : List Char) : Prop :=
  left.getLast?.any Text.isWord ≠ right.head?.any Text.isWord

instance (left right : List Char) : Decidable (IsBorder left right) :=
  inferInstanceAs (Decidable (_ ≠ _))

/-- `piece` has the shape of the pattern where it stands between `left` and `right`. -/
def Spans : Pattern → (left piece right : List Char) → Prop
  | empty, _, piece, _ => piece = []
  | one accepts, _, piece, _ => ∃ c, piece = [c] ∧ accepts c = true
  | many accepts, _, piece, _ => ∀ c ∈ piece, accepts c = true
  | seq first second, left, piece, right => ∃ front back, piece = front ++ back ∧
      first.Spans left front (back ++ right) ∧ second.Spans (left ++ front) back right
  | alt p q, left, piece, right => p.Spans left piece right ∨ q.Spans left piece right
  | edge, left, piece, right => piece = [] ∧ IsBorder left right
  | notAhead shape, left, piece, right =>
      piece = [] ∧ ∀ ahead rest, right = ahead ++ rest → ¬ shape.Spans left ahead rest

variable {left piece right text : List Char}

/-! ### The search -/

theorem runThen_iff {accepts : Char → Bool} {next : Place → Bool} :
    runThen accepts next left.getLast? text = true ↔
      ∃ piece right, text = piece ++ right ∧ (∀ c ∈ piece, accepts c = true) ∧
        next ⟨(left ++ piece).getLast?, right⟩ = true := by
  induction text generalizing left with
  | nil =>
    rw [runThen]
    constructor
    · intro h
      exact ⟨[], [], rfl, by simp, by simpa using h⟩
    · rintro ⟨piece, right, whole, -, h⟩
      obtain ⟨rfl, rfl⟩ := List.nil_eq_append_iff.mp whole
      simpa using h
  | cons c text ih =>
    have step := @ih (left ++ [c])
    rw [List.getLast?_concat] at step
    rw [runThen, Bool.or_eq_true, Bool.and_eq_true, step]
    constructor
    · rintro (h | ⟨hc, piece, right, rfl, run, h⟩)
      · exact ⟨[], c :: text, rfl, by simp, by simpa using h⟩
      · exact ⟨c :: piece, right, rfl, by simpa [hc] using run, by simpa using h⟩
    · rintro ⟨piece, right, whole, run, h⟩
      cases piece with
      | nil =>
        obtain rfl : c :: text = right := whole
        exact Or.inl (by simpa using h)
      | cons d piece =>
        obtain ⟨rfl, rfl⟩ := List.cons.inj whole
        obtain ⟨hc, run⟩ := List.forall_mem_cons.mp run
        exact Or.inr ⟨hc, piece, right, rfl, run, by simpa using h⟩

theorem matchesThen_iff {p : Pattern} {next : Place → Bool} :
    p.matchesThen next ⟨left.getLast?, text⟩ = true ↔
      ∃ piece right, text = piece ++ right ∧ p.Spans left piece right ∧
        next ⟨(left ++ piece).getLast?, right⟩ = true := by
  induction p generalizing next left text with
  | empty =>
    rw [matchesThen]
    constructor
    · intro h
      exact ⟨[], text, rfl, rfl, by simpa using h⟩
    · rintro ⟨_, right, rfl, rfl, h⟩
      simpa using h
  | one accepts =>
    cases text with
    | nil => simp [matchesThen, Spans]
    | cons c text =>
      simp only [matchesThen, Spans, Bool.and_eq_true]
      constructor
      · rintro ⟨hc, h⟩
        exact ⟨[c], text, rfl, ⟨c, rfl, hc⟩, by simpa using h⟩
      · rintro ⟨piece, right, whole, ⟨d, rfl, hd⟩, h⟩
        obtain ⟨rfl, rfl⟩ := List.cons.inj whole
        exact ⟨hd, by simpa using h⟩
  | many accepts => exact runThen_iff
  | seq first second ihFirst ihSecond =>
    rw [matchesThen, ihFirst]
    simp only [ihSecond, Spans]
    constructor
    · rintro ⟨front, _, rfl, hf, back, right, rfl, hb, h⟩
      exact ⟨front ++ back, right, by simp, ⟨front, back, rfl, hf, hb⟩, by simpa using h⟩
    · rintro ⟨_, right, rfl, ⟨front, back, rfl, hf, hb⟩, h⟩
      exact ⟨front, back ++ right, by simp, hf, back, right, rfl, hb, by simpa using h⟩
  | alt p q ihp ihq =>
    simp only [matchesThen, Bool.or_eq_true, ihp, ihq, Spans]
    constructor
    · rintro (⟨piece, right, rfl, hp, h⟩ | ⟨piece, right, rfl, hq, h⟩)
      · exact ⟨piece, right, rfl, Or.inl hp, h⟩
      · exact ⟨piece, right, rfl, Or.inr hq, h⟩
    · rintro ⟨piece, right, rfl, hp | hq, h⟩
      · exact Or.inl ⟨piece, right, rfl, hp, h⟩
      · exact Or.inr ⟨piece, right, rfl, hq, h⟩
  | edge =>
    rw [matchesThen, Bool.and_eq_true, Place.atEdge, bne_iff_ne]
    constructor
    · rintro ⟨border, h⟩
      exact ⟨[], text, rfl, ⟨rfl, border⟩, by simpa using h⟩
    · rintro ⟨_, right, rfl, ⟨rfl, border⟩, h⟩
      exact ⟨border, by simpa using h⟩
  | notAhead shape ih =>
    -- What is ahead is matched only to be refused: the piece itself is empty.
    rw [matchesThen, Bool.and_eq_true, Bool.not_eq_true', ← Bool.not_eq_true, ih]
    constructor
    · rintro ⟨none, h⟩
      refine ⟨[], text, rfl, ⟨rfl, ?_⟩, by simpa using h⟩
      intro ahead rest whole spans
      exact none ⟨ahead, rest, whole, spans, rfl⟩
    · rintro ⟨_, right, rfl, ⟨rfl, none⟩, h⟩
      refine ⟨?_, by simpa using h⟩
      rintro ⟨ahead, rest, whole, spans, -⟩
      exact none ahead rest whole spans

theorem covers_iff {p : Pattern} : p.covers text = true ↔ p.Spans [] text [] := by
  have search := @matchesThen_iff [] text p (fun place => place.rest.isEmpty)
  rw [covers, Place.start]
  refine search.trans ⟨?_, ?_⟩
  · rintro ⟨piece, right, rfl, spans, ends⟩
    obtain rfl := List.isEmpty_iff.mp ends
    simpa using spans
  · intro spans
    exact ⟨text, [], by simp, spans, rfl⟩

theorem matchesAt_iff {p : Pattern} : p.matchesAt ⟨left.getLast?, text⟩ = true ↔
    ∃ piece right, text = piece ++ right ∧ p.Spans left piece right := by
  simp [matchesAt, matchesThen_iff]

theorem opens_iff {p : Pattern} : p.opens text = true ↔
    ∃ piece right, text = piece ++ right ∧ p.Spans [] piece right := by
  simpa [opens, Place.start] using @matchesAt_iff [] text p

theorem occursAfter_iff {p : Pattern} : p.occursAfter left.getLast? text = true ↔
    ∃ before piece right, text = before ++ piece ++ right ∧
      p.Spans (left ++ before) piece right := by
  induction text generalizing left with
  | nil =>
    rw [occursAfter, matchesAt, matchesThen_iff]
    constructor
    · rintro ⟨piece, right, whole, spans, -⟩
      exact ⟨[], piece, right, whole, by simpa using spans⟩
    · rintro ⟨before, piece, right, whole, spans⟩
      simp only [List.nil_eq, List.append_eq_nil_iff] at whole
      obtain ⟨⟨rfl, rfl⟩, rfl⟩ := whole
      exact ⟨[], [], rfl, by simpa using spans, rfl⟩
  | cons c text ih =>
    have later := @ih (left ++ [c])
    rw [List.getLast?_concat] at later
    rw [occursAfter, Bool.or_eq_true, matchesAt, matchesThen_iff, later]
    constructor
    · rintro (⟨piece, right, whole, spans, -⟩ | ⟨before, piece, right, rfl, spans⟩)
      · exact ⟨[], piece, right, whole, by simpa using spans⟩
      · exact ⟨c :: before, piece, right, rfl, by simpa using spans⟩
    · rintro ⟨before, piece, right, whole, spans⟩
      cases before with
      | nil => exact Or.inl ⟨piece, right, whole, by simpa using spans, rfl⟩
      | cons d before =>
        obtain ⟨rfl, rfl⟩ := List.cons.inj whole
        exact Or.inr ⟨before, piece, right, by simp, by simpa using spans⟩

theorem occursIn_iff {p : Pattern} : p.occursIn text = true ↔
    ∃ before piece right, text = before ++ piece ++ right ∧ p.Spans before piece right := by
  simpa [occursIn] using @occursAfter_iff [] text p

/-! ### Common shapes -/

@[simp]
theorem spans_one {accepts : Char → Bool} :
    (one accepts).Spans left piece right ↔ ∃ c, piece = [c] ∧ accepts c = true := Iff.rfl

@[simp]
theorem spans_many {accepts : Char → Bool} :
    (many accepts).Spans left piece right ↔ ∀ c ∈ piece, accepts c = true := Iff.rfl

@[simp]
theorem spans_upTo {stop : Char} : (upTo stop).Spans left piece right ↔ stop ∉ piece := by
  simp only [upTo, spans_many, bne_iff_ne]
  constructor
  · intro none inside
    exact none stop inside rfl
  · rintro absent c inside rfl
    exact absent inside

theorem spans_append {p q : Pattern} : (p ++ q).Spans left piece right ↔
    ∃ front back, piece = front ++ back ∧ p.Spans left front (back ++ right) ∧
      q.Spans (left ++ front) back right := Iff.rfl

@[simp]
theorem spans_or {p q : Pattern} : (p ||| q).Spans left piece right ↔
    p.Spans left piece right ∨ q.Spans left piece right := Iff.rfl

theorem spans_edge : edge.Spans left piece right ↔ piece = [] ∧ IsBorder left right := Iff.rfl

@[simp]
theorem spans_exactly {word : List Char} :
    (exactly word).Spans left piece right ↔ piece = word := by
  induction word generalizing left piece with
  | nil => exact Iff.rfl
  | cons c word ih =>
    have rest : exactly (c :: word) = one (· == c) ++ exactly word := rfl
    rw [rest, spans_append]
    simp only [spans_one, ih, beq_iff_eq]
    constructor
    · rintro ⟨_, _, rfl, ⟨_, rfl, rfl⟩, rfl⟩
      rfl
    · rintro rfl
      exact ⟨[c], word, rfl, ⟨c, rfl, rfl⟩, rfl⟩

@[simp]
theorem spans_lit {word : String} : (lit word).Spans left piece right ↔ piece = word.toList :=
  spans_exactly

theorem spans_append_lit {p : Pattern} {word : String} :
    (p ++ lit word).Spans left piece right ↔
      ∃ front, piece = front ++ word.toList ∧ p.Spans left front (word.toList ++ right) := by
  rw [spans_append]
  simp only [spans_lit]
  constructor
  · rintro ⟨front, _, rfl, spans, rfl⟩
    exact ⟨front, rfl, spans⟩
  · rintro ⟨front, rfl, spans⟩
    exact ⟨front, word.toList, rfl, spans, rfl⟩

theorem spans_append_many {p : Pattern} {accepts : Char → Bool} :
    (p ++ many accepts).Spans left piece right ↔ ∃ front run, piece = front ++ run ∧
      p.Spans left front (run ++ right) ∧ ∀ c ∈ run, accepts c = true := Iff.rfl

@[simp]
theorem spans_oneOf {chars : String} :
    (oneOf chars).Spans left piece right ↔ ∃ c, piece = [c] ∧ c ∈ chars.toList := by
  simp [oneOf]

@[simp]
theorem spans_blanks : blanks.Spans left piece right ↔ ∀ c ∈ piece, Text.isBlank c = true := Iff.rfl

theorem spans_append_blanks {p : Pattern} : (p ++ blanks).Spans left piece right ↔
    ∃ front gap, piece = front ++ gap ∧ p.Spans left front (gap ++ right) ∧
      ∀ c ∈ gap, Text.isBlank c = true := Iff.rfl

theorem spans_one_append_many {accepts : Char → Bool} :
    (one accepts ++ many accepts).Spans left piece right ↔
      piece ≠ [] ∧ ∀ c ∈ piece, accepts c = true := by
  rw [spans_append_many]
  simp only [spans_one]
  constructor
  · intro ⟨_, run, whole, ⟨c, single, first⟩, others⟩
    subst whole single
    simpa using ⟨first, others⟩
  · intro ⟨nonempty, accepted⟩
    obtain ⟨c, run, rfl⟩ := List.exists_cons_of_ne_nil nonempty
    obtain ⟨first, others⟩ := List.forall_mem_cons.mp accepted
    exact ⟨[c], run, rfl, ⟨c, rfl, first⟩, others⟩

@[simp]
theorem spans_word : word.Spans left piece right ↔
    piece ≠ [] ∧ ∀ c ∈ piece, Text.isWord c = true := spans_one_append_many

@[simp]
theorem spans_someBlanks : someBlanks.Spans left piece right ↔
    piece ≠ [] ∧ ∀ c ∈ piece, Text.isBlank c = true := spans_one_append_many

/-- A shape before one that takes no character takes the whole piece. -/
theorem spans_append_empty {p q : Pattern} (holds : (left right : List Char) → Prop)
    (none : ∀ left piece right, q.Spans left piece right ↔ piece = [] ∧ holds left right) :
    (p ++ q).Spans left piece right ↔ p.Spans left piece right ∧ holds (left ++ piece) right := by
  rw [spans_append]
  simp only [none]
  constructor
  · rintro ⟨front, _, rfl, spans, rfl, after⟩
    exact ⟨by simpa using spans, by simpa using after⟩
  · rintro ⟨spans, after⟩
    exact ⟨piece, [], by simp, spans, rfl, after⟩

theorem spans_append_edge {p : Pattern} : (p ++ edge).Spans left piece right ↔
    p.Spans left piece right ∧ IsBorder (left ++ piece) right :=
  spans_append_empty IsBorder fun _ _ _ => Iff.rfl

theorem spans_append_notAhead {p shape : Pattern} :
    (p ++ notAhead shape).Spans left piece right ↔ p.Spans left piece right ∧
      ∀ ahead rest, right = ahead ++ rest → ¬ shape.Spans (left ++ piece) ahead rest :=
  spans_append_empty (fun left right => ∀ ahead rest, right = ahead ++ rest →
    ¬ shape.Spans left ahead rest) fun _ _ _ => Iff.rfl

theorem spans_append_notAhead_sign {p : Pattern} {sign : String} {c : Char}
    (spelled : sign.toList = [c]) : (p ++ notAhead (lit sign)).Spans left piece right ↔
      p.Spans left piece right ∧ right.head? ≠ some c := by
  rw [spans_append_notAhead]
  apply and_congr_right
  intro _
  simp only [spans_lit, spelled]
  cases right with
  | nil => simp
  | cons d right =>
    constructor
    · intro free same
      exact free [d] right rfl (congrArg (fun e => [e]) (Option.some.inj same))
    · intro different ahead rest whole same
      subst same
      exact different (congrArg some (List.cons.inj whole).1)

end Checkup.Pattern
