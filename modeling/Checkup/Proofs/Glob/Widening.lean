import Checkup.Proofs.Glob.Cuts
import Mathlib.Data.List.Count

/-!
# Widening a star to two

Two stars reach further than one across slashes, and less far across newlines. So the files that a
glob describes stay described when one of its stars becomes two, as long as their paths are single
lines; for every other path some glob loses it (`describes_widened_iff`).
-/

namespace Checkup.Glob

/-! ### Tokens of a longer glob -/

theorem tokens_append {a b : List CodePoint}
    (apart : a.getLast? ≠ some (.char '*') ∨ b.head? ≠ some (.char '*')) :
    tokens (a ++ b) = tokens a ++ tokens b := by
  fun_induction tokens a with
  | case1 rest ih =>
    rw [List.cons_append, List.cons_append, tokens, ih, List.cons_append]
    refine apart.imp_left fun last h => last ?_
    cases rest with
    | nil => cases h
    | cons point rest => simpa using h
  | case2 rest single ih =>
    cases rest with
    | nil =>
      have next : b.head? ≠ some (.char '*') := apart.resolve_left (by simp)
      simp [tokens_star next, tokens]
    | cons point rest =>
      have next : (point :: (rest ++ b)).head? ≠ some (.char '*') := by
        rw [List.head?_cons, Ne, Option.some_inj]
        rintro rfl
        exact single rest rfl
      have inner := ih (apart.imp_left fun last => by simpa using last)
      rw [List.cons_append, List.cons_append, tokens_star next, ← List.cons_append, inner,
        List.cons_append]
  | case3 point rest _ other ih =>
    rw [List.cons_append, tokens_literal other, ih, List.cons_append]
    refine apart.imp_left fun last h => last ?_
    cases rest with
    | nil => cases h
    | cons next rest => simpa using h
  | case4 => rfl

variable {a b : List CodePoint}

theorem tokens_with_star (ends : a.getLast? ≠ some (.char '*'))
    (begins : b.head? ≠ some (.char '*')) :
    tokens (a ++ .char '*' :: b) = tokens a ++ .star :: tokens b := by
  rw [tokens_append (Or.inl ends), tokens_star begins]

theorem tokens_with_stars (ends : a.getLast? ≠ some (.char '*')) :
    tokens (a ++ .char '*' :: .char '*' :: b) = tokens a ++ .stars :: tokens b := by
  rw [tokens_append (Or.inl ends), tokens]

theorem fits_around {first second : List Token} {token : Token} {text : List Char} :
    Fits (first ++ token :: second) text ↔ ∃ before piece after,
      text = before ++ piece ++ after ∧ Fits first before ∧ token.Accepts piece ∧
        Fits second after := by
  simp only [fits_append, fits_cons]
  constructor
  · rintro ⟨before, _, rfl, hb, piece, after, rfl, accepted, ha⟩
    exact ⟨before, piece, after, by simp, hb, accepted, ha⟩
  · rintro ⟨before, piece, after, rfl, hb, accepted, ha⟩
    exact ⟨before, piece ++ after, by simp, hb, piece, after, rfl, accepted, ha⟩

/-! ### A path as its own glob -/

/-- Read as a glob, a text describes itself: a star is one way to go on from a star. -/
theorem fits_self (text : List Char) : Fits (tokens (text.map .char)) text := by
  generalize spelled : text.map CodePoint.char = points
  fun_induction tokens points generalizing text with
  | case1 rest ih =>
    obtain ⟨_, _, rfl, first, more⟩ := List.map_eq_cons_iff.mp spelled
    obtain ⟨_, after, rfl, second, others⟩ := List.map_eq_cons_iff.mp more
    obtain rfl := CodePoint.char.inj first
    obtain rfl := CodePoint.char.inj second
    exact fits_cons.mpr ⟨['*', '*'], after, rfl, by simp [Token.Accepts], ih after others⟩
  | case2 rest _ ih =>
    obtain ⟨_, after, rfl, first, others⟩ := List.map_eq_cons_iff.mp spelled
    obtain rfl := CodePoint.char.inj first
    exact fits_cons.mpr ⟨['*'], after, rfl, by simp [Token.Accepts], ih after others⟩
  | case3 point rest _ _ ih =>
    obtain ⟨c, after, rfl, first, others⟩ := List.map_eq_cons_iff.mp spelled
    exact fits_cons.mpr ⟨[c], after, rfl, congrArg (fun point => [point]) first, ih after others⟩
  | case4 => exact fits_nil.mpr (List.map_eq_nil_iff.mp spelled)

/-- Every slash of a glob takes one of the path. -/
theorem count_slash_le {points : List CodePoint} {text : List Char} (fits : Fits (tokens points) text) :
    points.count (.char '/') ≤ text.count '/' := by
  fun_induction tokens points generalizing text with
  | case1 rest ih =>
    obtain ⟨piece, after, rfl, -, others⟩ := fits_cons.mp fits
    have inner := ih others
    simp
    omega
  | case2 rest _ ih =>
    obtain ⟨piece, after, rfl, -, others⟩ := fits_cons.mp fits
    have inner := ih others
    simp
    omega
  | case3 point rest _ _ ih =>
    obtain ⟨piece, after, rfl, accepted, others⟩ := fits_cons.mp fits
    obtain ⟨c, rfl, rfl⟩ := List.map_eq_singleton_iff.mp accepted
    have inner := ih others
    simp [List.count_cons]
    omega
  | case4 => exact Nat.zero_le _

theorem count_slash_le_of_text {text other : List Char}
    (fits : Fits (tokens (text.map .char)) other) : text.count '/' ≤ other.count '/' := by
  have slashes := count_slash_le fits
  rwa [List.count_map_of_injective _ _ fun _ _ => CodePoint.char.inj] at slashes

/-! ### Levels of a path -/

/-- Text that ends where a level of a path begins. -/
def EndsLevel (text : List Char) : Prop := text = [] ∨ ∃ front, text = front ++ ['/']

/-- Text that begins where a level of a path ends. -/
def BeginsLevel (text : List Char) : Prop := text = [] ∨ ∃ back, text = '/' :: back

theorem exists_beginsLevel (text : List Char) :
    ∃ rest below, text = rest ++ below ∧ '/' ∉ rest ∧ BeginsLevel below := by
  by_cases slash : '/' ∈ text
  · obtain ⟨rest, back, whole, absent⟩ := List.eq_append_cons_of_mem slash
    exact ⟨rest, '/' :: back, whole, absent, Or.inr ⟨back, rfl⟩⟩
  · exact ⟨text, [], by simp, slash, Or.inl rfl⟩

theorem exists_endsLevel (text : List Char) :
    ∃ above rest, text = above ++ rest ∧ '/' ∉ rest ∧ EndsLevel above := by
  obtain ⟨rest, below, whole, absent, level⟩ := exists_beginsLevel text.reverse
  refine ⟨below.reverse, rest.reverse, ?_, by simpa using absent, ?_⟩
  · rw [← List.reverse_append, ← whole, List.reverse_reverse]
  · rcases level with rfl | ⟨back, rfl⟩
    · exact Or.inl rfl
    · exact Or.inr ⟨back.reverse, List.reverse_cons⟩

theorem EndsLevel.prefix_of_count {front above text : List Char} (level : EndsLevel front)
    (hf : front <+: text) (ha : above <+: text) (slashes : front.count '/' ≤ above.count '/') :
    front <+: above := by
  rcases List.prefix_or_prefix_of_prefix hf ha with short | ⟨rest, rfl⟩
  · exact short
  · -- What is left over has no slash, and so it cannot end a level.
    rw [List.count_append] at slashes
    have absent : '/' ∉ rest := List.count_eq_zero.mp (by omega)
    rcases level with none | ⟨other, same⟩
    · rw [none]
      exact List.nil_prefix
    · rcases List.eq_nil_or_concat rest with rfl | ⟨init, last, rfl⟩
      · simp
      · rw [List.concat_eq_append, ← List.append_assoc] at same
        have ends : last = '/' := by simpa using (List.append_inj' same rfl).2
        simp [ends] at absent

theorem BeginsLevel.suffix_of_count {back below text : List Char} (level : BeginsLevel back)
    (hb : back <:+ text) (hl : below <:+ text) (slashes : back.count '/' ≤ below.count '/') :
    back <:+ below := by
  rw [← List.reverse_prefix] at hb hl ⊢
  refine EndsLevel.prefix_of_count ?_ hb hl (by simpa using slashes)
  rcases level with rfl | ⟨rest, rfl⟩
  · exact Or.inl rfl
  · exact Or.inr ⟨rest.reverse, List.reverse_cons⟩

/-- A level lies between any two parts of the path that have all the slashes around it. -/
theorem infix_of_level {above level below front piece back : List Char}
    (whole : above ++ level ++ below = front ++ piece ++ back) (single : '/' ∉ level)
    (hf : EndsLevel front) (hb : BeginsLevel back) (before : above.count '/' ≤ front.count '/')
    (after : below.count '/' ≤ back.count '/') : level <:+: piece := by
  have total := congrArg (List.count '/') whole
  have none := List.count_eq_zero.mpr single
  simp only [List.count_append] at total
  have hfWhole : front <+: above ++ level ++ below := ⟨piece ++ back, by simp [whole]⟩
  have hbWhole : back <:+ above ++ level ++ below := ⟨front ++ piece, whole.symm⟩
  have hp : front <+: above :=
    hf.prefix_of_count hfWhole ⟨level ++ below, (List.append_assoc _ _ _).symm⟩ (by omega)
  have hq : back <:+ below := hb.suffix_of_count hbWhole ⟨above ++ level, rfl⟩ (by omega)
  obtain ⟨p, rfl⟩ := hp
  obtain ⟨q, rfl⟩ := hq
  refine ⟨p, q, ?_⟩
  have inner : front ++ (p ++ level ++ q) ++ back = front ++ piece ++ back := by simpa using whole
  exact List.append_cancel_left (List.append_cancel_right inner)

/-! ### Two stars for one -/

theorem fits_endsLevel {text front : List Char} (level : EndsLevel text)
    (fits : Fits (tokens (text.map .char)) front) : EndsLevel front := by
  rcases level with rfl | ⟨other, rfl⟩
  · exact Or.inl (fits_nil.mp fits)
  · have slash : tokens [.char '/'] = [.literal (.char '/')] := rfl
    rw [List.map_append, List.map_singleton, tokens_append (Or.inr (by decide)), slash,
      fits_append] at fits
    obtain ⟨before, piece, rfl, -, last⟩ := fits
    obtain ⟨c, after, rfl, accepted, ends⟩ := fits_cons.mp last
    obtain ⟨d, rfl, same⟩ := List.map_eq_singleton_iff.mp accepted
    obtain rfl := CodePoint.char.inj same
    obtain rfl := fits_nil.mp ends
    exact Or.inr ⟨before, rfl⟩

theorem fits_beginsLevel {text back : List Char} (level : BeginsLevel text)
    (fits : Fits (tokens (text.map .char)) back) : BeginsLevel back := by
  rcases level with rfl | ⟨other, rfl⟩
  · exact Or.inl (fits_nil.mp fits)
  · rw [List.map_cons, tokens_literal (by decide)] at fits
    obtain ⟨piece, after, rfl, accepted, -⟩ := fits_cons.mp fits
    obtain ⟨c, rfl, same⟩ := List.map_eq_singleton_iff.mp accepted
    obtain rfl := CodePoint.char.inj same
    exact Or.inr ⟨after, rfl⟩

/-- Whatever stands around the star, a path without a newline is still described when the star
becomes two. For every other path there is a glob that loses it. -/
theorem describes_widened_iff (path : String) :
    (∀ a b : CodeText, a.points.getLast? ≠ some (.char '*') → b.points.head? ≠ some (.char '*') →
      describes (a ++ ("*" : CodeText) ++ b) path = true →
        describes (a ++ ("**" : CodeText) ++ b) path = true) ↔ '\n' ∉ path.toList := by
  have oneStar : ∀ a b : CodeText, (a ++ ("*" : CodeText) ++ b).points =
      a.points ++ .char '*' :: b.points := fun a b => List.append_assoc _ _ _
  have twoStars : ∀ a b : CodeText, (a ++ ("**" : CodeText) ++ b).points =
      a.points ++ .char '*' :: .char '*' :: b.points := fun a b => List.append_assoc _ _ _
  simp only [describes_iff_fits, oneStar, twoStars]
  constructor
  · intro widened newline
    -- The level with the newline is what the star stands for. Two stars must leave the newline out,
    -- and then a slash is missing on one side.
    obtain ⟨x, y, whole⟩ := List.append_of_mem newline
    obtain ⟨above, front, rfl, hf, ends⟩ := exists_endsLevel x
    obtain ⟨back, below, rfl, hb, begins⟩ := exists_beginsLevel y
    have split : path.toList = above ++ (front ++ '\n' :: back) ++ below := by simp [whole]
    have single : '/' ∉ front ++ '\n' :: back := by simp [hf, hb]
    have left : (above.map CodePoint.char).getLast? ≠ some (.char '*') := by
      rcases ends with rfl | ⟨other, rfl⟩ <;> simp
    have right : (below.map CodePoint.char).head? ≠ some (.char '*') := by
      rcases begins with rfl | ⟨other, rfl⟩ <;> simp
    have fits := widened (.ofChars above) (.ofChars below) left right
    simp only [CodeText.ofChars, tokens_with_star left right, tokens_with_stars left,
      fits_around] at fits
    obtain ⟨u, piece, v, cut, hu, accepted, hv⟩ :=
      fits ⟨above, _, below, split, fits_self above, single, fits_self below⟩
    have inside := infix_of_level (split.symm.trans cut) single (fits_endsLevel ends hu)
      (fits_beginsLevel begins hv) (count_slash_le_of_text hu) (count_slash_le_of_text hv)
    exact accepted (inside.subset (by simp))
  · intro line a b left right fits
    rw [tokens_with_star left right, fits_around] at fits
    obtain ⟨before, piece, after, cut, hb, -, ha⟩ := fits
    rw [tokens_with_stars left, fits_around]
    refine ⟨before, piece, after, cut, hb, ?_, ha⟩
    intro inside
    exact line (by simp [cut, inside])

theorem describes_widened_page :
    '\n' ∉ "src/pages/Home.vue".toList ∧
      ("src/" : CodeText).points.getLast? ≠ some (.char '*') ∧
      ("/Home.vue" : CodeText).points.head? ≠ some (.char '*') ∧
      describes (("src/" : CodeText) ++ ("*" : CodeText) ++ ("/Home.vue" : CodeText))
        "src/pages/Home.vue" = true ∧
      describes (("src/" : CodeText) ++ ("**" : CodeText) ++ ("/Home.vue" : CodeText))
        "src/pages/Home.vue" = true :=
  ⟨by decide, by decide, by decide, by decide,
    (describes_widened_iff "src/pages/Home.vue").mpr (by decide) "src/" "/Home.vue" (by decide)
      (by decide) (by decide)⟩

/-- A file whose name goes over two lines is described with one star and not with two. -/
theorem describes_not_widened :
    ("src/" : CodeText).points.getLast? ≠ some (.char '*') ∧
      (".vue" : CodeText).points.head? ≠ some (.char '*') ∧
      describes (("src/" : CodeText) ++ ("*" : CodeText) ++ (".vue" : CodeText))
        "src/a\nb.vue" = true ∧
      describes (("src/" : CodeText) ++ ("**" : CodeText) ++ (".vue" : CodeText))
        "src/a\nb.vue" = false := by
  decide

end Checkup.Glob
