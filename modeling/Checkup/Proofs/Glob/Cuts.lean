import Checkup.Glob
import Checkup.Proofs.Pattern.Spans
import Mathlib.Data.List.Forall2

/-!
# Globs as cuts of a path

A glob is read into tokens, and it describes a path if the path can be cut into pieces, one for each
token, that the tokens accept. `describes_iff_exists_cut` says so of every glob and every path: however
the wildcards stand next to each other, some cut decides.
-/

namespace Checkup.Glob

/-- The tokens of a glob, read from left to right: two stars wherever the next two code points are
stars. -/
inductive Reads : List CodePoint → List Token → Prop
  | nil : Reads [] []
  | stars {rest tokens} : Reads rest tokens →
      Reads (.char '*' :: .char '*' :: rest) (.stars :: tokens)
  | star {rest tokens} : rest.head? ≠ some (.char '*') → Reads rest tokens →
      Reads (.char '*' :: rest) (.star :: tokens)
  | literal {point rest tokens} : point ≠ .char '*' → Reads rest tokens →
      Reads (point :: rest) (.literal point :: tokens)

/-- What a token stands for. -/
def Token.Accepts : Token → List Char → Prop
  | .literal point, piece => piece.map CodePoint.char = [point]
  | .star, piece => '/' ∉ piece
  | .stars, piece => '\n' ∉ piece

/-- A text that can be cut into pieces for the tokens. -/
def Fits (tokens : List Token) (text : List Char) : Prop :=
  ∃ pieces, List.Forall₂ Token.Accepts tokens pieces ∧ pieces.flatten = text

/-! ### Reading -/

theorem tokens_star {rest : List CodePoint} (h : rest.head? ≠ some (.char '*')) :
    tokens (.char '*' :: rest) = .star :: tokens rest := by
  rw [tokens]
  rintro after rfl
  exact h rfl

theorem tokens_literal {point : CodePoint} (h : point ≠ .char '*') (rest : List CodePoint) :
    tokens (point :: rest) = .literal point :: tokens rest := by
  rw [tokens]
  · rintro after rfl -
    exact h rfl
  · rintro rfl
    exact h rfl

theorem reads_tokens (points : List CodePoint) : Reads points (tokens points) := by
  fun_induction tokens points with
  | case1 rest ih => exact .stars ih
  | case2 rest single ih =>
    refine .star ?_ ih
    intro h
    obtain ⟨after, rfl⟩ := List.head?_eq_some_iff.mp h
    exact single after rfl
  | case3 point rest _ other ih => exact .literal other ih
  | case4 => exact .nil

theorem reads_iff {points : List CodePoint} {read : List Token} :
    Reads points read ↔ read = tokens points := by
  constructor
  · intro h
    induction h with
    | nil => rfl
    | stars _ ih => rw [ih, tokens]
    | star next _ ih => rw [ih, tokens_star next]
    | literal other _ ih => rw [ih, tokens_literal other]
  · rintro rfl
    exact reads_tokens points

/-! ### Cutting -/

theorem fits_nil {text : List Char} : Fits [] text ↔ text = [] := by
  constructor
  · rintro ⟨pieces, accepted, rfl⟩
    cases accepted
    rfl
  · rintro rfl
    exact ⟨[], .nil, rfl⟩

theorem fits_cons {token : Token} {rest : List Token} {text : List Char} :
    Fits (token :: rest) text ↔
      ∃ piece after, text = piece ++ after ∧ token.Accepts piece ∧ Fits rest after := by
  constructor
  · rintro ⟨pieces, accepted, rfl⟩
    cases accepted with
    | cons first others => exact ⟨_, _, List.flatten_cons, first, _, others, rfl⟩
  · rintro ⟨piece, _, rfl, accepted, pieces, others, rfl⟩
    exact ⟨piece :: pieces, .cons accepted others, List.flatten_cons⟩

theorem fits_append {first second : List Token} {text : List Char} :
    Fits (first ++ second) text ↔
      ∃ front back, text = front ++ back ∧ Fits first front ∧ Fits second back := by
  induction first generalizing text with
  | nil => simp [fits_nil]
  | cons token first ih =>
    simp only [List.cons_append, fits_cons, ih]
    constructor
    · rintro ⟨piece, _, rfl, accepted, front, back, rfl, hf, hb⟩
      exact ⟨piece ++ front, back, by simp, ⟨piece, front, rfl, accepted, hf⟩, hb⟩
    · rintro ⟨_, back, rfl, ⟨piece, front, rfl, accepted, hf⟩, hb⟩
      exact ⟨piece, front ++ back, by simp, accepted, front, back, rfl, hf, hb⟩

theorem spans_token {token : Token} {left piece right : List Char} :
    token.pattern.Spans left piece right ↔ token.Accepts piece := by
  cases token with
  | literal point =>
    simp only [Token.pattern, Token.Accepts, Pattern.spans_one, beq_iff_eq,
      List.map_eq_singleton_iff]
  | star => exact Pattern.spans_upTo
  | stars => exact Pattern.spans_upTo

theorem spans_pattern {read : List Token} {left text right : List Char} :
    (pattern read).Spans left text right ↔ Fits read text := by
  induction read generalizing left text with
  | nil => exact fits_nil.symm
  | cons token read ih =>
    have first : pattern (token :: read) = token.pattern ++ pattern read := rfl
    rw [first, Pattern.spans_append, fits_cons]
    simp only [spans_token, ih]

theorem describes_iff_fits {glob : CodeText} {path : String} :
    describes glob path = true ↔ Fits (tokens glob.points) path.toList := by
  rw [describes, Pattern.covers_iff, spans_pattern]

/-- A glob describes the paths that can be cut into pieces for its tokens, and no others. -/
theorem describes_iff_exists_cut (glob : CodeText) (path : String) :
    describes glob path = true ↔ ∃ read pieces, Reads glob.points read ∧
      List.Forall₂ Token.Accepts read pieces ∧ pieces.flatten = path.toList := by
  rw [describes_iff_fits]
  constructor
  · rintro ⟨pieces, accepted, whole⟩
    exact ⟨_, pieces, reads_tokens glob.points, accepted, whole⟩
  · rintro ⟨read, pieces, reads, accepted, whole⟩
    obtain rfl := reads_iff.mp reads
    exact ⟨pieces, accepted, whole⟩

example : describes "src/***.vue" "src/pages/Home.vue" = true := by decide

end Checkup.Glob
