import Checkup.Proofs.Text.Blanks

/-!
# Runs of characters

A text begins with exactly one longest run of characters of a kind (`LongestRun.unique`). Blanks
before a sign or a name are such a run, and so is a name before blanks and a sign
(`IsIdentifier.longestRun`).
-/

namespace Checkup.Text

/-- `text` is `run` and `rest`, and `run` is all that is accepted at its start. -/
structure LongestRun (accepts : Char → Bool) (text run rest : List Char) : Prop where
  whole : text = run ++ rest
  accepted : ∀ c ∈ run, accepts c = true
  ends : rest.head?.any accepts = false

variable {accepts : Char → Bool} {text run rest : List Char}

theorem longestRun_takeWhile (accepts : Char → Bool) (text : List Char) :
    LongestRun accepts text (text.takeWhile accepts) (text.dropWhile accepts) := by
  refine ⟨List.takeWhile_append_dropWhile.symm, fun c => List.mem_takeWhile_imp, ?_⟩
  have stops := List.head?_dropWhile_not accepts text
  cases first : (text.dropWhile accepts).head? with
  | none => rfl
  | some c => simpa [first] using stops

theorem LongestRun.takeWhile_eq (longest : LongestRun accepts text run rest) :
    text.takeWhile accepts = run := by
  obtain ⟨whole, accepted, ends⟩ := longest
  rw [whole, List.takeWhile_append_of_pos accepted]
  cases rest with
  | nil => simp
  | cons c rest =>
    rw [List.takeWhile_cons_of_neg (by simpa using ends), List.append_nil]

theorem LongestRun.dropWhile_eq (longest : LongestRun accepts text run rest) :
    text.dropWhile accepts = rest := by
  have parts := List.takeWhile_append_dropWhile (p := accepts) (l := text)
  rw [longest.takeWhile_eq] at parts
  exact List.append_cancel_left (parts.trans longest.whole)

theorem LongestRun.unique (longest : LongestRun accepts text run rest) {run' rest' : List Char}
    (longest' : LongestRun accepts text run' rest') : run = run' ∧ rest = rest' :=
  ⟨longest.takeWhile_eq.symm.trans longest'.takeWhile_eq,
    longest.dropWhile_eq.symm.trans longest'.dropWhile_eq⟩

theorem longestRun_blanks {gap : List Char} (blank : ∀ c ∈ gap, isBlank c = true) (sign : Char)
    (solid : isBlank sign = false) (rest : List Char) :
    LongestRun isBlank (gap ++ sign :: rest) gap (sign :: rest) :=
  ⟨rfl, blank, solid⟩

/-- Blanks and a sign end a word. -/
theorem ends_of_blanks {gap : List Char} (blank : ∀ c ∈ gap, isBlank c = true) (sign : Char)
    (noWord : isWord sign = false) (rest : List Char) :
    (gap ++ sign :: rest).head?.any isWord = false := by
  cases gap with
  | nil => exact noWord
  | cons c gap => exact isWord_of_isBlank (blank c List.mem_cons_self)

/-- A name that can be declared: word characters only, and at least one. -/
structure IsIdentifier (name : String) : Prop where
  nonempty : name.toList ≠ []
  word : ∀ c ∈ name.toList, isWord c = true

namespace IsIdentifier

instance (name : String) : Decidable (IsIdentifier name) :=
  decidable_of_iff (name.toList ≠ [] ∧ name.toList.all isWord = true)
    ⟨fun ⟨nonempty, word⟩ => ⟨nonempty, List.all_eq_true.mp word⟩,
      fun identifier => ⟨identifier.nonempty, List.all_eq_true.mpr identifier.word⟩⟩

variable {name : String} {gap : List Char}

theorem longestRun (identifier : IsIdentifier name) (blank : ∀ c ∈ gap, isBlank c = true)
    (sign : Char) (noWord : isWord sign = false) (rest : List Char) :
    LongestRun isWord (name.toList ++ (gap ++ sign :: rest)) name.toList (gap ++ sign :: rest) :=
  ⟨rfl, identifier.word, ends_of_blanks blank sign noWord rest⟩

theorem longestRun_before (identifier : IsIdentifier name) (blank : ∀ c ∈ gap, isBlank c = true)
    (rest : List Char) :
    LongestRun isBlank (gap ++ (name.toList ++ rest)) gap (name.toList ++ rest) := by
  obtain ⟨c, others, spelled⟩ := List.exists_cons_of_ne_nil identifier.nonempty
  have word := identifier.word c (by simp [spelled])
  refine ⟨rfl, blank, ?_⟩
  rw [spelled]
  cases indented : isBlank c with
  | false => simp [indented]
  | true => exact absurd word (by simp [isWord_of_isBlank indented])

end IsIdentifier

end Checkup.Text
