import Checkup.Json.Token
import Checkup.Json.Writer
import Mathlib

/-!
# JSON integers

An integer is written by its decimal digits. Read before something that can be no part of a number,
they are one token again (`tokens_toString`), that of the integer unless they are too many
(`integer_toDigits`).
-/

namespace Checkup.Json

/-- What may stand after a value: nothing, a comma or a closing bracket. -/
def Ends (rest : List Char) : Prop := ∀ c ∈ rest.head?, c = ',' ∨ c = ']' ∨ c = '\x7d'

/-! ### Decimal digits -/

theorem isDigit_of_mem_toDigits {n : Nat} {c : Char} (digit : c ∈ Nat.toDigits 10 n) :
    c.isDigit = true :=
  Nat.isDigit_of_mem_toDigits (by decide) (by decide) digit

theorem ofDigits_toDigits (n : Nat) : Text.ofDigits (Nat.toDigits 10 n) = n :=
  Nat.ofDigitChars_ten_toDigits

theorem eq_zero_of_head?_toDigits {n : Nat} (zero : (Nat.toDigits 10 n).head? = some '0') :
    n = 0 := by
  induction n using Nat.strongRecOn with
  | ind n ih =>
    rw [Nat.toDigits_eq_if (by decide)] at zero
    split at zero
    · next small =>
      have only : ∀ digit < 10, [Nat.digitChar digit].head? = some '0' → digit = 0 := by decide
      exact only n small zero
    · next large =>
      rw [List.head?_append_of_ne_nil _ Nat.toDigits_ne_nil] at zero
      have none := ih (n / 10) (by omega) zero
      omega

/-! ### Numbers -/

section

variable {rest : List Char} (ends : Ends rest)
include ends

theorem takeWhile_isDigit_of_ends : rest.takeWhile Char.isDigit = [] := by
  cases rest with
  | nil => rfl
  | cons c after => rcases ends c rfl with rfl | rfl | rfl <;> rfl

theorem dropWhile_isDigit_of_ends : rest.dropWhile Char.isDigit = rest := by
  cases rest with
  | nil => rfl
  | cons c after => rcases ends c rfl with rfl | rfl | rfl <;> rfl

theorem fractionDigits_of_ends : fractionDigits rest = ([], rest) := by
  cases rest with
  | nil => rfl
  | cons c after => rcases ends c rfl with rfl | rfl | rfl <;> rfl

theorem power_of_ends : power rest = (none, rest) := by
  cases rest with
  | nil => rfl
  | cons c after => rcases ends c rfl with rfl | rfl | rfl <;> rfl

theorem wholeDigits_toDigits (n : Nat) :
    wholeDigits (Nat.toDigits 10 n ++ rest) = (Nat.toDigits 10 n, rest) := by
  unfold wholeDigits
  split
  · next after begins =>
    have zero : n = 0 := by
      apply eq_zero_of_head?_toDigits
      rw [← List.head?_append_of_ne_nil _ Nat.toDigits_ne_nil, begins]
      rfl
    subst zero
    rw [Nat.toDigits_zero] at begins ⊢
    have same : rest = after := (List.cons.inj begins).2
    rw [same]
  · rw [List.takeWhile_append_of_pos fun _ => isDigit_of_mem_toDigits,
      List.dropWhile_append_of_pos fun _ => isDigit_of_mem_toDigits,
      takeWhile_isDigit_of_ends ends, dropWhile_isDigit_of_ends ends, List.append_nil]

theorem unsigned?_toDigits (negative : Bool) (n : Nat) :
    unsigned? negative (Nat.toDigits 10 n ++ rest) =
      some (integer negative (Nat.toDigits 10 n), rest) := by
  unfold unsigned?
  rw [wholeDigits_toDigits ends]
  dsimp only
  rw [fractionDigits_of_ends ends]
  dsimp only
  rw [power_of_ends ends, if_neg (by simp)]
  rfl

end

/-! ### Tokens -/

theorem word?_of_isDigit {text : List Char} {c : Char} (early : c ∈ text.take 2)
    (digit : c.isDigit = true) : word? text = none := by
  have noDigit : ∀ entry ∈ words, 2 ≤ entry.1.toList.length ∧
      entry.1.toList.all (!·.isDigit) = true := by decide
  unfold word?
  rw [List.findSome?_eq_none_iff]
  rintro ⟨word, value⟩ member
  rw [Option.map_eq_none_iff, Option.eq_none_iff_forall_ne_some]
  intro rest found
  obtain ⟨long, letters⟩ := noDigit _ member
  rw [Text.after?_eq_some_iff.mp found, List.take_append_of_le_length long] at early
  have other := List.all_eq_true.mp letters c (List.mem_of_mem_take early)
  rw [digit] at other
  cases other

theorem tokens_of_lexeme {c : Char} {tail rest : List Char} {token : Token}
    (solid : isSpace c = false) (read : lexeme c tail = (token, rest)) :
    tokens (c :: tail) = token :: tokens rest := by
  rw [tokens, if_neg (by simp [solid]), read]

theorem lexeme_of_isDigit {c : Char} (digit : c.isDigit = true) (rest : List Char) :
    lexeme c rest = ((word? (c :: rest)).or (number? (c :: rest))).getD (.junk, []) := by
  unfold lexeme
  split
  case h_8 => rfl
  all_goals cases digit

theorem exists_digit_cons (n : Nat) :
    ∃ c tail, Nat.toDigits 10 n = c :: tail ∧ c.isDigit = true := by
  obtain ⟨c, tail, digits⟩ := List.exists_cons_of_ne_nil (@Nat.toDigits_ne_nil n 10)
  exact ⟨c, tail, digits, isDigit_of_mem_toDigits (digits ▸ List.mem_cons_self)⟩

theorem number?_of_isDigit {c : Char} (digit : c.isDigit = true) (rest : List Char) :
    number? (c :: rest) = unsigned? false (c :: rest) := by
  unfold number?
  split
  · next minus =>
    obtain ⟨rfl, _⟩ := List.cons.inj minus
    cases digit
  · rfl

theorem isSpace_of_isDigit {c : Char} (digit : c.isDigit = true) : isSpace c = false := by
  rw [Bool.eq_false_iff]
  intro space
  simp only [isSpace, Bool.or_eq_true, beq_iff_eq] at space
  rcases space with ((rfl | rfl) | rfl) | rfl <;> cases digit

theorem tokens_toDigits (n : Nat) {rest : List Char} (ends : Ends rest) :
    tokens (Nat.toDigits 10 n ++ rest) = integer false (Nat.toDigits 10 n) :: tokens rest := by
  have number := unsigned?_toDigits ends false n
  obtain ⟨c, tail, digits, digit⟩ := exists_digit_cons n
  rw [digits, List.cons_append] at number ⊢
  apply tokens_of_lexeme (isSpace_of_isDigit digit)
  rw [lexeme_of_isDigit digit, word?_of_isDigit (by simp) digit, Option.none_or,
    number?_of_isDigit digit, number]
  rfl

theorem tokens_minus_toDigits (n : Nat) {rest : List Char} (ends : Ends rest) :
    tokens ('-' :: (Nat.toDigits 10 n ++ rest)) =
      integer true (Nat.toDigits 10 n) :: tokens rest := by
  have number := unsigned?_toDigits ends true n
  obtain ⟨c, tail, digits, digit⟩ := exists_digit_cons n
  rw [digits, List.cons_append] at number ⊢
  apply tokens_of_lexeme rfl
  show ((word? ('-' :: c :: (tail ++ rest))).or (unsigned? true (c :: (tail ++ rest)))).getD _ = _
  rw [word?_of_isDigit (by simp) digit, Option.none_or, number]
  rfl

theorem toList_toString (n : Int) :
    (toString n).toList =
      if n < 0 then '-' :: Nat.toDigits 10 n.natAbs else Nat.toDigits 10 n.natAbs := by
  cases n with
  | ofNat n =>
    show (Nat.repr n).toList = _
    rw [Nat.repr_eq_ofList_toDigits, String.toList_ofList]
    rfl
  | negSucc n =>
    show ("-" ++ Nat.repr (n + 1)).toList = _
    rw [String.toList_append, Nat.repr_eq_ofList_toDigits, String.toList_ofList,
      String.toList_ofList, if_pos (Int.negSucc_lt_zero n)]
    rfl

/-- An integer is one token before whatever may follow a value. -/
theorem tokens_toString (n : Int) {rest : List Char} (ends : Ends rest) :
    tokens ((toString n).toList ++ rest) =
      integer (n < 0) (Nat.toDigits 10 n.natAbs) :: tokens rest := by
  rw [toList_toString]
  by_cases negative : n < 0
  · rw [if_pos negative, decide_eq_true negative]
    exact tokens_minus_toDigits _ ends
  · rw [if_neg negative, decide_eq_false negative]
    exact tokens_toDigits _ ends

/-! ### The limit -/

theorem isLong_iff (n : Int) :
    isLong n = true ↔ Value.digitLimit < (Nat.toDigits 10 n.natAbs).length := by
  rw [isLong, decide_eq_true_eq, Nat.pow_eq, ← Nat.not_lt,
    ← Nat.length_toDigits_le_iff (by decide) (by decide), Nat.not_le]

theorem isLong_eq_false_iff (n : Int) : isLong n = false ↔ n.natAbs < 10 ^ Value.digitLimit := by
  rw [isLong, decide_eq_false_iff_not, Nat.pow_eq, Nat.not_le]

theorem signed_natAbs (n : Int) :
    (if decide (n < 0) = true then -(n.natAbs : Int) else n.natAbs) = n := by
  split
  · next negative =>
    rw [decide_eq_true_eq] at negative
    omega
  · next positive =>
    rw [decide_eq_true_eq] at positive
    omega

theorem integer_toDigits {n : Int} (short : isLong n = false) :
    integer (n < 0) (Nat.toDigits 10 n.natAbs) = .plain (.int n) := by
  have fits : ¬ Value.digitLimit < (Nat.toDigits 10 n.natAbs).length := by
    rw [← isLong_iff, short]
    exact Bool.false_ne_true
  rw [integer, if_neg fits, ofDigits_toDigits, signed_natAbs]

theorem integer_toDigits_of_long {n : Int} (long : isLong n = true) :
    integer (n < 0) (Nat.toDigits 10 n.natAbs) =
      .longInteger (Nat.toDigits 10 n.natAbs).length := by
  rw [integer, if_pos ((isLong_iff n).mp long)]

end Checkup.Json
