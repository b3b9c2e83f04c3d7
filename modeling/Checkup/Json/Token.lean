import Checkup.Decimal.Binary
import Checkup.Text.Digits
import Checkup.Text.Search
import Checkup.Value

/-!
# JSON tokens

The lexical layer of JSON. Three words beside the standard ones name the numbers that have no
digits, and an integer is limited in its digits. Reading never fails here: what begins no token is
a token of its own, and it ends the text.

`lexeme_length` makes every token take at least one character.
-/

namespace Checkup.Json

inductive Token where
  | openList
  | closeList
  | openTable
  | closeTable
  | comma
  | colon
  /-- A number or a word that stands for a value. -/
  | plain (value : Value)
  | text (s : CodeText)
  | longInteger (digits : Nat)
  | junk

def isSpace (c : Char) : Bool := c == ' ' || c == '\t' || c == '\n' || c == '\r'

/-! ### Strings -/

def hexUnit? (a b c d : Char) : Option Nat := do
  let high := (← Text.hexValue? a) * 16 + (← Text.hexValue? b)
  let low := (← Text.hexValue? c) * 16 + (← Text.hexValue? d)
  return high * 256 + low

def shortEscape? : Char → Option Char
  | '"' => some '"'
  | '\\' => some '\\'
  | '/' => some '/'
  | 'b' => some '\x08'
  | 'f' => some '\x0c'
  | 'n' => some '\n'
  | 'r' => some '\r'
  | 't' => some '\t'
  | _ => none

/-- The code units of a string up to its closing quote, and the text after it. A character that is
not escaped is one unit, whatever its code point. -/
def stringUnits : List Char → Option (List Nat × List Char)
  | [] => none
  | '"' :: rest => some ([], rest)
  | '\\' :: 'u' :: a :: b :: c :: d :: rest =>
    match hexUnit? a b c d, stringUnits rest with
    | some unit, some (units, after) => some (unit :: units, after)
    | _, _ => none
  | '\\' :: letter :: rest =>
    match shortEscape? letter, stringUnits rest with
    | some c, some (units, after) => some (c.toNat :: units, after)
    | _, _ => none
  | c :: rest =>
    if c = '\\' || c.toNat < 0x20 then none
    else match stringUnits rest with
      | some (units, after) => some (c.toNat :: units, after)
      | none => none

def isHighHalf (unit : Nat) : Bool := 0xD800 ≤ unit && unit < 0xDC00

def isLowHalf (unit : Nat) : Bool := 0xDC00 ≤ unit && unit < 0xE000

/-- The code points that code units spell: two halves make one character, and a half alone stays
one. -/
def joinUnits : List Nat → List CodePoint
  | [] => []
  | [unit] => [.ofNat unit]
  | high :: low :: rest =>
    if isHighHalf high && isLowHalf low then
      .ofNat (0x10000 + (high - 0xD800) * 0x400 + (low - 0xDC00)) :: joinUnits rest
    else .ofNat high :: joinUnits (low :: rest)

/-! ### Numbers -/

/-- The digits before the point. A leading zero stands alone. -/
def wholeDigits : List Char → List Char × List Char
  | '0' :: rest => ([ '0' ], rest)
  | text => (text.takeWhile Char.isDigit, text.dropWhile Char.isDigit)

def fractionDigits : List Char → List Char × List Char
  | '.' :: rest =>
    match rest.takeWhile Char.isDigit with
    | [] => ([], '.' :: rest)
    | digits => (digits, rest.dropWhile Char.isDigit)
  | text => ([], text)

/-- A sign, if there is one, as whether it is a minus. -/
def sign : List Char → Bool × List Char
  | '-' :: rest => (true, rest)
  | '+' :: rest => (false, rest)
  | text => (false, text)

def power : List Char → Option Int × List Char
  | [] => (none, [])
  | mark :: rest =>
    if mark = 'e' || mark = 'E' then
      match (sign rest).2.takeWhile Char.isDigit with
      | [] => (none, mark :: rest)
      | digits =>
        let magnitude : Int := Text.ofDigits digits
        (some (if (sign rest).1 then -magnitude else magnitude),
          (sign rest).2.dropWhile Char.isDigit)
    else (none, mark :: rest)

def integer (negative : Bool) (digits : List Char) : Token :=
  if digits.length > Value.digitLimit then .longInteger digits.length
  else .plain (.int (if negative then -(Text.ofDigits digits : Int) else Text.ofDigits digits))

def unsigned? (negative : Bool) (text : List Char) : Option (Token × List Char) :=
  let (whole, afterWhole) := wholeDigits text
  let (fraction, afterFraction) := fractionDigits afterWhole
  let (tens, rest) := power afterFraction
  if whole.isEmpty then none
  else if fraction.isEmpty && tens.isNone then some (integer negative whole, rest)
  else
    let scale := tens.getD 0 - fraction.length
    let magnitude := Text.ofDigits (whole ++ fraction)
    some (.plain (.float (Decimal.ofDecimal negative magnitude scale)), rest)

def number? (text : List Char) : Option (Token × List Char) :=
  match text with
  | '-' :: rest => unsigned? true rest
  | _ => unsigned? false text

/-! ### Tokens -/

def words : List (String × Value) :=
  [("null", .null), ("true", .bool true), ("false", .bool false), ("NaN", .float (0.0 / 0.0)),
    ("Infinity", .float (1.0 / 0.0)), ("-Infinity", .float (-1.0 / 0.0))]

def word? (text : List Char) : Option (Token × List Char) :=
  words.findSome? fun (word, value) =>
    (Text.after? word.toList text).map fun rest => (.plain value, rest)

/-- The token that `c` and the text after it begin with. -/
def lexeme (c : Char) (rest : List Char) : Token × List Char :=
  match c with
  | '[' => (.openList, rest)
  | ']' => (.closeList, rest)
  | '\x7b' => (.openTable, rest)
  | '\x7d' => (.closeTable, rest)
  | ',' => (.comma, rest)
  | ':' => (.colon, rest)
  | '"' =>
    match stringUnits rest with
    | some (units, after) => (.text ⟨joinUnits units⟩, after)
    | none => (.junk, [])
  | _ => ((word? (c :: rest)).or (number? (c :: rest))).getD (.junk, [])

theorem stringUnits_length {text after : List Char} {units : List Nat}
    (read : stringUnits text = some (units, after)) : after.length < text.length := by
  fun_induction stringUnits text generalizing units after with
  | case1 => simp at read
  | case2 rest => simp_all
  | case3 a b c d rest unit units' after' _ _ ih =>
    simp only [Option.some.injEq, Prod.mk.injEq] at read
    have shorter := ih ‹_›
    simp only [List.length_cons, ← read.2]
    omega
  | case4 => simp at read
  | case5 letter rest _ c units' after' _ _ ih =>
    simp only [Option.some.injEq, Prod.mk.injEq] at read
    have shorter := ih ‹_›
    simp only [List.length_cons, ← read.2]
    omega
  | case6 => simp at read
  | case7 => simp at read
  | case8 c rest _ _ _ _ units' after' _ ih =>
    simp only [Option.some.injEq, Prod.mk.injEq] at read
    have shorter := ih ‹_›
    simp only [List.length_cons, ← read.2]
    omega
  | case9 => simp at read

theorem length_dropWhile_digits (text : List Char) :
    (text.dropWhile Char.isDigit).length ≤ text.length :=
  (List.dropWhile_sublist _).length_le

theorem wholeDigits_length (text : List Char) (found : (wholeDigits text).1 ≠ []) :
    (wholeDigits text).2.length < text.length := by
  unfold wholeDigits at found ⊢
  split at found
  · simp
  · have parts := congrArg List.length
      (List.takeWhile_append_dropWhile (p := Char.isDigit) (l := text))
    have positive : 0 < (text.takeWhile Char.isDigit).length := List.length_pos_iff.2 found
    simp only [List.length_append] at parts
    simp only
    omega

theorem fractionDigits_length (text : List Char) :
    (fractionDigits text).2.length ≤ text.length := by
  unfold fractionDigits
  split
  · rename_i rest
    have := length_dropWhile_digits rest
    split <;> simp only [List.length_cons] <;> omega
  · simp

theorem sign_length (text : List Char) : (sign text).2.length ≤ text.length := by
  unfold sign
  split <;> simp

theorem power_length (text : List Char) : (power text).2.length ≤ text.length := by
  unfold power
  split
  · simp
  · rename_i mark rest
    have := length_dropWhile_digits (sign rest).2
    have := sign_length rest
    split
    · split <;> simp only [List.length_cons] <;> omega
    · simp

theorem unsigned?_length {negative : Bool} {text rest : List Char} {token : Token}
    (read : unsigned? negative text = some (token, rest)) : rest.length < text.length := by
  unfold unsigned? at read
  simp only at read
  split at read
  · simp at read
  · rename_i found
    have := wholeDigits_length text (by simpa using found)
    have := fractionDigits_length (wholeDigits text).2
    have := power_length (fractionDigits (wholeDigits text).2).2
    split at read <;> simp only [Option.some.injEq, Prod.mk.injEq] at read <;> rw [← read.2] <;>
      omega

theorem number?_length {text rest : List Char} {token : Token}
    (read : number? text = some (token, rest)) : rest.length < text.length := by
  unfold number? at read
  split at read
  · have := unsigned?_length read
    simp only [List.length_cons]
    omega
  · exact unsigned?_length read

theorem word?_length {text rest : List Char} {token : Token}
    (read : word? text = some (token, rest)) : rest.length < text.length := by
  obtain ⟨⟨word, value⟩, member, found⟩ := List.exists_of_findSome?_eq_some read
  obtain ⟨after, cut, same⟩ := Option.map_eq_some_iff.1 found
  have long : ∀ entry ∈ words, 0 < entry.1.toList.length := by decide
  have positive : 0 < word.toList.length := long _ member
  simp only [Prod.mk.injEq] at same
  rw [Text.after?_eq_some_iff.1 cut, ← same.2, List.length_append]
  omega

theorem lexeme_length (c : Char) (rest : List Char) : (lexeme c rest).2.length ≤ rest.length := by
  unfold lexeme
  split <;> try exact Nat.le_refl _
  · split
    · exact Nat.le_of_lt (stringUnits_length ‹_›)
    · simp
  · cases read : (word? (c :: rest)).or (number? (c :: rest)) with
    | none => simp
    | some lexed =>
      obtain ⟨token, after⟩ := lexed
      simp only [Option.getD_some]
      rcases Option.or_eq_some_iff.1 read with read | ⟨_, read⟩
      · exact Nat.le_of_lt_succ (word?_length read)
      · exact Nat.le_of_lt_succ (number?_length read)

def tokens : List Char → List Token
  | [] => []
  | c :: rest =>
    if isSpace c then tokens rest
    else
      have := lexeme_length c rest
      (lexeme c rest).1 :: tokens (lexeme c rest).2
termination_by text => text.length
decreasing_by all_goals simp only [List.length_cons]; omega

end Checkup.Json
