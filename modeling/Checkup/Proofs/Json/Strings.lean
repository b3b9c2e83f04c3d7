import Checkup.Json.Token
import Checkup.Json.Writer
import Checkup.Proofs.Text.CodePoints
import Mathlib.Data.List.Chain

/-!
# JSON strings

A string is written point by point and read back unit by unit. A character beyond the first plane
is two units, and two halves next to each other are read as one character: what is written is read
back as it was (`stringUnits_flatMap_escapePoint`, `joinUnits_flatMap_pointUnits`) unless it has
two such halves.
-/

namespace Checkup.Json

/-! ### Units -/

theorem hexValue?_digitChar : ∀ digit < 16, Text.hexValue? (Nat.digitChar digit) = some digit := by
  decide

theorem hexUnit?_digits {unit : Nat} (small : unit < 0x10000) :
    hexUnit? (Nat.digitChar (unit / 16 / 16 / 16 % 16)) (Nat.digitChar (unit / 16 / 16 % 16))
      (Nat.digitChar (unit / 16 % 16)) (Nat.digitChar (unit % 16)) = some unit := by
  have digit (n : Nat) : Text.hexValue? (Nat.digitChar (n % 16)) = some (n % 16) :=
    hexValue?_digitChar _ (Nat.mod_lt n (by decide))
  simp only [hexUnit?, digit, bind, Option.bind_some, pure, Option.some_inj]
  omega

/-- The units before those that are read from a text. -/
def unitsBefore (units : List Nat) (read : Option (List Nat × List Char)) :
    Option (List Nat × List Char) :=
  read.map fun (later, after) => (units ++ later, after)

theorem unitsBefore_unitsBefore (units more : List Nat) (read : Option (List Nat × List Char)) :
    unitsBefore units (unitsBefore more read) = unitsBefore (units ++ more) read := by
  cases read with
  | none => rfl
  | some found => simp [unitsBefore]

theorem stringUnits_unitEscape {unit : Nat} (small : unit < 0x10000) (rest : List Char) :
    stringUnits (unitEscape unit ++ rest) = unitsBefore [unit] (stringUnits rest) := by
  simp only [unitEscape, Text.hexDigits, List.nil_append, List.cons_append]
  rw [stringUnits, hexUnit?_digits small]
  cases stringUnits rest with
  | none => rfl
  | some found => rfl

theorem stringUnits_shortEscape {letter c : Char} (short : shortEscape? letter = some c)
    (rest : List Char) :
    stringUnits ('\\' :: letter :: rest) = unitsBefore [c.toNat] (stringUnits rest) := by
  have other : letter ≠ 'u' := by
    rintro rfl
    cases short
  rw [stringUnits]
  · rw [short]
    cases stringUnits rest with
    | none => rfl
    | some found => rfl
  · rintro _ _ _ _ _ rfl
    exact absurd rfl other

theorem stringUnits_plain {c : Char} (noQuote : c ≠ '"') (noBackslash : c ≠ '\\')
    (visible : 0x20 ≤ c.toNat) (rest : List Char) :
    stringUnits (c :: rest) = unitsBefore [c.toNat] (stringUnits rest) := by
  rw [stringUnits]
  · rw [if_neg (by simp [noBackslash]; omega)]
    cases stringUnits rest with
    | none => rfl
    | some found => rfl
  all_goals simp_all

theorem toNat_valid (c : Char) : c.toNat < 0xD800 ∨ (0xDFFF < c.toNat ∧ c.toNat < 0x110000) :=
  c.valid

/-- The units of a character. -/
def charUnits (c : Char) : List Nat :=
  if c.toNat < 0x10000 then [c.toNat]
  else [0xD800 + (c.toNat - 0x10000) / 0x400, 0xDC00 + (c.toNat - 0x10000) % 0x400]

/-- The units of a code point. -/
def pointUnits : CodePoint → List Nat
  | .char c => charUnits c
  | .half place => [(CodePoint.half place).toNat]

theorem stringUnits_escape (c : Char) (rest : List Char) :
    stringUnits (escape c ++ rest) = unitsBefore (charUnits c) (stringUnits rest) := by
  have valid := toNat_valid c
  unfold escape
  split
  case h_8 noQuote noBackslash _ _ _ _ _ =>
    dsimp only
    split
    · next visible =>
      simp only [Bool.and_eq_true, decide_eq_true_eq] at visible
      have one : charUnits c = [c.toNat] := if_pos (by omega)
      rw [one]
      exact stringUnits_plain noQuote noBackslash visible.1 rest
    · unfold charUnits
      split
      · next small => exact stringUnits_unitEscape small rest
      · rw [List.append_assoc, stringUnits_unitEscape (by omega),
          stringUnits_unitEscape (by omega), unitsBefore_unitsBefore]
        rfl
  all_goals exact stringUnits_shortEscape rfl rest

theorem stringUnits_escapePoint (point : CodePoint) (rest : List Char) :
    stringUnits (escapePoint point ++ rest) = unitsBefore (pointUnits point) (stringUnits rest) := by
  cases point with
  | char c => exact stringUnits_escape c rest
  | half place =>
    apply stringUnits_unitEscape
    have := place.isLt
    simp only [CodePoint.toNat, CodePoint.firstHalf]
    omega

/-- What is read of written code points is their units, up to the quote after them. -/
theorem stringUnits_flatMap_escapePoint (points : List CodePoint) (rest : List Char) :
    stringUnits (points.flatMap escapePoint ++ '"' :: rest) =
      some (points.flatMap pointUnits, rest) := by
  induction points with
  | nil => rfl
  | cons point points ih =>
    rw [List.flatMap_cons, List.append_assoc, stringUnits_escapePoint, ih]
    rfl

/-! ### Halves -/

/-- No first half of a pair stands right before a second one. -/
def HalvesApart (points : List CodePoint) : Prop :=
  points.IsChain fun a b => ¬ (isHighHalf a.toNat ∧ isLowHalf b.toNat)

theorem not_isHighHalf_toNat (c : Char) : ¬ isHighHalf c.toNat := by
  have valid := toNat_valid c
  simp only [isHighHalf, Bool.and_eq_true, decide_eq_true_eq]
  omega

theorem halvesApart_ofString (s : String) : HalvesApart (CodeText.ofString s).points := by
  show (s.toList.map CodePoint.char).IsChain _
  rw [List.isChain_map, List.isChain_iff_getElem]
  rintro place _ ⟨high, _⟩
  exact not_isHighHalf_toNat _ high

theorem joinUnits_cons {unit : Nat} {units : List Nat}
    (alone : ∀ next ∈ units.head?, ¬ (isHighHalf unit ∧ isLowHalf next)) :
    joinUnits (unit :: units) = .ofNat unit :: joinUnits units := by
  cases units with
  | nil => rfl
  | cons next rest =>
    have apart := alone next rfl
    rw [joinUnits, if_neg (by simpa using apart)]

theorem joinUnits_charUnits (c : Char) (units : List Nat) :
    joinUnits (charUnits c ++ units) = .char c :: joinUnits units := by
  have valid := toNat_valid c
  have back : CodePoint.ofNat c.toNat = .char c := CodePoint.ofNat_toNat (.char c)
  unfold charUnits
  split
  · rw [List.singleton_append, joinUnits_cons, back]
    rintro next _ ⟨high, _⟩
    exact not_isHighHalf_toNat c high
  · have pair : (isHighHalf (0xD800 + (c.toNat - 0x10000) / 0x400) &&
        isLowHalf (0xDC00 + (c.toNat - 0x10000) % 0x400)) = true := by
      simp only [isHighHalf, isLowHalf, Bool.and_eq_true, decide_eq_true_eq]
      omega
    have sum : 0x10000 + (0xD800 + (c.toNat - 0x10000) / 0x400 - 0xD800) * 0x400 +
        (0xDC00 + (c.toNat - 0x10000) % 0x400 - 0xDC00) = c.toNat := by omega
    rw [List.cons_append, List.singleton_append, joinUnits, if_pos pair, sum, back]

/-- Among the first units of code points, only a second half of a pair looks like one. -/
theorem isLowHalf_of_head {points : List CodePoint} {unit : Nat}
    (first : unit ∈ (points.flatMap pointUnits).head?) (low : isLowHalf unit) :
    ∃ point ∈ points.head?, isLowHalf point.toNat := by
  cases points with
  | nil => cases first
  | cons point points =>
    refine ⟨point, rfl, ?_⟩
    cases point with
    | half place =>
      obtain rfl : (CodePoint.half place).toNat = unit := by simpa [pointUnits] using first
      exact low
    | char c =>
      by_cases small : c.toNat < 0x10000
      · obtain rfl : c.toNat = unit := by simpa [pointUnits, charUnits, small] using first
        exact low
      · have valid := toNat_valid c
        have high : 0xD800 + (c.toNat - 0x10000) / 0x400 = unit := by
          simpa [pointUnits, charUnits, small] using first
        simp only [isLowHalf, Bool.and_eq_true, decide_eq_true_eq] at low
        omega

theorem joinUnits_flatMap_pointUnits {points : List CodePoint} (apart : HalvesApart points) :
    joinUnits (points.flatMap pointUnits) = points := by
  induction points with
  | nil => rfl
  | cons point points ih =>
    obtain ⟨alone, rest⟩ := List.isChain_cons.mp apart
    rw [List.flatMap_cons]
    cases point with
    | char c => rw [pointUnits, joinUnits_charUnits, ih rest]
    | half place =>
      rw [pointUnits, List.singleton_append, joinUnits_cons, ih rest, CodePoint.ofNat_toNat]
      rintro next first ⟨high, low⟩
      obtain ⟨point, head, half⟩ := isLowHalf_of_head first low
      exact alone point head ⟨high, half⟩

/-- A written text is one token. -/
theorem lexeme_writeString {text : CodeText} (apart : HalvesApart text.points)
    (rest : List Char) :
    lexeme '"' (text.points.flatMap escapePoint ++ '"' :: rest) = (.text text, rest) := by
  have units := stringUnits_flatMap_escapePoint text.points rest
  simp only [lexeme, units, joinUnits_flatMap_pointUnits apart]

end Checkup.Json
