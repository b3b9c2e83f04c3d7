import Checkup.Decimal.Binary
import Checkup.Toml.Text

/-!
# TOML scalars

Truth values, numbers, dates and times. Digits of a number may be divided by single underscores.
-/

namespace Checkup.Toml

/-! ### Numbers -/

/-- More digits of a number, each perhaps after an underscore. -/
def moreDigits (isDigit : Char → Bool) : List Char → List Char × List Char
  | [] => ([], [])
  | [c] => if isDigit c then ([c], []) else ([], [c])
  | c :: d :: rest =>
    if isDigit c then
      let (digits, after) := moreDigits isDigit (d :: rest)
      (c :: digits, after)
    else if c = '_' && isDigit d then
      let (digits, after) := moreDigits isDigit rest
      (d :: digits, after)
    else ([], c :: d :: rest)

def digits? (isDigit : Char → Bool) : List Char → Option (List Char × List Char)
  | [] => none
  | c :: rest =>
    if isDigit c then
      let (digits, after) := moreDigits isDigit rest
      some (c :: digits, after)
    else none

/-- The bases that a letter after a zero stands for. -/
def bases : List (Char × Nat) := [('x', 16), ('o', 8), ('b', 2)]

def isDigitIn (base : Nat) (c : Char) : Bool := (Text.hexValue? c).any (· < base)

def basedNumber? : List Char → Option (Value × List Char)
  | '0' :: letter :: rest => do
    let base ← bases.lookup letter
    let (digits, after) ← digits? (isDigitIn base) rest
    return (.int (Text.ofDigitsIn base digits), after)
  | _ => none

def sign : List Char → Bool × List Char
  | '-' :: rest => (true, rest)
  | '+' :: rest => (false, rest)
  | text => (false, text)

/-- The digits before the point. A leading zero stands alone. -/
def whole? : List Char → Option (List Char × List Char)
  | '0' :: rest => some ([ '0' ], rest)
  | text => digits? Char.isDigit text

def fraction (text : List Char) : List Char × List Char :=
  match text with
  | '.' :: rest => (digits? Char.isDigit rest).getD ([], text)
  | _ => ([], text)

def power (text : List Char) : Option Int × List Char :=
  match text with
  | [] => (none, [])
  | mark :: rest =>
    let (negative, unsigned) := sign rest
    match mark == 'e' || mark == 'E', digits? Char.isDigit unsigned with
    | true, some (digits, after) =>
      let magnitude : Int := Text.ofDigits digits
      (some (if negative then -magnitude else magnitude), after)
    | _, _ => (none, text)

def decimal? (text : List Char) : Option (Except Value.Fault (Value × List Char)) := do
  let (negative, unsigned) := sign text
  let (digits, afterWhole) ← whole? unsigned
  let (decimals, afterFraction) := fraction afterWhole
  let (tens, rest) := power afterFraction
  if decimals.isEmpty && tens.isNone then
    if digits.length > Value.digitLimit then return .error (.longInteger digits.length)
    let magnitude : Int := Text.ofDigits digits
    return .ok (.int (if negative then -magnitude else magnitude), rest)
  else
    let scale := tens.getD 0 - decimals.length
    let magnitude := Text.ofDigits (digits ++ decimals)
    return .ok (.float (Decimal.ofDecimal negative magnitude scale), rest)

/-! ### Dates and times -/

/-- A number of exactly so many digits, within bounds. -/
def fixed? (width low high : Nat) (text : List Char) : Option (Nat × List Char) :=
  let digits := text.take width
  let n := Text.ofDigits digits
  if digits.length = width && digits.all Char.isDigit && low ≤ n && n ≤ high then
    some (n, text.drop width)
  else none

def after? (expected : Char) : List Char → Option (List Char)
  | [] => none
  | c :: rest => if c = expected then some rest else none

def daysIn (year month : Nat) : Nat :=
  if month = 2 then
    if year % 4 = 0 && (year % 100 ≠ 0 || year % 400 = 0) then 29 else 28
  else if [4, 6, 9, 11].contains month then 30 else 31

/-- A date by its look, whether it exists, and the text after it. -/
def date? (text : List Char) : Option (Bool × List Char) := do
  let (year, rest) ← fixed? 4 0 9999 text
  let (month, rest) ← fixed? 2 1 12 (← after? '-' rest)
  let (day, rest) ← fixed? 2 1 31 (← after? '-' rest)
  return (1 ≤ year && day ≤ daysIn year month, rest)

def time? (text : List Char) : Option (List Char) := do
  let (_, rest) ← fixed? 2 0 23 text
  let (_, rest) ← fixed? 2 0 59 (← after? ':' rest)
  let (_, rest) ← fixed? 2 0 59 (← after? ':' rest)
  match rest with
  | '.' :: decimals =>
    if (decimals.takeWhile Char.isDigit).isEmpty then return rest
    else return decimals.dropWhile Char.isDigit
  | _ => return rest

def skipOffset (text : List Char) : List Char :=
  match text with
  | [] => []
  | c :: rest =>
    if c = 'Z' || c = 'z' then rest
    else if c = '+' || c = '-' then
      let offset? := do
        let (_, rest) ← fixed? 2 0 23 rest
        let (_, rest) ← fixed? 2 0 59 (← after? ':' rest)
        return rest
      offset?.getD text
    else text

def skipTime (text : List Char) : List Char :=
  match text with
  | [] => []
  | c :: rest =>
    if c = 'T' || c = 't' || c = ' ' then ((time? rest).map skipOffset).getD text else text

def written (text rest : List Char) : Value :=
  .moment (String.ofList (text.take (text.length - rest.length)))

def moment? (text : List Char) : Option (Except Value.Fault (Value × List Char)) :=
  match date? text with
  | some (isReal, afterDate) =>
    let rest := skipTime afterDate
    some (if isReal then .ok (written text rest, rest) else .error .malformed)
  | none => (time? text).map fun rest => .ok (written text rest, rest)

/-! ### Scalars -/

def words : List (String × Value) :=
  [("true", .bool true), ("false", .bool false), ("inf", .float (1.0 / 0.0)),
    ("+inf", .float (1.0 / 0.0)), ("-inf", .float (-1.0 / 0.0)), ("nan", .float (0.0 / 0.0)),
    ("+nan", .float (0.0 / 0.0)), ("-nan", .float (0.0 / 0.0))]

def word? (text : List Char) : Option (Value × List Char) :=
  words.findSome? fun (word, value) =>
    (Text.after? word.toList text).map fun rest => (value, rest)

def scalar : Reader Value := fun text =>
  match text with
  | '"' :: _ | '\x27' :: _ => (string text).map fun (s, rest) => (.str (String.ofList s), rest)
  | _ =>
    match word? text with
    | some found => .ok found
    | none =>
      match moment? text with
      | some found => found
      | none =>
        match basedNumber? text with
        | some found => .ok found
        | none => (decimal? text).getD (.error .malformed)

end Checkup.Toml
