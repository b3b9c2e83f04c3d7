import Checkup.Decimal.Binary

/-!
# Fixed decimals

A magnitude rounded to a number of decimal places. The exact value is rounded, and a tie goes to
the even neighbour.
-/

namespace Checkup.Decimal

/-- The natural number nearest to `num / den`; a tie goes to the even one. -/
def nearest (num den : Nat) : Nat :=
  let down := num / den
  let twice := 2 * (num % den)
  if twice < den || (twice = den && down % 2 = 0) then down else down + 1

/-- The magnitude in units of `10 ^ -places`, rounded. -/
def Magnitude.rounded (x : Magnitude) (places : Nat) : Nat :=
  nearest (x.mantissa * Nat.pow 10 places * Nat.pow 2 x.exponent.toNat)
    (Nat.pow 2 (-x.exponent).toNat)

inductive Unroundable where
  | nan
  | infinite

def Unroundable.message : Unroundable → String
  | .nan => "cannot convert float NaN to integer"
  | .infinite => "cannot convert float infinity to integer"

/-- The nearest integer; a tie goes to the even one. -/
def roundToInt (x : Float) : Except Unroundable Int :=
  match read x with
  | .nan => .error .nan
  | .infinite => .error .infinite
  | .finite magnitude =>
    .ok (if isNegative x then -(magnitude.rounded 0 : Int) else magnitude.rounded 0)

def oneDecimal (x : Float) : String :=
  let sign := if isNegative x then "-" else ""
  match read x with
  | .nan => "nan"
  | .infinite => sign ++ "inf"
  | .finite magnitude =>
    let tenths := magnitude.rounded 1
    sign ++ toString (tenths / 10) ++ "." ++ toString (tenths % 10)

end Checkup.Decimal
