import Checkup.Decimal.Binary

/-!
# Shortest decimals

The fewest digits that read back as a given double, and among those the nearest to it. The powers
of ten are tried from the coarsest on: the first that has a multiple inside the interval of numbers
that round to the double gives the digits.
-/

namespace Checkup.Decimal

/-- The magnitude `digits * 10 ^ exponent`. -/
structure Scaled where
  digits : Nat
  exponent : Int

namespace Magnitude

/-- A multiple of `10 ^ exponent` that reads back as the magnitude, if the grid has one. All numbers
are compared in quarters of the last binary place. -/
def onGrid? (x : Magnitude) (exponent : Int) : Option Scaled :=
  let quarter := x.exponent - 2
  let grid := Nat.pow 10 exponent.toNat * Nat.pow 2 (-quarter).toNat
  let scale := Nat.pow 10 (-exponent).toNat * Nat.pow 2 quarter.toNat
  let below := if x.mantissa = Nat.pow 2 52 && x.exponent > -1074 then 1 else 2
  let low := (4 * x.mantissa - below) * scale
  let high := (4 * x.mantissa + 2) * scale
  let value := 4 * x.mantissa * scale
  let readsBack (n : Nat) : Bool :=
    if x.mantissa % 2 = 0 then low ≤ n * grid && n * grid ≤ high
    else low < n * grid && n * grid < high
  let down := value / grid
  let up := down + 1
  match readsBack down && down != 0, readsBack up with
  | false, false => none
  | true, false => some ⟨down, exponent⟩
  | false, true => some ⟨up, exponent⟩
  | true, true =>
    let toDown := value - down * grid
    let toUp := up * grid - value
    if toDown < toUp || (toDown = toUp && down % 2 = 0) then some ⟨down, exponent⟩
    else some ⟨up, exponent⟩

def shortest (x : Magnitude) : Scaled :=
  if x.mantissa = 0 then ⟨0, 0⟩
  else ((List.range 700).findSome? fun (step : Nat) => x.onGrid? (310 - (step : Int))).getD ⟨0, 0⟩

end Magnitude

/-- Digits as they are written: positional from `10 ^ -4` up to `10 ^ 16`, else with an exponent of
at least two digits. A whole number keeps one decimal place. -/
def Scaled.text (x : Scaled) : String :=
  let digits := Nat.toDigits 10 x.digits
  let point : Int := digits.length + x.exponent
  let zeros (n : Nat) : List Char := List.replicate n '0'
  if -4 < point && point ≤ 16 then
    if point ≤ 0 then String.ofList ("0.".toList ++ zeros (-point).toNat ++ digits)
    else if x.exponent ≥ 0 then String.ofList (digits ++ zeros x.exponent.toNat ++ ".0".toList)
    else String.ofList (digits.take point.toNat ++ '.' :: digits.drop point.toNat)
  else
    let power := point - 1
    let mark := if power < 0 then "e-" else "e+"
    let magnitude := Nat.toDigits 10 power.natAbs
    let padded := if magnitude.length < 2 then '0' :: magnitude else magnitude
    let head := digits.take 1
    let tail := digits.drop 1
    let fraction := if tail.isEmpty then [] else '.' :: tail
    String.ofList (head ++ fraction ++ mark.toList ++ padded)

def shortestText (x : Float) : String :=
  let sign := if isNegative x then "-" else ""
  match read x with
  | .nan => "nan"
  | .infinite => sign ++ "inf"
  | .finite magnitude => sign ++ magnitude.shortest.text

end Checkup.Decimal
