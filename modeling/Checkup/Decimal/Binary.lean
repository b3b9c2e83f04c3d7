/-!
# Binary floating point, exactly

The value of a double is a natural number times a power of two. Decimal forms are worked out from
that pair in exact arithmetic.
-/

namespace Checkup.Decimal

/-- The magnitude `mantissa * 2 ^ exponent`. -/
structure Magnitude where
  mantissa : Nat
  exponent : Int

inductive Reading where
  | nan
  | infinite
  | finite (magnitude : Magnitude)

def isNegative (x : Float) : Bool := Nat.pow 2 63 ≤ x.toBits.toNat

def read (x : Float) : Reading :=
  let bits := x.toBits.toNat
  let exponent : Nat := bits / Nat.pow 2 52 % Nat.pow 2 11
  let fraction : Nat := bits % Nat.pow 2 52
  if exponent = 2047 then if fraction = 0 then .infinite else .nan
  else if exponent = 0 then .finite ⟨fraction, -1074⟩
  else .finite ⟨Nat.pow 2 52 + fraction, (exponent : Int) - 1075⟩

/-- The double nearest to `± digits * 10 ^ exponent`. A magnitude beyond every double is infinite,
one below half the least double is zero, so no large power of ten is ever computed. -/
def ofDecimal (negative : Bool) (digits : Nat) (exponent : Int) : Float :=
  let leading : Int := (Nat.toDigits 10 digits).length + exponent
  let magnitude : Float :=
    if digits = 0 || leading < -400 then 0.0
    else if leading > 400 then 1.0 / 0.0
    else if exponent < 0 then Float.ofScientific digits true exponent.natAbs
    else Float.ofScientific digits false exponent.natAbs
  if negative then -magnitude else magnitude

end Checkup.Decimal
