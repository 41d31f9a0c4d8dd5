/-!
The floating-point number nearest to a decimal one. Numbers far outside the
range of the format are told apart by their size alone, so that the powers of
ten computed stay small.
-/

namespace AdmissionGate.Decimal

/-- The place of the first digit of `mantissa`, counted from the point. -/
def magnitude (mantissa : Nat) (exponent : Int) : Int :=
  (Nat.toDigits 10 mantissa).length + exponent

def infinity : Float := 1.0 / 0.0

/-- The number nearest to `mantissa` times ten to the `exponent`. -/
def nearest (mantissa : Nat) (exponent : Int) : Float :=
  if mantissa = 0 then 0.0
  else if 400 < magnitude mantissa exponent then infinity
  else if magnitude mantissa exponent < -400 then 0.0
  else if exponent < 0 then Float.ofScientific mantissa true exponent.natAbs
  else Float.ofScientific mantissa false exponent.natAbs

def nearestSigned (negative : Bool) (mantissa : Nat) (exponent : Int) : Float :=
  if negative then -nearest mantissa exponent else nearest mantissa exponent

def ofInt (n : Int) : Float := nearestSigned (n < 0) n.natAbs 0

end AdmissionGate.Decimal
