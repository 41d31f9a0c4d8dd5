import AdmissionGate.Text.Digits

/-!
The shortest decimal number that reads back as a given floating-point number.
A finite number is an exact fraction, and the decimal numbers that round to it
are an interval around it. After the next power of ten, for one digit, two digits and
so on, the two neighbours on that decimal grid are tried; the first grid with a
neighbour in the interval wins, and of two neighbours the nearer.
-/

namespace AdmissionGate.Decimal

/-- A positive finite number, `mantissa` times two to the `exponent`. -/
structure Binary where
  mantissa : Nat
  exponent : Int
  /-- The number below is only half as far away as the number above. -/
  atPowerOfTwo : Bool

def signWeight : Nat := 9223372036854775808

def exponentWeight : Nat := 4503599627370496

def isNegative (x : Float) : Bool := signWeight ≤ x.toBits.toNat

def binaryOf? (x : Float) : Option (Bool × Binary) :=
  let bits : Nat := x.toBits.toNat % signWeight
  let field : Nat := bits / exponentWeight
  let fraction : Nat := bits % exponentWeight
  if field = 2047 ∨ (field = 0 ∧ fraction = 0) then none
  else if field = 0 then some (isNegative x, ⟨fraction, -1074, false⟩)
  else
    some (isNegative x,
      ⟨fraction + exponentWeight, (field : Int) - 1075, fraction = 0 ∧ 1 < field⟩)

namespace Binary

/-- Numerator, in quarters of the unit in the last place. -/
def numerator (b : Binary) : Nat := 4 * b.mantissa * Nat.pow 2 b.exponent.toNat

def denominator (b : Binary) : Nat := 4 * Nat.pow 2 (-b.exponent).toNat

def gapAbove (b : Binary) : Nat := 2 * Nat.pow 2 b.exponent.toNat

def gapBelow (b : Binary) : Nat := (if b.atPowerOfTwo then 1 else 2) * Nat.pow 2 b.exponent.toNat

def digitCount (n : Nat) : Nat := (Digits.render 10 n).length

def magnitude (b : Binary) : Int :=
  if b.denominator ≤ b.numerator then digitCount (b.numerator / b.denominator)
  else
    1 - (digitCount ((b.denominator + b.numerator - 1) / b.numerator - 1) : Int)

/-- Of the two neighbours on the grid of step ten to the `step`, the nearer one that
reads back as the number. The upper neighbour wins a tie. -/
def onGrid? (b : Binary) (step : Int) : Option Nat :=
  let scale := Nat.pow 10 (-step).toNat
  let a := b.numerator * scale
  let unit := b.denominator * Nat.pow 10 step.toNat
  let down := a / unit
  let below := a - down * unit
  let above := (down + 1) * unit - a
  let inside (distance gap : Nat) : Bool :=
    distance < gap || (distance = gap && b.mantissa % 2 = 0)
  let lower := inside below (b.gapBelow * scale)
  let upper := inside above (b.gapAbove * scale)
  if lower && upper then
    if below < above then some down else some (down + 1)
  else if lower then some down
  else if upper then some (down + 1)
  else none

/-- The digits and the power of ten of the shortest decimal number. The first grid is that
of the power of ten above the number, which may be the number's text itself. Seventeen
digits are always enough. -/
def shortest (b : Binary) : Nat × Int :=
  let steps := (List.range 18).map fun k : Nat => b.magnitude - (k : Int)
  (steps.findSome? fun step => (b.onGrid? step).map (·, step)).getD (0, 0)

end Binary

def positional (digits : List Char) (exponent : Int) : List Char :=
  if 0 ≤ exponent then digits ++ List.replicate exponent.toNat '0' ++ ['.', '0']
  else
    let places := exponent.natAbs
    let padded := List.replicate (places + 1 - digits.length) '0' ++ digits
    padded.take (padded.length - places) ++ '.' :: padded.drop (padded.length - places)

def text (x : Float) : List Char :=
  if x.isNaN then ['n', 'a', 'n']
  else
    match binaryOf? x with
    | some (negative, b) =>
        let (digits, exponent) := b.shortest
        (if negative then ['-'] else []) ++ positional (Digits.render 10 digits) exponent
    | none =>
        (if isNegative x then ['-'] else []) ++
          if x.isInf then ['i', 'n', 'f'] else ['0', '.', '0']

end AdmissionGate.Decimal
