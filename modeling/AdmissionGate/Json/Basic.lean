import AdmissionGate.Decimal.Reading
import AdmissionGate.Text.Digits

/-!
JSON documents. Numbers keep the digits they were written with, because a
reader may ask for an integer and refuse `1.0`. A string whose escapes do not
add up to Unicode text is legal JSON, but it stands for no text.
-/

namespace AdmissionGate

/-- A number as written: sign, digits before and after the point, exponent. -/
structure Numeral where
  negative : Bool := false
  whole : List Char
  fraction : List Char := []
  exponent : Option Int := none
deriving DecidableEq

inductive Json where
  | null
  | bool (b : Bool)
  | number (n : Numeral)
  /-- A string, if its escapes spell text. -/
  | string (s : Option String)
  | array (items : List Json)
  /-- Members in the order written; keys may repeat. -/
  | object (members : List (Option String × Json))

namespace Numeral

def ofInt (n : Int) : Numeral where
  negative := decide (n < 0)
  whole := Digits.render 10 n.natAbs

def mantissa (n : Numeral) : Nat := (Digits.valueOf? 10 (n.whole ++ n.fraction)).getD 0

def toFloat (n : Numeral) : Float :=
  Decimal.nearestSigned n.negative n.mantissa (n.exponent.getD 0 - n.fraction.length)

/-- The integer that is written without point or exponent, if it fits into a 64-bit
word. A zero with a minus sign is not an integer. -/
def int? (n : Numeral) : Option Int :=
  if n.fraction ≠ [] ∨ n.exponent ≠ none then none
  else if n.negative then
    if 0 < n.mantissa ∧ n.mantissa ≤ 9223372036854775808 then some (-n.mantissa) else none
  else if n.mantissa < UInt64.size then some n.mantissa
  else none

end Numeral

namespace Json

def ofInt (n : Int) : Json := number (.ofInt n)

def ofNat (n : Nat) : Json := ofInt n

def ofText (s : String) : Json := string (some s)

def ofMembers (members : List (String × Json)) : Json :=
  object (members.map fun m => (some m.1, m.2))

def ofOption (f : α → Json) : Option α → Json
  | none => null
  | some a => f a

/-- The value under a key. -/
def field? (key : String) : Json → Option Json
  | object members => (members.find? (·.1 = some key)).map (·.2)
  | _ => none

end Json

end AdmissionGate
