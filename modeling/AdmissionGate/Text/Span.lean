import AdmissionGate.Text.Digits
import AdmissionGate.Time

/-!
Spans of time as short text: the largest unit among seconds, milliseconds,
microseconds and nanoseconds that the span reaches, with as many decimals as
are needed to be exact.
-/

namespace AdmissionGate.Duration

/-- The places after the point: `rest` in units of ten to the minus `places`,
without the zeros at the end. -/
def fractionDigits (places rest : Nat) : List Char :=
  ((Digits.padLeft places (Digits.render 10 rest)).reverse.dropWhile (· = '0')).reverse

def decimalText (whole places rest : Nat) : String :=
  match fractionDigits places rest with
  | [] => Digits.decimal whole
  | digits => Digits.decimal whole ++ "." ++ String.ofList digits

def text (d : Duration) : String :=
  if 1000000000 ≤ d then decimalText (d / 1000000000) 9 (d % 1000000000) ++ "s"
  else if 1000000 ≤ d then decimalText (d / 1000000) 6 (d % 1000000) ++ "ms"
  else if 1000 ≤ d then decimalText (d / 1000) 3 (d % 1000) ++ "µs"
  else Digits.decimal d ++ "ns"

end AdmissionGate.Duration
