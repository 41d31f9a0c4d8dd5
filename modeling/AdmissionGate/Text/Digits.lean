/-!
Digits of natural numbers: decimal and lower-case hexadecimal text, with an
optional least width, and the values of digit characters.
-/

namespace AdmissionGate.Digits

def ofNat (n : Nat) : Char :=
  if n < 10 then Char.ofNat (48 + n) else Char.ofNat (87 + n)

/-- Value of a digit in bases up to 16; letters count in either case. -/
def value? (base : Nat) (c : Char) : Option Nat :=
  let v :=
    if '0' ≤ c ∧ c ≤ '9' then c.toNat - 48
    else if 'a' ≤ c ∧ c ≤ 'f' then c.toNat - 87
    else if 'A' ≤ c ∧ c ≤ 'F' then c.toNat - 55
    else base
  if v < base then some v else none

def isDecimal (c : Char) : Bool := '0' ≤ c && c ≤ '9'

def valueOf? (base : Nat) (cs : List Char) : Option Nat :=
  cs.foldlM (fun n c => (value? base c).map (base * n + ·)) 0

def padLeft (width : Nat) (cs : List Char) : List Char :=
  List.replicate (width - cs.length) '0' ++ cs

/-- Digits of `n` in `base`, most significant first; zero is one digit. -/
def render (base n : Nat) : List Char :=
  if h : base < 2 ∨ n < base then [ofNat n]
  else
    have : n / base < n := Nat.div_lt_self (by omega) (by omega)
    render base (n / base) ++ [ofNat (n % base)]
termination_by n

def decimal (n : Nat) : String := String.ofList (render 10 n)

def decimalOfInt : Int → String
  | .ofNat n => decimal n
  | .negSucc n => "-" ++ decimal (n + 1)

def hex (width n : Nat) : String := String.ofList (padLeft width (render 16 n))

end AdmissionGate.Digits
