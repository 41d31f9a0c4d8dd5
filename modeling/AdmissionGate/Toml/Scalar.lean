import AdmissionGate.Toml.Basic
import AdmissionGate.Toml.Text

/-!
Numbers, dates and times of TOML.
-/

namespace AdmissionGate.Toml

abbrev Rest := List Char

def takeSpaced (base : Nat) : List Char → Option (List Char × Rest)
  | [] => none
  | d :: rest =>
      if (Digits.value? base d).isSome then
        match rest with
        | '_' :: more => (takeSpaced base more).map fun (ds, rest) => (d :: ds, rest)
        | c :: more =>
            if (Digits.value? base c).isSome then
              (takeSpaced base (c :: more)).map fun (ds, rest) => (d :: ds, rest)
            else some ([d], c :: more)
        | [] => some ([d], [])
      else none

/-- A sign and decimal digits; a zero stands alone. -/
def takeDecimal (cs : List Char) : Option (Bool × List Char × Rest) :=
  let (negative, cs) := match cs with
    | '-' :: rest => (true, rest)
    | '+' :: rest => (false, rest)
    | cs => (false, cs)
  match cs with
  | '0' :: rest => some (negative, ['0'], rest)
  | cs => (takeSpaced 10 cs).map fun (ds, rest) => (negative, ds, rest)

def fitted? (n : Int) : Option Int := if isInteger n then some n else none

def takeBased (base : Nat) (cs : List Char) : Option (Value × Rest) := do
  let (digits, rest) ← takeSpaced base cs
  let n ← Digits.valueOf? base digits
  let n ← fitted? n
  some (.int n, rest)

def takeExponent (cs : List Char) : Option (Int × Rest) := do
  let (negative, cs) := match cs with
    | '-' :: rest => (true, rest)
    | '+' :: rest => (false, rest)
    | cs => (false, cs)
  let (digits, rest) ← takeSpaced 10 cs
  let n ← Digits.valueOf? 10 digits
  some (if negative then -(n : Int) else n, rest)

/-- A float out of its parts. One that would be infinite is refused, unless it is
negative. -/
def floatOf? (negative : Bool) (whole fraction : List Char) (exponent : Int) : Option Value := do
  let mantissa ← Digits.valueOf? 10 (whole ++ fraction)
  let x := Decimal.nearestSigned negative mantissa (exponent - fraction.length)
  if x.isInf && !negative then none else some (.float x)

def isExponentMark (c : Char) : Bool := c = 'e' || c = 'E'

def takeNumberTail (negative : Bool) (whole : List Char) (rest : Rest) : Option (Value × Rest) :=
  match rest with
  | '.' :: rest => do
      let (fraction, rest) ← takeSpaced 10 rest
      match rest with
      | c :: more =>
          if isExponentMark c then do
            let (exponent, rest) ← takeExponent more
            let v ← floatOf? negative whole fraction exponent
            some (v, rest)
          else do
            let v ← floatOf? negative whole fraction 0
            some (v, c :: more)
      | [] => do
          let v ← floatOf? negative whole fraction 0
          some (v, [])
  | c :: more =>
      if isExponentMark c then do
        let (exponent, rest) ← takeExponent more
        let v ← floatOf? negative whole [] exponent
        some (v, rest)
      else do
        let n ← Digits.valueOf? 10 whole
        let n ← fitted? (if negative then -(n : Int) else n)
        some (.int n, c :: more)
  | [] => do
      let n ← Digits.valueOf? 10 whole
      let n ← fitted? (if negative then -(n : Int) else n)
      some (.int n, [])

def takeSpecial : List Char → Option (Value × Rest)
  | 'i' :: 'n' :: 'f' :: rest => some (.float Decimal.infinity, rest)
  | 'n' :: 'a' :: 'n' :: rest => some (.float (0.0 / 0.0), rest)
  | '+' :: 'i' :: 'n' :: 'f' :: rest => some (.float Decimal.infinity, rest)
  | '+' :: 'n' :: 'a' :: 'n' :: rest => some (.float (0.0 / 0.0), rest)
  | '-' :: 'i' :: 'n' :: 'f' :: rest => some (.float (-Decimal.infinity), rest)
  | '-' :: 'n' :: 'a' :: 'n' :: rest => some (.float (0.0 / 0.0), rest)
  | _ => none

def takeNumber (cs : List Char) : Option (Value × Rest) :=
  match takeSpecial cs with
  | some r => some r
  | none =>
      match cs with
      | '0' :: 'x' :: rest => takeBased 16 rest
      | '0' :: 'o' :: rest => takeBased 8 rest
      | '0' :: 'b' :: rest => takeBased 2 rest
      | cs => do
          let (negative, whole, rest) ← takeDecimal cs
          takeNumberTail negative whole rest

def takeTwo (low high : Nat) : List Char → Option (Nat × Rest)
  | a :: b :: rest => do
      let n ← Digits.valueOf? 10 [a, b]
      if low ≤ n ∧ n ≤ high then some (n, rest) else none
  | _ => none

def takeMark (mark : Char) : List Char → Option Rest
  | c :: rest => if c = mark then some rest else none
  | [] => none

def daysIn (year month : Nat) : Nat :=
  if month = 2 then
    if year % 4 = 0 ∧ (year % 100 ≠ 0 ∨ year % 400 = 0) then 29 else 28
  else if month = 4 ∨ month = 6 ∨ month = 9 ∨ month = 11 then 30
  else 31

def takeMonthDay (year : Nat) (cs : List Char) : Option Rest := do
  let rest ← takeMark '-' cs
  let (month, rest) ← takeTwo 1 12 rest
  let rest ← takeMark '-' rest
  let (_, rest) ← takeTwo 1 (daysIn year month) rest
  some rest

def takeMinutes (cs : List Char) : Option Rest := do
  let (_, rest) ← takeTwo 0 59 cs
  let rest ← takeMark ':' rest
  let (_, rest) ← takeTwo 0 60 rest
  match rest with
  | '.' :: more =>
      let digits := more.takeWhile Digits.isDecimal
      if digits = [] then none else some (more.dropWhile Digits.isDecimal)
  | rest => some rest

def takeOffset (cs : List Char) : Option Rest :=
  match cs with
  | c :: rest =>
      if c = 'Z' ∨ c = 'z' then some rest
      else if c = '+' ∨ c = '-' then do
        let (_, rest) ← takeTwo 0 23 rest
        let rest ← takeMark ':' rest
        let (_, rest) ← takeTwo 0 59 rest
        some rest
      else some cs
  | [] => some []

/-- A time with an offset, if one comes next; an hour and a colon promise it. -/
def takeTimeAfterDate (cs : List Char) : Option Rest :=
  match cs with
  | c :: rest =>
      if c = 'T' ∨ c = 't' ∨ c = ' ' then
        match takeTwo 0 23 rest with
        | some (_, ':' :: rest) => do
            let rest ← takeMinutes rest
            takeOffset rest
        | _ => some cs
      else some cs
  | [] => some []

def startsDate : List Char → Bool
  | a :: b :: c :: d :: '-' :: _ => [a, b, c, d].all Digits.isDecimal
  | _ => false

def startsTime : List Char → Bool
  | a :: b :: ':' :: _ => [a, b].all Digits.isDecimal
  | _ => false

def takeMoment (cs : List Char) : Option (Value × Rest) :=
  if startsDate cs then do
    let year ← Digits.valueOf? 10 (cs.take 4)
    let rest ← takeMonthDay year (cs.drop 4)
    let rest ← takeTimeAfterDate rest
    some (.moment, rest)
  else do
    let (_, rest) ← takeTwo 0 23 cs
    let rest ← takeMark ':' rest
    let rest ← takeMinutes rest
    some (.moment, rest)

def takeScalar (cs : List Char) : Option (Value × Rest) :=
  if startsDate cs || startsTime cs then takeMoment cs else takeNumber cs

end AdmissionGate.Toml
