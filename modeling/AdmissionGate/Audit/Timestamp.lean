import AdmissionGate.Text.Blank
import AdmissionGate.Text.Digits

/-!
Moments of universal time, to the nanosecond, and their text. One form is
written. Reading also takes other offsets, which are reckoned in, numbers with
fewer digits, and blanks between the parts.
-/

namespace AdmissionGate

structure Date where
  year : Int
  month : Nat
  day : Nat
deriving DecidableEq

/-- A minute of a day, a second of that minute, and a fraction. In a leap second the
second is 59 and the fraction reaches beyond a billion. -/
structure Timestamp where
  date : Date
  minute : Nat
  second : Nat
  nanos : Nat
deriving DecidableEq

namespace Date

def isLeapYear (year : Int) : Bool := year % 4 = 0 && (year % 100 ≠ 0 || year % 400 = 0)

def daysIn (year : Int) (month : Nat) : Nat :=
  if month = 2 then (if isLeapYear year then 29 else 28)
  else if month = 4 ∨ month = 6 ∨ month = 9 ∨ month = 11 then 30
  else 31

def isInRange (d : Date) : Bool := -262143 ≤ d.year && d.year ≤ 262142

def isValid (d : Date) : Bool :=
  d.isInRange && 1 ≤ d.month && d.month ≤ 12 && 1 ≤ d.day && d.day ≤ daysIn d.year d.month

def next (d : Date) : Date :=
  if d.day < daysIn d.year d.month then { d with day := d.day + 1 }
  else if d.month < 12 then { d with month := d.month + 1, day := 1 }
  else ⟨d.year + 1, 1, 1⟩

def previous (d : Date) : Date :=
  if 1 < d.day then { d with day := d.day - 1 }
  else if 1 < d.month then { d with month := d.month - 1, day := daysIn d.year (d.month - 1) }
  else ⟨d.year - 1, 12, 31⟩

/-- Years from 0 to 9999 have four digits, others a sign and at least four. -/
def yearText (year : Int) : List Char :=
  if 0 ≤ year ∧ year ≤ 9999 then Digits.padLeft 4 (Digits.render 10 year.natAbs)
  else
    (if year < 0 then '-' else '+') :: Digits.padLeft 4 (Digits.render 10 year.natAbs)

end Date

def twoDigits (n : Nat) : List Char := Digits.padLeft 2 (Digits.render 10 n)

namespace Timestamp

/-- A fraction of a second with three, six or nine digits, the fewest that are exact. -/
def fractionText (nanos : Nat) : List Char :=
  if nanos = 0 then []
  else if nanos % 1000000 = 0 then '.' :: Digits.padLeft 3 (Digits.render 10 (nanos / 1000000))
  else if nanos % 1000 = 0 then '.' :: Digits.padLeft 6 (Digits.render 10 (nanos / 1000))
  else '.' :: Digits.padLeft 9 (Digits.render 10 nanos)

def toChars (t : Timestamp) : List Char :=
  let leaps := 1000000000 ≤ t.nanos
  Date.yearText t.date.year ++ '-' :: twoDigits t.date.month ++ '-' :: twoDigits t.date.day ++
    'T' :: twoDigits (t.minute / 60) ++ ':' :: twoDigits (t.minute % 60) ++
    ':' :: twoDigits (if leaps then t.second + 1 else t.second) ++
    fractionText (if leaps then t.nanos - 1000000000 else t.nanos) ++ ['Z']

def takeNumber (most : Nat) (cs : List Char) : Option (Nat × List Char) := do
  let cs := Blank.dropLeading cs
  let digits := (cs.take most).takeWhile Digits.isDecimal
  if digits = [] then none
  else do
    let n ← Digits.valueOf? 10 digits
    some (n, cs.drop digits.length)

def takeBetween (low high most : Nat) (cs : List Char) : Option (Nat × List Char) := do
  let (n, rest) ← takeNumber most cs
  if low ≤ n ∧ n ≤ high then some (n, rest) else none

def takeYear (cs : List Char) : Option (Int × List Char) :=
  match Blank.dropLeading cs with
  | '-' :: rest => do
      let digits := rest.takeWhile Digits.isDecimal
      if digits = [] then none
      else do
        let n ← Digits.valueOf? 10 digits
        some (-(n : Int), rest.drop digits.length)
  | '+' :: rest => do
      let digits := rest.takeWhile Digits.isDecimal
      if digits = [] then none
      else do
        let n ← Digits.valueOf? 10 digits
        some ((n : Int), rest.drop digits.length)
  | cs => (takeNumber 4 cs).map fun (n, rest) => ((n : Int), rest)

def takeMark (mark : Char) (cs : List Char) : Option (List Char) :=
  match Blank.dropLeading cs with
  | c :: rest => if c = mark then some rest else none
  | [] => none

def takeFraction (cs : List Char) : Option (Nat × List Char) :=
  match cs with
  | '.' :: rest => do
      let digits := rest.takeWhile Digits.isDecimal
      if digits = [] then none
      else do
        let n ← Digits.valueOf? 10 ((digits ++ List.replicate 9 '0').take 9)
        some (n, rest.drop digits.length)
  | cs => some (0, cs)

/-- Minutes that a local time is ahead of universal time. -/
def takeOffset (cs : List Char) : Option (Int × List Char) :=
  match cs with
  | [] => none
  | c :: rest =>
      if c = 'Z' ∨ c = 'z' then some (0, rest)
      else if (c :: rest).take 3 |>.map Char.toUpper |> (· = ['U', 'T', 'C']) then
        some (0, rest.drop 2)
      else do
        let negative ←
          if c = '+' then some false else if c = '-' ∨ c = '−' then some true else none
        let hours ← if (rest.take 2).length = 2 then Digits.valueOf? 10 (rest.take 2) else none
        let rest := (rest.drop 2).dropWhile fun c => c = ':' || Blank.isBlank c
        let minutes ← if (rest.take 2).length = 2 then Digits.valueOf? 10 (rest.take 2) else none
        if 59 < minutes then none
        else
          let ahead : Int := hours * 60 + minutes
          some (if negative then -ahead else ahead, rest.drop 2)

def ofLocal? (date : Date) (minute second nanos : Nat) (ahead : Int) : Option Timestamp :=
  if ahead ≤ -1440 ∨ 1440 ≤ ahead then none
  else
    let m := (minute : Int) - ahead
    let t : Timestamp :=
      if m < 0 then ⟨date.previous, (m + 1440).toNat, second, nanos⟩
      else if 1440 ≤ m then ⟨date.next, (m - 1440).toNat, second, nanos⟩
      else ⟨date, m.toNat, second, nanos⟩
    if t.date.isInRange then some t else none

def ofChars? (cs : List Char) : Option Timestamp := do
  let (year, rest) ← takeYear cs
  let rest ← takeMark '-' rest
  let (month, rest) ← takeBetween 1 12 2 rest
  let rest ← takeMark '-' rest
  let (day, rest) ← takeBetween 1 31 2 rest
  let rest ← match rest with
    | c :: rest => if c = 'T' ∨ c = 't' ∨ c = ' ' then some rest else none
    | [] => none
  let (hour, rest) ← takeBetween 0 23 2 rest
  let rest ← takeMark ':' rest
  let (minute, rest) ← takeBetween 0 59 2 rest
  let rest ← takeMark ':' rest
  let (second, rest) ← takeBetween 0 60 2 rest
  let (nanos, rest) ← takeFraction rest
  let (ahead, rest) ← takeOffset (Blank.dropLeading rest)
  let date : Date := ⟨year, month, day⟩
  if !Blank.isAllBlank rest || !date.isValid then none
  else if second = 60 then ofLocal? date (hour * 60 + minute) 59 (nanos + 1000000000) ahead
  else ofLocal? date (hour * 60 + minute) second nanos ahead

end Timestamp

end AdmissionGate
