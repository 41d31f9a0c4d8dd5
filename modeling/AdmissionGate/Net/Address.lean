import AdmissionGate.Text.Digits

/-!
Addresses of the fourth and sixth version of the internet protocol, and their
text. Only the canonical text is written; reading takes every spelling without
leading zeros in dotted parts.
-/

namespace AdmissionGate

inductive Address where
  | v4 (octets : Vector UInt8 4)
  | v6 (groups : Vector UInt16 8)
deriving DecidableEq

namespace Address

def dotted (octets : List UInt8) : List Char :=
  ['.'].intercalate (octets.map fun o => Digits.render 10 o.toNat)

def colons (groups : List UInt16) : List Char :=
  [':'].intercalate (groups.map fun g => Digits.render 16 g.toNat)

def zeroRun (groups : List UInt16) : Nat := (groups.takeWhile (· = 0)).length

/-- Start and length of the first longest run of zeros; the length may be zero. -/
def longestZeroRun : List UInt16 → Nat × Nat
  | [] => (0, 0)
  | g :: rest =>
      let (start, length) := longestZeroRun rest
      let here := zeroRun (g :: rest)
      if length ≤ here then (0, here) else (start + 1, length)

def tailOctets (groups : List UInt16) : List UInt8 :=
  (groups.drop 6).flatMap fun g => [(g.toNat / 256).toUInt8, (g.toNat % 256).toUInt8]

def isMapped (groups : List UInt16) : Bool := groups.take 6 = [0, 0, 0, 0, 0, 0xffff]

def groupsText (groups : List UInt16) : List Char :=
  if isMapped groups then [':', ':', 'f', 'f', 'f', 'f', ':'] ++ dotted (tailOctets groups)
  else
    let (start, length) := longestZeroRun groups
    if length < 2 then colons groups
    else colons (groups.take start) ++ [':', ':'] ++ colons (groups.drop (start + length))

def toChars : Address → List Char
  | v4 octets => dotted octets.toList
  | v6 groups => groupsText groups.toList

def text (a : Address) : String := String.ofList a.toChars

def takeDigits (base : Nat) (cs : List Char) : List Char × List Char :=
  cs.span fun c => (Digits.value? base c).isSome

/-- A decimal number up to 255 without leading zeros. -/
def takeOctet (cs : List Char) : Option (UInt8 × List Char) := do
  let (digits, rest) := takeDigits 10 cs
  if digits = [] ∨ 3 < digits.length ∨ (digits.head? = some '0' ∧ 1 < digits.length) then none
  else do
    let n ← Digits.valueOf? 10 digits
    if n < 256 then some (UInt8.ofNat n, rest) else none

def takeGroup (cs : List Char) : Option (UInt16 × List Char) := do
  let (digits, rest) := takeDigits 16 cs
  if digits = [] ∨ 4 < digits.length then none
  else do
    let n ← Digits.valueOf? 16 digits
    some (UInt16.ofNat n, rest)

def takeMark (mark : Char) : List Char → Option (List Char)
  | c :: rest => if c = mark then some rest else none
  | [] => none

def takeDotted (cs : List Char) : Option (Vector UInt8 4 × List Char) := do
  let (a, rest) ← takeOctet cs
  let rest ← takeMark '.' rest
  let (b, rest) ← takeOctet rest
  let rest ← takeMark '.' rest
  let (c, rest) ← takeOctet rest
  let rest ← takeMark '.' rest
  let (d, rest) ← takeOctet rest
  some (#v[a, b, c, d], rest)

/-- Groups read in a row, and whether the last two were written as octets. -/
structure Groups where
  values : List UInt16
  endsDotted : Bool
  rest : List Char

def pairOf (high low : UInt8) : UInt16 := UInt16.ofNat (256 * high.toNat + low.toNat)

/-- As many groups as come, up to `room`, each but the first after a colon. The last two
may be written as octets. -/
def takeGroups (isFirst : Bool) : Nat → List Char → Groups
  | 0, cs => ⟨[], false, cs⟩
  | room + 1, cs =>
      match (if isFirst then some cs else takeMark ':' cs) with
      | none => ⟨[], false, cs⟩
      | some inner =>
          match (if room = 0 then none else takeDotted inner) with
          | some (octets, rest) =>
              ⟨[pairOf octets[0] octets[1], pairOf octets[2] octets[3]], true, rest⟩
          | none =>
              match takeGroup inner with
              | none => ⟨[], false, cs⟩
              | some (g, rest) =>
                  let more := takeGroups false room rest
                  ⟨g :: more.values, more.endsDotted, more.rest⟩

def ofGroups? (groups : List UInt16) : Option (Vector UInt16 8) :=
  if h : groups.length = 8 then some ⟨groups.toArray, by simp [h]⟩ else none

/-- Eight groups; a double colon stands for one or more groups of zeros. -/
def takeColons (cs : List Char) : Option (Vector UInt16 8 × List Char) := do
  let head := takeGroups true 8 cs
  if head.values.length = 8 then (ofGroups? head.values).map (·, head.rest)
  else if head.endsDotted then none
  else do
    let rest ← takeMark ':' head.rest
    let rest ← takeMark ':' rest
    let tail := takeGroups true (7 - head.values.length) rest
    let zeros := List.replicate (8 - head.values.length - tail.values.length) 0
    (ofGroups? (head.values ++ zeros ++ tail.values)).map (·, tail.rest)

def ofChars? (cs : List Char) : Option Address :=
  match takeDotted cs with
  | some (octets, rest) => if rest = [] then some (v4 octets) else none
  | none =>
      match takeColons cs with
      | some (groups, rest) => if rest = [] then some (v6 groups) else none
      | none => none

def ofText? (s : String) : Option Address := ofChars? s.toList

end Address

end AdmissionGate
