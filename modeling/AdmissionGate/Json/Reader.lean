import AdmissionGate.Json.Basic

/-!
Reading JSON text. Blanks are the four that JSON knows; a string may hold every
character but quotes, backslashes and control characters as itself; and after
the document nothing but blanks may follow.
-/

namespace AdmissionGate.Json

def isBlank (c : Char) : Bool := c = ' ' || c = '\t' || c = '\n' || c = '\r'

def skipBlanks (cs : List Char) : List Char := cs.dropWhile isBlank

def takeDigits (cs : List Char) : List Char × List Char := cs.span Digits.isDecimal

def takeUnsigned (negative : Bool) (cs : List Char) : Option (Numeral × List Char) := do
  let (whole, rest) := takeDigits cs
  if whole = [] ∨ (whole.head? = some '0' ∧ whole ≠ ['0']) then none
  else do
    let (fraction, rest) ←
      match rest with
      | '.' :: more =>
          let (digits, rest) := takeDigits more
          if digits = [] then none else some (digits, rest)
      | _ => some ([], rest)
    let (exponent, rest) ←
      match rest with
      | c :: more =>
          if c = 'e' ∨ c = 'E' then do
            let (minus, more) := match more with
              | '-' :: more => (true, more)
              | '+' :: more => (false, more)
              | more => (false, more)
            let (digits, rest) := takeDigits more
            if digits = [] then none
            else do
              let n ← Digits.valueOf? 10 digits
              some (some (if minus then -(n : Int) else (n : Int)), rest)
          else some (none, rest)
      | [] => some (none, rest)
    some ({ negative, whole, fraction, exponent }, rest)

def shortEscape? : Char → Option Char
  | '"' => some '"'
  | '\\' => some '\\'
  | '/' => some '/'
  | 'b' => some '\x08'
  | 'f' => some '\x0c'
  | 'n' => some '\n'
  | 'r' => some '\r'
  | 't' => some '\t'
  | _ => none

inductive Piece where
  | char (c : Char)
  /-- A UTF-16 code unit that was written as an escape. -/
  | unit (n : Nat)

def takePieces : List Char → Option (List Piece × List Char)
  | [] => none
  | '"' :: rest => some ([], rest)
  | '\\' :: 'u' :: a :: b :: c :: d :: rest => do
      let unit ← Digits.valueOf? 16 [a, b, c, d]
      let (pieces, rest) ← takePieces rest
      some (.unit unit :: pieces, rest)
  | '\\' :: e :: rest => do
      let c ← shortEscape? e
      let (pieces, rest) ← takePieces rest
      some (.char c :: pieces, rest)
  | c :: rest =>
      if c.toNat < 0x20 ∨ c = '\\' then none
      else do
        let (pieces, rest) ← takePieces rest
        some (.char c :: pieces, rest)

def isHighSurrogate (n : Nat) : Bool := 0xd800 ≤ n && n < 0xdc00

def isLowSurrogate (n : Nat) : Bool := 0xdc00 ≤ n && n < 0xe000

/-- The text of a string; two surrogates in a row are one character, and one that
stands alone is none. -/
def textOf? : List Piece → Option (List Char)
  | [] => some []
  | .char c :: rest => (textOf? rest).map (c :: ·)
  | [.unit a] => if isHighSurrogate a || isLowSurrogate a then none else some [Char.ofNat a]
  | .unit a :: .unit b :: rest =>
      if isHighSurrogate a then
        if isLowSurrogate b then
          (textOf? rest).map (Char.ofNat (0x10000 + (a - 0xd800) * 0x400 + (b - 0xdc00)) :: ·)
        else none
      else if isLowSurrogate a then none
      else (textOf? (.unit b :: rest)).map (Char.ofNat a :: ·)
  | .unit a :: .char c :: rest =>
      if isHighSurrogate a || isLowSurrogate a then none
      else (textOf? rest).map fun cs => Char.ofNat a :: c :: cs

def takeString (cs : List Char) : Option (Option String × List Char) := do
  let (pieces, rest) ← takePieces cs
  some ((textOf? pieces).map String.ofList, rest)

mutual

/-- A value, after blanks. Each level of nesting and each item takes a unit of
`fuel`; as many as there are characters are enough. -/
def takeValue : Nat → List Char → Option (Json × List Char)
  | 0, _ => none
  | fuel + 1, cs =>
      match skipBlanks cs with
      | 'n' :: 'u' :: 'l' :: 'l' :: rest => some (null, rest)
      | 't' :: 'r' :: 'u' :: 'e' :: rest => some (bool true, rest)
      | 'f' :: 'a' :: 'l' :: 's' :: 'e' :: rest => some (bool false, rest)
      | '"' :: rest => (takeString rest).map fun (s, rest) => (string s, rest)
      | '[' :: rest =>
          match skipBlanks rest with
          | ']' :: rest => some (array [], rest)
          | _ => (takeItems fuel rest).map fun (items, rest) => (array items, rest)
      | '\x7b' :: rest =>
          match skipBlanks rest with
          | '\x7d' :: rest => some (object [], rest)
          | _ => (takeMembers fuel rest).map fun (members, rest) => (object members, rest)
      | '-' :: rest => (takeUnsigned true rest).map fun (n, rest) => (number n, rest)
      | cs => (takeUnsigned false cs).map fun (n, rest) => (number n, rest)

def takeItems : Nat → List Char → Option (List Json × List Char)
  | 0, _ => none
  | fuel + 1, cs => do
      let (item, rest) ← takeValue fuel cs
      match skipBlanks rest with
      | ']' :: rest => some ([item], rest)
      | ',' :: rest => (takeItems fuel rest).map fun (items, rest) => (item :: items, rest)
      | _ => none

def takeMembers : Nat → List Char → Option (List (Option String × Json) × List Char)
  | 0, _ => none
  | fuel + 1, cs =>
      match skipBlanks cs with
      | '"' :: rest => do
          let (key, rest) ← takeString rest
          match skipBlanks rest with
          | ':' :: rest => do
              let (item, rest) ← takeValue fuel rest
              match skipBlanks rest with
              | '\x7d' :: rest => some ([(key, item)], rest)
              | ',' :: rest =>
                  (takeMembers fuel rest).map fun (members, rest) =>
                    ((key, item) :: members, rest)
              | _ => none
          | _ => none
      | _ => none

end

def ofChars? (cs : List Char) : Option Json := do
  let (v, rest) ← takeValue (cs.length + 1) cs
  if skipBlanks rest = [] then some v else none

def ofString? (s : String) : Option Json := ofChars? s.toList

end AdmissionGate.Json
