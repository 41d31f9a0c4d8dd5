import AdmissionGate.Text.Digits

/-!
The four kinds of TOML strings. Basic ones know escapes, literal ones do not;
each comes on one line, or over several between triple quotes. The functions
take a string after its opening quotes, and give what follows the closing ones.
-/

namespace AdmissionGate.Toml

def isBlank (c : Char) : Bool := c = ' ' || c = '\t'

def skipBlanks (cs : List Char) : List Char := cs.dropWhile isBlank

/-- What may stand in a comment or, quotes and backslashes apart, in a string: all but
control characters, though a tab may. -/
def isPlain (c : Char) : Bool := c = '\t' || (0x20 ≤ c.toNat && c.toNat ≠ 0x7f)

def takeLineEnd : List Char → Option (List Char)
  | '\n' :: rest => some rest
  | '\r' :: '\n' :: rest => some rest
  | _ => none

/-- A line end right after opening triple quotes does not count. -/
def dropLineEnd (cs : List Char) : List Char := (takeLineEnd cs).getD cs

def shortEscape? : Char → Option Char
  | '"' => some '"'
  | '\\' => some '\\'
  | 'b' => some '\x08'
  | 't' => some '\t'
  | 'n' => some '\n'
  | 'f' => some '\x0c'
  | 'r' => some '\r'
  | _ => none

def charOfHex? (digits : List Char) : Option Char := do
  let n ← Digits.valueOf? 16 digits
  if n.isValidChar then some (Char.ofNat n) else none

abbrev Taken := Option (List Char × List Char)

def Taken.cons (c : Char) (t : Taken) : Taken := t.map fun (text, rest) => (c :: text, rest)

def takeBasic : List Char → Taken
  | [] => none
  | '"' :: rest => some ([], rest)
  | '\\' :: 'u' :: a :: b :: c :: d :: rest => do
      let x ← charOfHex? [a, b, c, d]
      Taken.cons x (takeBasic rest)
  | '\\' :: 'U' :: a :: b :: c :: d :: e :: f :: g :: h :: rest => do
      let x ← charOfHex? [a, b, c, d, e, f, g, h]
      Taken.cons x (takeBasic rest)
  | '\\' :: e :: rest => do
      let x ← shortEscape? e
      Taken.cons x (takeBasic rest)
  | c :: rest => if isPlain c ∧ c ≠ '\\' then Taken.cons c (takeBasic rest) else none

def takeLiteral : List Char → Taken
  | [] => none
  | '\x27' :: rest => some ([], rest)
  | c :: rest => if isPlain c then Taken.cons c (takeLiteral rest) else none

def joinsLines (cs : List Char) : Bool := (takeLineEnd (skipBlanks cs)).isSome

/-- A basic string over several lines. While `joining`, blanks and line ends are passed
over; up to two quotes may stand right before the closing three. -/
def takeBasicLines (joining : Bool) : List Char → Taken
  | [] => none
  | '"' :: '"' :: '"' :: '"' :: '"' :: rest => some (['"', '"'], rest)
  | '"' :: '"' :: '"' :: '"' :: rest => some (['"'], rest)
  | '"' :: '"' :: '"' :: rest => some ([], rest)
  | '\\' :: 'u' :: a :: b :: c :: d :: rest => do
      let x ← charOfHex? [a, b, c, d]
      Taken.cons x (takeBasicLines false rest)
  | '\\' :: 'U' :: a :: b :: c :: d :: e :: f :: g :: h :: rest => do
      let x ← charOfHex? [a, b, c, d, e, f, g, h]
      Taken.cons x (takeBasicLines false rest)
  | '\\' :: e :: rest =>
      match shortEscape? e with
      | some x => Taken.cons x (takeBasicLines false rest)
      | none => if joinsLines (e :: rest) then takeBasicLines true (e :: rest) else none
  | '\r' :: '\n' :: rest =>
      if joining then takeBasicLines true rest else Taken.cons '\n' (takeBasicLines false rest)
  | '\n' :: rest =>
      if joining then takeBasicLines true rest else Taken.cons '\n' (takeBasicLines false rest)
  | c :: rest =>
      if joining && isBlank c then takeBasicLines true rest
      else if isPlain c ∧ c ≠ '\\' then Taken.cons c (takeBasicLines false rest)
      else none

def takeLiteralLines : List Char → Taken
  | [] => none
  | '\x27' :: '\x27' :: '\x27' :: '\x27' :: '\x27' :: rest => some (['\x27', '\x27'], rest)
  | '\x27' :: '\x27' :: '\x27' :: '\x27' :: rest => some (['\x27'], rest)
  | '\x27' :: '\x27' :: '\x27' :: rest => some ([], rest)
  | '\r' :: '\n' :: rest => Taken.cons '\n' (takeLiteralLines rest)
  | '\n' :: rest => Taken.cons '\n' (takeLiteralLines rest)
  | c :: rest => if isPlain c then Taken.cons c (takeLiteralLines rest) else none

def takeText : List Char → Taken
  | '"' :: '"' :: '"' :: rest => takeBasicLines false (dropLineEnd rest)
  | '"' :: rest => takeBasic rest
  | '\x27' :: '\x27' :: '\x27' :: rest => takeLiteralLines (dropLineEnd rest)
  | '\x27' :: rest => takeLiteral rest
  | _ => none

end AdmissionGate.Toml
