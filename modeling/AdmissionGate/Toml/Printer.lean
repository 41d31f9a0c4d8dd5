import AdmissionGate.Decimal.Shortest
import AdmissionGate.Toml.Basic

/-!
Writing data as TOML. A table gives its plain entries first, one a line, and
then each table in it under a header of its own, after an empty line. Lists
stand on one line while they have at most one item.
-/

namespace AdmissionGate.Toml

inductive Quotes where
  | basic
  /-- Three double quotes, and escapes for all but line ends and short runs of quotes. -/
  | basicLines
  | literal
  /-- Three single quotes, and everything as itself. -/
  | literalLines
deriving DecidableEq

def longestRun (x : Char) (run best : Nat) : List Char → Nat
  | [] => max run best
  | c :: rest =>
      if c = x then longestRun x (run + 1) best rest else longestRun x 0 (max run best) rest

def needsEscape (c : Char) : Bool :=
  (c.toNat < 0x20 && c ≠ '\t' && c ≠ '\n') || c.toNat = 0x7f

/-- The first kind of quotes that needs no escapes, in the order basic, literal, and then
each over several lines; basic ones with escapes if there is none. -/
def quotesFor (cs : List Char) : Quotes :=
  let lines := cs.contains '\n'
  let escapes := cs.any needsEscape
  let backslash := cs.contains '\\'
  if !escapes && !backslash && !lines && !cs.contains '"' then .basic
  else if !escapes && !lines && !cs.contains '\x27' then .literal
  else if !escapes && !backslash && longestRun '"' 0 0 cs ≤ 2 then .basicLines
  else if !escapes && longestRun '\x27' 0 0 cs ≤ 2 then .literalLines
  else if lines then .basicLines
  else .basic

def escapeChar (c : Char) : List Char :=
  match c with
  | '\x08' => ['\\', 'b']
  | '\t' => ['\\', 't']
  | '\n' => ['\\', 'n']
  | '\x0c' => ['\\', 'f']
  | '\r' => ['\\', 'r']
  | '"' => ['\\', '"']
  | '\\' => ['\\', '\\']
  | c =>
      if c.toNat < 0x20 ∨ c.toNat = 0x7f then
        '\\' :: 'u' :: (Digits.padLeft 4 (Digits.render 16 c.toNat)).map Char.toUpper
      else [c]

/-- Characters of a string over several lines, after `run` quotes in a row: a third
quote is escaped. -/
def escapeLines (run : Nat) : List Char → List Char
  | [] => []
  | '\n' :: rest => '\n' :: escapeLines 0 rest
  | '"' :: rest =>
      if run < 2 then '"' :: escapeLines (run + 1) rest
      else '\\' :: '"' :: escapeLines 0 rest
  | c :: rest => escapeChar c ++ escapeLines 0 rest

/-- A line end follows opening triple quotes if the string has one. -/
def opening (quote : Char) (cs : List Char) : List Char :=
  [quote, quote, quote] ++ if cs.contains '\n' then ['\n'] else []

def renderText (cs : List Char) : List Char :=
  match quotesFor cs with
  | .basic => '"' :: cs.flatMap escapeChar ++ ['"']
  | .basicLines => opening '"' cs ++ escapeLines 0 cs ++ ['"', '"', '"']
  | .literal => '\x27' :: cs ++ ['\x27']
  | .literalLines => opening '\x27' cs ++ cs ++ ['\x27', '\x27', '\x27']

def renderInt? (n : Int) : Option (List Char) :=
  if isInteger n then some (Digits.decimalOfInt n).toList else none

def isTable : Datum → Bool
  | .table _ => true
  | _ => false

def listText (items : List (List Char)) : List Char :=
  match items with
  | [] => ['[', ']']
  | [item] => '[' :: item ++ [']']
  | items =>
      ['[', '\n'] ++ items.flatMap (fun item => [' ', ' ', ' ', ' '] ++ item ++ [',', '\n']) ++
        [']']

mutual

def renderValue? : Datum → Option (List Char)
  | .bool true => some ['t', 'r', 'u', 'e']
  | .bool false => some ['f', 'a', 'l', 's', 'e']
  | .int n => renderInt? n
  | .float x => some (Decimal.text x)
  | .text s => some (renderText s.toList)
  | .list items => (renderItems? items).map listText
  | .null | .moment | .table _ => none

def renderItems? : List Datum → Option (List (List Char))
  | [] => some []
  | item :: items => do
      let first ← renderValue? item
      let rest ← renderItems? items
      some (first :: rest)

end

def renderPlain? : List (String × Datum) → Option (List Char)
  | [] => some []
  | (_, .null) :: rest | (_, .table _) :: rest => renderPlain? rest
  | (key, d) :: rest => do
      let value ← renderValue? d
      let rest ← renderPlain? rest
      some (key.toList ++ [' ', '=', ' '] ++ value ++ '\n' :: rest)

/-- The header of a table: only plain entries, or none at all, need one. -/
def headerText (path : List String) (entries : List (String × Datum)) : List Char :=
  if path = [] ∨ (entries ≠ [] ∧ entries.all (isTable ·.2)) then []
  else '[' :: ['.'].intercalate (path.map String.toList) ++ [']', '\n']

/-- An empty line stands before a header, unless the text starts with it. -/
def join (front back : List Char) : List Char :=
  if front = [] ∨ back.head? ≠ some '[' then front ++ back else front ++ '\n' :: back

mutual

def renderTable? (path : List String) : Datum → Option (List Char)
  | .table entries => do
      let plain ← renderPlain? entries
      let inner ← renderInner? path entries
      some (join (headerText path entries ++ plain) inner)
  | _ => some []

def renderInner? (path : List String) : List (String × Datum) → Option (List Char)
  | [] => some []
  | (key, d) :: rest => do
      let first ← renderTable? (path ++ [key]) d
      let rest ← renderInner? path rest
      some (join first rest)

end

/-- The text of a document; there is none if an integer does not fit the format. -/
def text? (d : Datum) : Option String := (renderTable? [] d).map String.ofList

end AdmissionGate.Toml
