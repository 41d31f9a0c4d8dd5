import AdmissionGate.Toml.Scalar

/-!
The statements of a TOML text. Values nest at most 79 deep, and keys have at
most 79 parts.
-/

namespace AdmissionGate.Toml

/-- Values may not nest as deep as this, nor keys have as many parts. -/
def depthLimit : Nat := 80

def isBareKeyChar (c : Char) : Bool := c.isAlphanum || c = '-' || c = '_'

def takeKeyPart (cs : List Char) : Option (String × Rest) :=
  match cs with
  | '"' :: rest => (takeBasic rest).map fun (s, rest) => (String.ofList s, rest)
  | '\x27' :: rest => (takeLiteral rest).map fun (s, rest) => (String.ofList s, rest)
  | cs =>
      match cs.span isBareKeyChar with
      | ([], _) => none
      | (s, rest) => some (String.ofList s, rest)

def takeKey : Nat → List Char → Option (Path × Rest)
  | 0, _ => none
  | room + 1, cs => do
      let (part, rest) ← takeKeyPart (skipBlanks cs)
      match skipBlanks rest with
      | '.' :: rest => (takeKey room rest).map fun (path, rest) => (part :: path, rest)
      | rest => some ([part], rest)

def skipComment (cs : List Char) : List Char := cs.dropWhile isPlain

def skipLines : Nat → List Char → Rest
  | 0, cs => cs
  | fuel + 1, cs =>
      match skipBlanks cs with
      | '#' :: rest =>
          match takeLineEnd (skipComment rest) with
          | some rest => skipLines fuel rest
          | none => '#' :: rest
      | cs =>
          match takeLineEnd cs with
          | some rest => skipLines fuel rest
          | none => cs

mutual

/-- A value, `depth` arrays and tables deep. Each level and each item takes a unit of
`fuel`; as many as there are characters are enough. -/
def takeValue : Nat → Nat → List Char → Option (Value × Rest)
  | 0, _, _ => none
  | fuel + 1, depth, cs =>
      match cs with
      | '"' :: _ => (takeText cs).map fun (s, rest) => (.text (String.ofList s), rest)
      | '\x27' :: _ => (takeText cs).map fun (s, rest) => (.text (String.ofList s), rest)
      | 't' :: 'r' :: 'u' :: 'e' :: rest => some (.bool true, rest)
      | 'f' :: 'a' :: 'l' :: 's' :: 'e' :: rest => some (.bool false, rest)
      | '[' :: rest =>
          if depthLimit ≤ depth + 1 then none
          else
            (takeItems fuel (depth + 1) rest).map fun (items, rest) => (.array items, rest)
      | '\x7b' :: rest =>
          if depthLimit ≤ depth + 1 then none
          else
            match skipBlanks rest with
            | '\x7d' :: rest => some (.table [], rest)
            | _ =>
                (takeEntries fuel (depth + 1) rest).map fun (entries, rest) =>
                  (.table entries, rest)
      | cs => takeScalar cs

def takeItems : Nat → Nat → List Char → Option (List Value × Rest)
  | 0, _, _ => none
  | fuel + 1, depth, cs =>
      match skipLines cs.length cs with
      | ']' :: rest => some ([], rest)
      | cs => do
          let (item, rest) ← takeValue fuel depth cs
          match skipLines rest.length rest with
          | ']' :: rest => some ([item], rest)
          | ',' :: rest => (takeItems fuel depth rest).map fun (items, rest) => (item :: items, rest)
          | _ => none

def takeEntries : Nat → Nat → List Char → Option (List (Path × Value) × Rest)
  | 0, _, _ => none
  | fuel + 1, depth, cs => do
      let (path, rest) ← takeKey (depthLimit - 1) cs
      let rest ← takeMark '=' rest
      let (value, rest) ← takeValue fuel depth (skipBlanks rest)
      match skipBlanks rest with
      | '\x7d' :: rest => some ([(path, value)], rest)
      | ',' :: rest =>
          (takeEntries fuel depth rest).map fun (entries, rest) => ((path, value) :: entries, rest)
      | _ => none

end

def takeLineTail (cs : List Char) : Option Rest :=
  let rest := match skipBlanks cs with
    | '#' :: rest => skipComment rest
    | rest => rest
  if rest = [] then some [] else takeLineEnd rest

def takeStatement (cs : List Char) : Option (Statement × Rest) :=
  match cs with
  | '[' :: '[' :: rest => do
      let (path, rest) ← takeKey (depthLimit - 1) rest
      let rest ← takeMark ']' rest
      let rest ← takeMark ']' rest
      let rest ← takeLineTail rest
      some (.arrayHeader path, rest)
  | '[' :: rest => do
      let (path, rest) ← takeKey (depthLimit - 1) rest
      let rest ← takeMark ']' rest
      let rest ← takeLineTail rest
      some (.header path, rest)
  | cs => do
      let (path, rest) ← takeKey (depthLimit - 1) cs
      let rest ← takeMark '=' rest
      let (value, rest) ← takeValue (cs.length + 1) 0 (skipBlanks rest)
      let rest ← takeLineTail rest
      some (.assign path value, rest)

def takeStatements : Nat → List Char → Option (List Statement)
  | 0, _ => none
  | fuel + 1, cs =>
      match skipLines cs.length cs with
      | [] => some []
      | '#' :: rest => if skipComment rest = [] then some [] else none
      | cs => do
          let (s, rest) ← takeStatement cs
          (takeStatements fuel rest).map (s :: ·)

/-- Statements of a text; a byte order mark may come first. -/
def statements? (cs : List Char) : Option (List Statement) :=
  match cs with
  | '\ufeff' :: rest => takeStatements (cs.length + 1) rest
  | cs => takeStatements (cs.length + 1) cs

end AdmissionGate.Toml
