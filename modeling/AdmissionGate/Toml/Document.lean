import AdmissionGate.Toml.Reader

/-!
What the statements of a document amount to: one tree of tables. A table may be
opened once, a key may be given a value once, and a table that dotted keys made
is closed to everything but dotted keys from the same place.
-/

namespace AdmissionGate.Toml

inductive Origin where
  /-- By a header of its own, or as the document. -/
  | opened
  /-- On the way to a table that a header opened. -/
  | passed
  /-- As the front part of a dotted key. -/
  | dotted
deriving DecidableEq

inductive Node where
  | leaf (d : Datum)
  | table (origin : Origin) (entries : List (String × Node))
  /-- An array of tables, each given by its entries. -/
  | tables (items : List (List (String × Node)))

abbrev Entries := List (String × Node)

def Entries.get? (entries : Entries) (key : String) : Option Node :=
  (entries.find? (·.1 = key)).map (·.2)

def Entries.put (key : String) (node : Node) : Entries → Entries
  | [] => [(key, node)]
  | (k, n) :: rest => if k = key then (k, node) :: rest else (k, n) :: put key node rest

def Entries.erase (entries : Entries) (key : String) : Entries :=
  entries.filter (·.1 ≠ key)

/-- A table while it is changed: how it came to be, and its entries. -/
structure Open where
  origin : Origin
  entries : Entries

/-- Changes the table at the end of a path, making tables of the given origin on the way.
The way does not lead through values; an array of tables stands for its last one; and
dotted keys do not lead into a table that has a header. -/
def changeAt (made : Origin) (change : Open → Option Entries) : Path → Open → Option Entries
  | [], here => change here
  | key :: path, here =>
      match here.entries.get? key with
      | none => do
          let entries ← changeAt made change path ⟨made, []⟩
          some (here.entries ++ [(key, .table made entries)])
      | some (.leaf _) => none
      | some (.table origin entries) =>
          if made = .dotted ∧ origin = .opened then none
          else do
            let entries ← changeAt made change path ⟨origin, entries⟩
            some (here.entries.put key (.table origin entries))
      | some (.tables items) =>
          match items.getLast? with
          | none => none
          | some last => do
              let entries ← changeAt made change path ⟨.opened, last⟩
              some (here.entries.put key (.tables (items.dropLast ++ [entries])))

def splitKey (path : Path) : Option (Path × String) :=
  path.getLast?.map (path.dropLast, ·)

/-- Gives a key its value. A dotted key ends in a table that dotted keys made, and a plain
one in a table that they did not make. -/
def assign (path : Path) (d : Datum) (here : Open) : Option Entries := do
  let (front, key) ← splitKey path
  changeAt .dotted
    (fun t =>
      if (t.origin = .dotted ↔ front = []) ∨ (t.entries.get? key).isSome then none
      else some (t.entries ++ [(key, .leaf d)]))
    front here

mutual

def Node.toDatum : Node → Datum
  | .leaf d => d
  | .table _ entries => .table (entriesToData entries)
  | .tables items => .list (itemsToData items)

def entriesToData : List (String × Node) → List (String × Datum)
  | [] => []
  | (key, node) :: rest => (key, node.toDatum) :: entriesToData rest

def itemsToData : List (List (String × Node)) → List Datum
  | [] => []
  | entries :: rest => .table (entriesToData entries) :: itemsToData rest

end

mutual

/-- A value as data; entries of an inline table must not contradict each other. -/
def Value.toDatum? : Value → Option Datum
  | .text s => some (.text s)
  | .int n => some (.int n)
  | .float x => some (.float x)
  | .bool b => some (.bool b)
  | .moment => some .moment
  | .array items => (valuesToData? items).map .list
  | .table entries => (inlineEntries? entries []).map fun es => .table (entriesToData es)

def valuesToData? : List Value → Option (List Datum)
  | [] => some []
  | v :: vs => do
      let d ← v.toDatum?
      let ds ← valuesToData? vs
      some (d :: ds)

def inlineEntries? : List (Path × Value) → Entries → Option Entries
  | [], entries => some entries
  | (path, v) :: rest, entries => do
      let d ← v.toDatum?
      let entries ← assign path d ⟨.opened, entries⟩
      inlineEntries? rest entries

end

/-- A document being read: everything before the open table, and that table with its path,
which is not part of the rest yet. -/
structure Draft where
  closed : Entries := []
  path : Path := []
  /-- The open table goes to the end of an array. -/
  isItem : Bool := false
  entries : Entries := []

namespace Draft

def close (d : Draft) : Option Entries :=
  match splitKey d.path with
  | none => some d.entries
  | some (front, key) =>
      changeAt .passed
        (fun t =>
          if d.isItem then
            match t.entries.get? key with
            | none => some (t.entries ++ [(key, .tables [d.entries])])
            | some (.tables items) => some (t.entries.put key (.tables (items ++ [d.entries])))
            | some _ => none
          else some (t.entries.put key (.table .opened d.entries)))
        front ⟨.opened, d.closed⟩

/-- The table at a path, if it was only passed so far; its entries are kept when a header
opens it. There must not be any other node at the path. -/
def entriesToOpen? (root : Entries) : Path → String → Option Entries
  | [], key =>
      match root.get? key with
      | none => some []
      | some (.table .passed entries) => some entries
      | some _ => none
  | part :: path, key =>
      match root.get? part with
      | none => some []
      | some (.leaf _) => none
      | some (.table _ entries) => entriesToOpen? entries path key
      | some (.tables items) =>
          match items.getLast? with
          | none => none
          | some last => entriesToOpen? last path key

def takesItem (root : Entries) : Path → String → Bool
  | [], key =>
      match root.get? key with
      | none | some (.tables _) => true
      | some _ => false
  | part :: path, key =>
      match root.get? part with
      | none => true
      | some (.leaf _) => false
      | some (.table _ entries) => takesItem entries path key
      | some (.tables items) =>
          match items.getLast? with
          | none => false
          | some last => takesItem last path key

def step (d : Draft) : Statement → Option Draft
  | .assign path v => do
      let datum ← v.toDatum?
      let entries ← assign path datum ⟨.opened, d.entries⟩
      some { d with entries }
  | .header path => do
      let root ← d.close
      let (front, key) ← splitKey path
      let entries ← entriesToOpen? root front key
      some { closed := root, path, isItem := false, entries }
  | .arrayHeader path => do
      let root ← d.close
      let (front, key) ← splitKey path
      if takesItem root front key then some { closed := root, path, isItem := true, entries := [] }
      else none

end Draft

/-- The data of a document's statements, unless they contradict each other. -/
def dataOf? (statements : List Statement) : Option Datum := do
  let d ← statements.foldlM Draft.step {}
  let root ← d.close
  some (.table (entriesToData root))

def read? (text : String) : Option Datum := do
  let statements ← statements? text.toList
  dataOf? statements

end AdmissionGate.Toml
