import AdmissionGate.Settings.Datum

/-!
A TOML document as written: statements that open a table or give a key its
value. What the statements amount to together is another matter, and may be a
contradiction.
-/

namespace AdmissionGate.Toml

def isInteger (n : Int) : Bool := -9223372036854775808 ≤ n && n < 9223372036854775808

abbrev Path := List String

inductive Value where
  | text (s : String)
  | int (n : Int)
  | float (x : Float)
  | bool (b : Bool)
  | moment
  | array (items : List Value)
  | table (entries : List (Path × Value))

inductive Statement where
  /-- Gives a key, relative to the open table, its value. -/
  | assign (path : Path) (value : Value)
  | header (path : Path)
  /-- Opens a new table at the end of an array. -/
  | arrayHeader (path : Path)

end AdmissionGate.Toml

namespace AdmissionGate

/-- TOML: a name with a payload has an empty table or list beside it, lists may be too
long, and a date is a table whose one entry nobody asks for. -/
def Toml.dialect : Dialect where
  isEmptyPayload
    | .table [] | .list [] => true
    | _ => false
  ignoresExtraItems := true
  momentsAreSections := true

end AdmissionGate
