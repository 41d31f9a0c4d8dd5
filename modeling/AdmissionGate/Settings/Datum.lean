import AdmissionGate.Decimal.Reading
import AdmissionGate.Json.Basic

/-!
Data of a settings document, whatever format it was written in, and how values
of the types that settings use are read from it. What differs between formats
is a `Dialect`.
-/

namespace AdmissionGate

inductive Datum where
  | null
  | bool (b : Bool)
  | int (n : Int)
  | float (x : Float)
  | text (s : String)
  | moment
  | list (items : List Datum)
  | table (entries : List (String × Datum))

/-- Where formats read the same data differently. -/
structure Dialect where
  /-- What may stand beside a name that is written as the only key of a table. -/
  isEmptyPayload : Datum → Bool
  /-- Whether a section written as a list may have items left over. -/
  ignoresExtraItems : Bool
  /-- Whether only a date or time may not stand for a name. -/
  momentsAreSections : Bool

/-- A section of settings: entries with names, or values in the order of the fields. -/
inductive Section where
  | named (entries : List (String × Datum))
  | listed (items : List Datum)

namespace Section

def get? (s : Section) (index : Nat) (name : String) : Option Datum :=
  match s with
  | named entries => (entries.find? (·.1 = name)).map (·.2)
  | listed items => items[index]?

/-- The value of a field; `default` if the section does not mention it, and none at
all if what stands there does not fit. -/
def read (s : Section) (index : Nat) (name : String) (decode : Datum → Option α) (default : α) :
    Option α :=
  match s.get? index name with
  | none => some default
  | some d => decode d

end Section

namespace Datum

def toSection? (dialect : Dialect) (count : Nat) : Datum → Option Section
  | table entries => some (.named entries)
  | list items =>
      if items.length ≤ count ∨ dialect.ignoresExtraItems then some (.listed items) else none
  | moment => if dialect.momentsAreSections then some (.named []) else none
  | _ => none

def toBool? : Datum → Option Bool
  | bool b => some b
  | _ => none

def toText? : Datum → Option String
  | text s => some s
  | _ => none

def toIntWithin? (low high : Int) : Datum → Option Int
  | int n => if low ≤ n ∧ n ≤ high then some n else none
  | _ => none

def toUInt8? (d : Datum) : Option UInt8 :=
  (d.toIntWithin? 0 255).map fun n => UInt8.ofNat n.toNat

def toUInt16? (d : Datum) : Option UInt16 :=
  (d.toIntWithin? 0 65535).map fun n => UInt16.ofNat n.toNat

def toUInt32? (d : Datum) : Option UInt32 :=
  (d.toIntWithin? 0 4294967295).map fun n => UInt32.ofNat n.toNat

def toUInt64? (d : Datum) : Option UInt64 :=
  (d.toIntWithin? 0 18446744073709551615).map fun n => UInt64.ofNat n.toNat

def toInt32? (d : Datum) : Option Int32 :=
  (d.toIntWithin? (-2147483648) 2147483647).map Int32.ofInt

/-- A number; an integer stands for the nearest floating-point number. -/
def toFloat? : Datum → Option Float
  | float x => some x
  | int n => some (Decimal.ofInt n)
  | _ => none

def toList? (decode : Datum → Option α) : Datum → Option (List α)
  | list items => items.mapM decode
  | _ => none

/-- A value that may be missing, which formats with a null can say. -/
def toOption? (decode : Datum → Option α) : Datum → Option (Option α)
  | null => some none
  | d => (decode d).map some

/-- A name of an enumeration, as text or as the only key of a table. -/
def toName? (dialect : Dialect) (ofName? : String → Option α) : Datum → Option α
  | text s => ofName? s
  | table [(name, payload)] =>
      if dialect.isEmptyPayload payload then ofName? name else none
  | _ => none

/-- A whole JSON document as data. Strings that spell no text have no place in it. -/
def ofJson? : Json → Option Datum
  | .null => some null
  | .bool b => some (bool b)
  | .number n =>
      match n.int? with
      | some i => some (int i)
      | none => some (float n.toFloat)
  | .string (some s) => some (text s)
  | .string none => none
  | .array items => (itemsOfJson? items).map list
  | .object members => (entriesOfJson? members).map table
where
  itemsOfJson? : List Json → Option (List Datum)
    | [] => some []
    | item :: items => do
        let d ← ofJson? item
        let ds ← itemsOfJson? items
        some (d :: ds)
  entriesOfJson? : List (Option String × Json) → Option (List (String × Datum))
    | [] => some []
    | (key, item) :: members => do
        let key ← key
        let d ← ofJson? item
        let ds ← entriesOfJson? members
        some ((key, d) :: ds)

end Datum

/-- JSON: a name with a payload has null beside it, and lists must fit. -/
def Json.dialect : Dialect where
  isEmptyPayload
    | .null => true
    | _ => false
  ignoresExtraItems := false
  momentsAreSections := false

end AdmissionGate
