import AdmissionGate.Net.Address

/-!
An address with a port, and their text. Addresses of the sixth version stand in
brackets, and may name a scope.
-/

namespace AdmissionGate

inductive Endpoint where
  | v4 (octets : Vector UInt8 4) (port : UInt16)
  | v6 (groups : Vector UInt16 8) (scope : UInt32) (port : UInt16)
deriving DecidableEq

namespace Endpoint

def toChars : Endpoint → List Char
  | v4 octets port =>
      Address.dotted octets.toList ++ ':' :: Digits.render 10 port.toNat
  | v6 groups scope port =>
      '[' :: Address.groupsText groups.toList ++
        (if scope = 0 then [] else '%' :: Digits.render 10 scope.toNat) ++
        ']' :: ':' :: Digits.render 10 port.toNat

def text (e : Endpoint) : String := String.ofList e.toChars

/-- A decimal number below `bound`; zeros may lead. -/
def takeNumber (bound : Nat) (cs : List Char) : Option (Nat × List Char) := do
  let (digits, rest) := Address.takeDigits 10 cs
  if digits = [] then none
  else do
    let n ← Digits.valueOf? 10 digits
    if n < bound then some (n, rest) else none

def takePort (cs : List Char) : Option (UInt16 × List Char) := do
  let rest ← Address.takeMark ':' cs
  let (n, rest) ← takeNumber UInt16.size rest
  some (UInt16.ofNat n, rest)

/-- The scope of an address; without one it is zero. -/
def takeScope (cs : List Char) : UInt32 × List Char :=
  match cs with
  | '%' :: rest =>
      match takeNumber UInt32.size rest with
      | some (n, rest) => (UInt32.ofNat n, rest)
      | none => (0, cs)
  | cs => (0, cs)

def takeV4 (cs : List Char) : Option (Endpoint × List Char) := do
  let (octets, rest) ← Address.takeDotted cs
  let (port, rest) ← takePort rest
  some (v4 octets port, rest)

def takeV6 (cs : List Char) : Option (Endpoint × List Char) := do
  let rest ← Address.takeMark '[' cs
  let (groups, rest) ← Address.takeColons rest
  let (scope, rest) := takeScope rest
  let rest ← Address.takeMark ']' rest
  let (port, rest) ← takePort rest
  some (v6 groups scope port, rest)

def ofChars? (cs : List Char) : Option Endpoint :=
  match takeV4 cs with
  | some (e, rest) => if rest = [] then some e else none
  | none =>
      match takeV6 cs with
      | some (e, rest) => if rest = [] then some e else none
      | none => none

def ofText? (s : String) : Option Endpoint := ofChars? s.toList

end Endpoint

end AdmissionGate
