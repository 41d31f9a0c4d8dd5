import AdmissionGate.Text.Digits

/-!
Identifiers of audit records: 128 bits, written as hexadecimal digits in five
groups. Reading takes them with or without hyphens, in braces or as a name.
-/

namespace AdmissionGate

structure EventId where
  bits : BitVec 128
deriving DecidableEq

namespace EventId

def digits (e : EventId) : List Char := Digits.padLeft 32 (Digits.render 16 e.bits.toNat)

def toChars (e : EventId) : List Char :=
  let ds := e.digits
  ds.take 8 ++ '-' :: (ds.drop 8).take 4 ++ '-' :: (ds.drop 12).take 4 ++
    '-' :: (ds.drop 16).take 4 ++ '-' :: ds.drop 20

def ofDigits? (ds : List Char) : Option EventId :=
  if ds.length = 32 then (Digits.valueOf? 16 ds).map fun n => ⟨BitVec.ofNat 128 n⟩ else none

def joinGroups? (cs : List Char) : Option (List Char) :=
  if cs.length = 36 ∧ [8, 13, 18, 23].all (fun i => cs[i]? = some '-') then
    some (cs.take 8 ++ (cs.drop 9).take 4 ++ (cs.drop 14).take 4 ++ (cs.drop 19).take 4 ++
      cs.drop 24)
  else none

def nameStart : List Char := ['u', 'r', 'n', ':', 'u', 'u', 'i', 'd', ':']

def unwrap (cs : List Char) : List Char :=
  if cs.length = 38 ∧ cs.head? = some '\x7b' ∧ cs.getLast? = some '\x7d' then (cs.drop 1).take 36
  else if cs.length = 45 ∧ (cs.take 9).map Char.toLower = nameStart then cs.drop 9
  else cs

def ofChars? (cs : List Char) : Option EventId :=
  if cs.length = 32 then ofDigits? cs else (joinGroups? (unwrap cs)).bind ofDigits?

end EventId

end AdmissionGate
