/-!
White space: the characters with the Unicode property of that name. There are
25 of them, and core's `Char.isWhitespace` knows four.
-/

namespace AdmissionGate.Blank

def ranges : List (Nat × Nat) :=
  [(0x09, 0x0d), (0x20, 0x20), (0x85, 0x85), (0xa0, 0xa0), (0x1680, 0x1680), (0x2000, 0x200a),
    (0x2028, 0x2029), (0x202f, 0x202f), (0x205f, 0x205f), (0x3000, 0x3000)]

def isBlank (c : Char) : Bool := ranges.any fun r => r.1 ≤ c.toNat && c.toNat ≤ r.2

def dropLeading (cs : List Char) : List Char := cs.dropWhile isBlank

def isAllBlank (cs : List Char) : Bool := cs.all isBlank

end AdmissionGate.Blank
