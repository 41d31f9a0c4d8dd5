/-!
Variable-length numbers of the game protocol: seven bits a byte, lowest first,
and every byte but the last with its high bit set. A number is a 32-bit word,
so it takes at most five bytes; what a longer value would hold is cut off.
-/

namespace AdmissionGate.VarInt

def maxLength : Nat := 5

inductive Error where
  | incomplete
  | tooLong
deriving DecidableEq, Repr

def encodeNat (n : Nat) : List UInt8 :=
  if n < 128 then [n.toUInt8]
  else (n % 128 + 128).toUInt8 :: encodeNat (n / 128)
termination_by n
decreasing_by omega

def encode (word : UInt32) : List UInt8 := encodeNat word.toNat

def decodeNat : Nat → List UInt8 → Except Error (Nat × List UInt8)
  | 0, _ => .error .tooLong
  | _ + 1, [] => .error .incomplete
  | room + 1, byte :: rest =>
      if byte.toNat < 128 then .ok (byte.toNat, rest)
      else
        match decodeNat room rest with
        | .ok (high, rest') => .ok (byte.toNat - 128 + 128 * high, rest')
        | .error e => .error e

def decode (bytes : List UInt8) : Except Error (UInt32 × List UInt8) :=
  match decodeNat maxLength bytes with
  | .ok (n, rest) => .ok (UInt32.ofNat n, rest)
  | .error e => .error e

end AdmissionGate.VarInt
