import AdmissionGate.Proofs.Handshake.Grammar

/-!
What is written can be read again. The bytes of a handshake have the form that the parser looks
for, whatever comes after them, so it completes with the handshake that was written. Only lengths
that are written with the first byte of an old client's request go another way.
-/

namespace AdmissionGate

namespace Handshake

theorem length_addressBytes (address : String) :
    (addressBytes address).length = address.utf8ByteSize := by
  rw [addressBytes, toList_eq_data]
  rfl

theorem length_addressBytes_pos {address : String} (named : address ≠ "") :
    0 < (addressBytes address).length := by
  rw [length_addressBytes]
  exact Nat.pos_of_ne_zero fun none => named (String.utf8ByteSize_eq_zero_iff.mp none)

theorem length_addressBytes_le (version : Int32) (address : String) (port : UInt16)
    (next : NextState) :
    (addressBytes address).length ≤ (bodyBytes version address port next).length := by
  simp only [bodyBytes, List.length_append]
  omega

theorem frame_bodyBytes {s : HandshakeSettings} {version : Int32} {address : String}
    {next : NextState} (port : UInt16) (accepted : s.InRange version) (named : address ≠ "")
    (short : (addressBytes address).length ≤ s.maxAddressLength.toNat)
    (allowed : next ∈ s.allowedNextStates)
    (countable : (addressBytes address).length < 2147483648) :
    s.Frame (ofFields version address port next) (bodyBytes version address port next) := by
  have version_spelled := VarInt.spells_encode version.toUInt32
  rw [Int32.toInt32_toUInt32] at version_spelled
  have next_spelled := VarInt.spells_encode next.id.toUInt32
  rw [Int32.toInt32_toUInt32] at next_spelled
  simp only [bodyBytes, List.append_assoc]
  have fields := HandshakeSettings.Frame.fields (s := s) (h := ofFields version address port next)
    (VarInt.spells_encode packetId) version_spelled accepted (VarInt.spells_encode_ofNat countable)
    (length_addressBytes_pos named) short next_spelled allowed
  rwa [List.append_assoc] at fields

/-- Lengths that are written like the start of an old client's request. -/
def LooksLegacy (length : Nat) : Prop := ∃ k, 1 ≤ k ∧ length = 128 * k + 126

theorem head?_encode_length {length : Nat} (countable : length < 2147483648) :
    (VarInt.encode (UInt32.ofNat length)).head? = some legacyPingByte ↔ LooksLegacy length := by
  have same : (UInt32.ofNat length).toNat = length := by
    rw [UInt32.toNat_ofNat']
    omega
  rw [VarInt.encode, same, VarInt.head?_encodeNat, Option.some.injEq, ← UInt8.toNat_inj]
  have ping : legacyPingByte.toNat = 254 := rfl
  rw [ping]
  constructor
  · intro byte
    split at byte <;> rw [VarInt.toNat_toUInt8 (by omega)] at byte
    · omega
    · exact ⟨length / 128, by omega, by omega⟩
  · rintro ⟨k, more, rfl⟩
    rw [if_neg (by omega), VarInt.toNat_toUInt8 (by omega)]
    omega

theorem head?_toBytes_append (h : Handshake) (suffix : List UInt8) :
    (h.toBytes ++ suffix).head? =
      (VarInt.encode (UInt32.ofNat (bodyBytes h.protocolVersion h.serverAddress h.serverPort
        h.nextState).length)).head? := by
  simp only [toBytes, frameBytes, VarInt.encode, List.head?_append, VarInt.head?_encodeNat,
    Option.some_or]

end Handshake

namespace HandshakeSettings

open Handshake

variable {s : HandshakeSettings} {version : Int32} {address : String} {next : NextState}

/-- A handshake that the settings allow is read from its bytes, unless their first one says
otherwise. -/
theorem parse_toBytes_append (port : UInt16) (suffix : List UInt8) (accepted : s.InRange version)
    (named : address ≠ "")
    (short : (addressBytes address).length ≤ s.maxAddressLength.toNat)
    (allowed : next ∈ s.allowedNextStates)
    (countable : (bodyBytes version address port next).length < 2147483648)
    (affordable : (ofFields version address port next).toBytes.length ≤ s.budget) :
    let h := ofFields version address port next
    let length := (bodyBytes version address port next).length
    h.frameLength = h.toBytes.length ∧
      (¬LooksLegacy length → s.parse (h.toBytes ++ suffix) = .complete h) ∧
      (LooksLegacy length → s.parse (h.toBytes ++ suffix) = .failed .legacyPing) := by
  intro h length
  have first : (h.toBytes ++ suffix).head? = (VarInt.encode (UInt32.ofNat length)).head? :=
    head?_toBytes_append h suffix
  refine ⟨rfl, ?_, ?_⟩
  · intro modern
    rw [← head?_encode_length countable, ← first] at modern
    apply parse_of_opens
    have size := length_addressBytes_le version address port next
    have fields := frame_bodyBytes port accepted named short allowed (by omega)
    have not_empty : 0 < length := Nat.lt_of_lt_of_le (length_addressBytes_pos named) size
    have whole : h.toBytes =
        VarInt.encode (UInt32.ofNat length) ++ bodyBytes version address port next := rfl
    have counted := congrArg List.length whole
    rw [List.length_append] at counted
    rw [whole, List.append_assoc] at modern ⊢
    exact .intro modern (VarInt.spells_encode_ofNat countable) not_empty
      (counted ▸ affordable) fields counted
  · intro legacy
    rw [← head?_encode_length countable, ← first] at legacy
    rw [parse, if_pos legacy]

def longName (letters : Nat) : String := String.ofList (List.replicate letters 'a')

/-- One letter more, and the frame is taken for an old client's request. -/
theorem parse_longName :
    let settings : HandshakeSettings := {}
    let short := ofFields 767 (longName 245) 25565 .login
    let long := ofFields 767 (longName 246) 25565 .login
    short.frameLength = 255 ∧ settings.parse (short.toBytes ++ [0, 7]) = .complete short ∧
      long.frameLength = 256 ∧ settings.parse (long.toBytes ++ [0, 7]) = .failed .legacyPing := by
  intro settings short long
  have shorter : (bodyBytes 767 (longName 245) 25565 .login).length = 253 := by decide +kernel
  have longer : (bodyBytes 767 (longName 246) 25565 .login).length = 254 := by decide +kernel
  have accepted : settings.InRange 767 := acceptsVersion_iff.mp (by decide)
  have allowed : NextState.login ∈ settings.allowedNextStates := by decide
  have named : longName 245 ≠ "" ∧ longName 246 ≠ "" := by decide +kernel
  obtain ⟨-, modern, -⟩ := parse_toBytes_append 25565 [0, 7] accepted named.1 (by decide +kernel)
    allowed (by decide +kernel) (by decide +kernel)
  obtain ⟨-, -, legacy⟩ := parse_toBytes_append 25565 [0, 7] accepted named.2 (by decide +kernel)
    allowed (by decide +kernel) (by decide +kernel)
  refine ⟨by decide +kernel, modern ?_, by decide +kernel, legacy ?_⟩
  · rw [shorter]
    rintro ⟨k, more, same⟩
    omega
  · exact ⟨1, Nat.le_refl 1, longer⟩

end HandshakeSettings

end AdmissionGate
