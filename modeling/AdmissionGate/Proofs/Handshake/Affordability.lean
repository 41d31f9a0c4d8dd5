import AdmissionGate.Proofs.Handshake.RoundTrip
import AdmissionGate.Settings.Validation

/-!
What the smallest handshake takes. Besides its version and its address a frame takes a fixed
number of bytes, an address takes one at least, and no accepted version takes fewer than the one
next to zero. So some bytes are accepted just when an address may have a byte and the budget holds
the smallest frame. The rules for settings ask for neither, only for a budget of three bytes.
-/

namespace AdmissionGate

namespace HandshakeSettings

open Handshake

variable {s : HandshakeSettings} {version : Int32}

def plainVersion (s : HandshakeSettings) : Int32 :=
  let low := s.minProtocolVersion.getD 0
  let high := s.maxProtocolVersion.getD 0
  if 0 < low then low else if high < 0 then high else 0

/-- Bytes of the smallest handshake: the version, and one each for the lengths of the frame and
the address, the packet number, the address and the next state, and two for the port. -/
def leastFrame (s : HandshakeSettings) : Nat :=
  (VarInt.encode s.plainVersion.toUInt32).length + 7

theorem toInt_zero : (0 : Int32).toInt = 0 := rfl

theorem le_of_invertedRange? (upright : s.invertedRange? = none) {low high : Int32}
    (above : s.minProtocolVersion = some low) (below : s.maxProtocolVersion = some high) :
    low.toInt ≤ high.toInt := by
  simp only [invertedRange?, above, below] at upright
  split at upright
  · contradiction
  · rename_i ordered
    rw [Int32.lt_iff_toInt_lt] at ordered
    exact Int.not_lt.mp ordered

/-- The ways in which a version is next to zero. -/
theorem plainVersion_cases (s : HandshakeSettings) :
    (∃ low, s.minProtocolVersion = some low ∧ 0 < low.toInt ∧ s.plainVersion = low) ∨
      (∃ high, s.maxProtocolVersion = some high ∧ high.toInt < 0 ∧ s.plainVersion = high) ∨
      ((∀ low, s.minProtocolVersion = some low → low.toInt ≤ 0) ∧
        (∀ high, s.maxProtocolVersion = some high → 0 ≤ high.toInt) ∧ s.plainVersion = 0) := by
  simp only [plainVersion, Int32.lt_iff_toInt_lt, toInt_zero]
  split
  · rename_i positive
    cases given : s.minProtocolVersion with
    | none => simp [given] at positive
    | some low =>
        rw [given] at positive
        exact .inl ⟨low, rfl, positive, rfl⟩
  rename_i below
  split
  · rename_i negative
    cases given : s.maxProtocolVersion with
    | none => simp [given] at negative
    | some high =>
        rw [given] at negative
        exact .inr (.inl ⟨high, rfl, negative, rfl⟩)
  rename_i above
  refine .inr (.inr ⟨fun low given => ?_, fun high given => ?_, rfl⟩)
  · rw [given] at below
    exact Int.not_lt.mp below
  · rw [given] at above
    exact Int.not_lt.mp above

theorem inRange_plainVersion (upright : s.invertedRange? = none) : s.InRange s.plainVersion := by
  rcases s.plainVersion_cases with ⟨low, given, _, same⟩ | ⟨high, given, _, same⟩ |
    ⟨below, above, same⟩
  · rw [same]
    refine ⟨fun low' given' => ?_, fun high given' => le_of_invertedRange? upright given given'⟩
    cases given.symm.trans given'
    exact Int.le_refl _
  · rw [same]
    refine ⟨fun low given' => le_of_invertedRange? upright given' given, fun high' given' => ?_⟩
    cases given.symm.trans given'
    exact Int.le_refl _
  · rw [same]
    exact ⟨below, above⟩

theorem toNat_toUInt32_of_pos (positive : 0 < version.toInt) :
    (version.toUInt32.toNat : Int) = version.toInt := by
  have word := @toNat_of_pos version.toUInt32
  rw [Int32.toInt32_toUInt32] at word
  exact word positive

theorem le_toNat_of_neg {word : UInt32} (h : word.toInt32.toInt < 0) : 2147483648 ≤ word.toNat := by
  have signed := VarInt.toInt_toInt32_ofNat word.toNat
  rw [UInt32.ofNat_toNat, Int.bmod_def] at signed
  have below := word.toNat_lt
  split at signed <;> omega

/-- A negative version takes all the bytes that a number may have. -/
theorem length_encode_of_neg (negative : version.toInt < 0) :
    (VarInt.encode version.toUInt32).length = VarInt.maxLength := by
  have spelled := VarInt.spells_encode version.toUInt32
  have high : 2147483648 ≤ version.toUInt32.toNat := by
    apply le_toNat_of_neg
    rwa [Int32.toInt32_toUInt32]
  have least : (VarInt.encodeNat 2147483648).length = 5 := by decide +kernel
  have length := VarInt.length_encodeNat_mono high
  rw [least] at length
  exact Nat.le_antisymm spelled.fits length

theorem length_plainVersion_le (accepted : s.InRange version) :
    (VarInt.encode s.plainVersion.toUInt32).length ≤ (VarInt.encode version.toUInt32).length := by
  rcases s.plainVersion_cases with ⟨low, given, positive, same⟩ | ⟨high, given, negative, same⟩ |
    ⟨_, _, same⟩
  · have le := accepted.1 low given
    have word := toNat_toUInt32_of_pos positive
    have word' := toNat_toUInt32_of_pos (Int.lt_of_lt_of_le positive le)
    rw [same]
    exact VarInt.length_encodeNat_mono (by omega)
  -- With a highest version below zero, all that are accepted take the same bytes.
  · have le := accepted.2 high given
    have negative' : version.toInt < 0 := Int.lt_of_le_of_lt le negative
    rw [same, length_encode_of_neg negative']
    exact Nat.le_of_eq (length_encode_of_neg negative)
  · rw [same]
    exact VarInt.length_encodeNat_mono (Nat.zero_le _)

theorem Frame.length_le {h : Handshake} {frame : List UInt8} (fields : s.Frame h frame) :
    s.leastFrame ≤ frame.length + 1 := by
  cases fields with
  | fields packet_number version_spelled accepted length_spelled not_empty _ next_spelled _ =>
      have packet := packet_number.numeral.length_pos
      have version :=
        Nat.le_trans (length_plainVersion_le accepted) version_spelled.length_encode_le
      have length := length_spelled.numeral.length_pos
      have next := next_spelled.numeral.length_pos
      have port : (portBytes h.serverPort).length = 2 := rfl
      simp only [leastFrame, List.length_append]
      omega

theorem validate_eq_ok_iff {bytes : List UInt8} {h : Handshake} :
    s.validate bytes = .ok h ↔ s.parse bytes = .complete h := by
  simp only [validate]
  split <;> simp_all

/-- Accepted bytes have an address, and are within the budget with the smallest frame. -/
theorem room_of_validate {bytes : List UInt8} {h : Handshake}
    (accepted : s.validate bytes = .ok h) :
    1 ≤ s.maxAddressLength.toNat ∧ s.leastFrame ≤ s.budget := by
  cases opens_of_parse (validate_eq_ok_iff.mp accepted) with
  | intro _ length_spelled _ affordable fields _ =>
      have least := fields.length_le
      have length := length_spelled.numeral.length_pos
      refine ⟨?_, by omega⟩
      cases fields with
      | fields _ _ _ _ not_empty not_long _ _ => exact Nat.le_trans not_empty not_long

/-- A frame in the version that takes the fewest bytes, with a name of one. -/
def smallestBody (s : HandshakeSettings) (next : NextState) : List UInt8 :=
  bodyBytes s.plainVersion "a" 0 next

def smallest (s : HandshakeSettings) (next : NextState) : Handshake :=
  .ofFields s.plainVersion "a" 0 next

theorem leastFrame_le (s : HandshakeSettings) : s.leastFrame ≤ 12 :=
  Nat.add_le_add_right (VarInt.spells_encode s.plainVersion.toUInt32).fits 7

theorem le_leastFrame (s : HandshakeSettings) : 8 ≤ s.leastFrame :=
  Nat.add_le_add_right (VarInt.spells_encode s.plainVersion.toUInt32).numeral.length_pos 7

theorem length_encode_ofNat {n : Nat} (small : n < 128) :
    (VarInt.encode (UInt32.ofNat n)).length = 1 := by
  have same : (UInt32.ofNat n).toNat = n := by
    rw [UInt32.toNat_ofNat']
    omega
  rw [VarInt.encode, same, VarInt.encodeNat, if_pos small]
  rfl

theorem length_encode_id (next : NextState) : (VarInt.encode next.id.toUInt32).length = 1 := by
  cases next <;> decide +kernel

theorem length_name : (addressBytes "a").length = 1 := by decide +kernel

theorem length_smallestBody (s : HandshakeSettings) (next : NextState) :
    (s.smallestBody next).length + 1 = s.leastFrame := by
  have packet : (VarInt.encode packetId).length = 1 := by decide +kernel
  have counted : (VarInt.encode (UInt32.ofNat 1)).length = 1 := length_encode_ofNat (by decide)
  have port : (portBytes 0).length = 2 := rfl
  simp only [smallestBody, bodyBytes, List.length_append, packet, length_name, counted, port,
    length_encode_id, leastFrame]
  omega

theorem frame_smallestBody (upright : s.invertedRange? = none) {next : NextState}
    (allowed : next ∈ s.allowedNextStates) (named : 1 ≤ s.maxAddressLength.toNat) :
    s.Frame (s.smallest next) (s.smallestBody next) :=
  frame_bodyBytes 0 (inRange_plainVersion upright) (by decide) (length_name.symm ▸ named) allowed
    (length_name.symm ▸ by decide)

theorem toBytes_smallest (s : HandshakeSettings) (next : NextState) : (s.smallest next).toBytes =
    VarInt.encode (UInt32.ofNat (s.smallestBody next).length) ++ s.smallestBody next := rfl

/-- A frame as short as this one does not look like an old client's request. -/
theorem head?_smallest (s : HandshakeSettings) (next : NextState) :
    (s.smallest next).toBytes.head? ≠ some legacyPingByte := by
  have size := s.length_smallestBody next
  have small := s.leastFrame_le
  have first : ((s.smallest next).toBytes ++ []).head? =
      (VarInt.encode (UInt32.ofNat (s.smallestBody next).length)).head? :=
    head?_toBytes_append (s.smallest next) []
  rw [List.append_nil] at first
  rw [first, Ne, head?_encode_length (by omega)]
  rintro ⟨k, more, long⟩
  omega

/-- The smallest handshake is accepted where there is room for it. -/
theorem validate_smallest (upright : s.invertedRange? = none) {next : NextState}
    (allowed : next ∈ s.allowedNextStates) (named : 1 ≤ s.maxAddressLength.toNat)
    (room : s.leastFrame ≤ s.budget) :
    s.validate (s.smallest next).toBytes = .ok (s.smallest next) := by
  have size := s.length_smallestBody next
  have small := s.leastFrame_le
  have least := s.le_leastFrame
  have measured : (VarInt.encode (UInt32.ofNat (s.smallestBody next).length)).length = 1 :=
    length_encode_ofNat (by omega)
  have spelled : VarInt.Spells _ (s.smallestBody next).length :=
    VarInt.spells_encode_ofNat (by omega)
  have counted : (s.smallest next).frameLength = _ :=
    (congrArg List.length (s.toBytes_smallest next)).trans List.length_append
  have opens : s.Opens (s.smallest next)
      (VarInt.encode (UInt32.ofNat (s.smallestBody next).length) ++ (s.smallestBody next ++ [])) :=
    .intro (by rw [List.append_nil]; exact s.head?_smallest next) spelled (by omega) (by omega)
      (frame_smallestBody upright allowed named) counted
  rw [List.append_nil] at opens
  exact validate_eq_ok_iff.mpr (parse_of_opens opens)

end HandshakeSettings

/-- Settings that break no rule have a range of versions the right way round, and a next state. -/
theorem Settings.Valid.handshake {s : Settings} (valid : s.Valid) :
    s.handshake.invertedRange? = none ∧ ∃ next, next ∈ s.handshake.allowedNextStates := by
  simp only [Valid, fault?] at valid
  iterate 8
    split at valid
    · contradiction
  split at valid
  · contradiction
  rename_i upright
  split at valid
  · contradiction
  rename_i going
  exact ⟨upright, List.exists_mem_of_ne_nil _ going⟩

namespace Settings

/-- Settings that break no rule accept some bytes as a handshake just when an address may have a
byte and the budget holds the smallest handshake, which has from eight bytes to twelve. -/
theorem Valid.accepts_iff {s : Settings} (valid : s.Valid) :
    8 ≤ s.handshake.leastFrame ∧ s.handshake.leastFrame ≤ 12 ∧
      ((∃ bytes h, s.handshake.validate bytes = .ok h) ↔
        1 ≤ s.handshake.maxAddressLength.toNat ∧ s.handshake.leastFrame ≤ s.handshake.budget) := by
  refine ⟨s.handshake.le_leastFrame, s.handshake.leastFrame_le, ?_, ?_⟩
  · rintro ⟨bytes, h, accepted⟩
    exact HandshakeSettings.room_of_validate accepted
  · rintro ⟨named, room⟩
    obtain ⟨upright, next, allowed⟩ := valid.handshake
    exact ⟨_, _, HandshakeSettings.validate_smallest upright allowed named room⟩

/-- Settings for versions of two bytes that have room for the smallest handshake and no more. -/
def snug : Settings :=
  { handshake :=
      { maxBytes := 9, minProtocolVersion := some 755, maxAddressLength := 1,
        allowedNextStates := [.transfer] } }

theorem snug_accepts :
    snug.Valid ∧ snug.handshake.leastFrame = 9 ∧
      ∃ bytes h, snug.handshake.validate bytes = .ok h := by
  have valid : snug.Valid := by decide +kernel
  obtain ⟨-, -, accepts⟩ := valid.accepts_iff
  exact ⟨valid, by decide +kernel, accepts.mpr (by decide +kernel)⟩

/-- Settings whose budget is a byte too small, and settings that leave no byte for an address. -/
def cramped : Settings := { handshake := { maxBytes := 7 } }

def nameless : Settings := { handshake := { maxAddressLength := 0 } }

/-- They break no rule, and no bytes are a handshake to them. -/
theorem cramped_accepts_nothing :
    cramped.Valid ∧ nameless.Valid ∧
      ∀ bytes h, cramped.handshake.validate bytes ≠ .ok h ∧
        nameless.handshake.validate bytes ≠ .ok h := by
  refine ⟨by decide +kernel, by decide +kernel, fun bytes h => ⟨?_, ?_⟩⟩ <;> intro accepted
  · have room := (HandshakeSettings.room_of_validate accepted).2
    exact absurd (Nat.le_trans cramped.handshake.le_leastFrame room) (by decide +kernel)
  · exact absurd (HandshakeSettings.room_of_validate accepted).1 (by decide +kernel)

end Settings

end AdmissionGate
