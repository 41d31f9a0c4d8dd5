import AdmissionGate.Handshake.Parser
import AdmissionGate.Proofs.Handshake.Numeral

/-!
The form of a handshake, said without the parser: which bytes a frame consists of, and where
it stands in the bytes received. A field reader succeeds exactly on the bytes of its field,
so the parser completes a handshake exactly on bytes of this form, and what it completes is
the handshake that the form names.
-/

namespace AdmissionGate

namespace Handshake

theorem takeNumber_eq_ok_iff {bytes rest : List UInt8} {word : UInt32} :
    takeNumber bytes = .ok (word, rest) ↔
      ∃ p, bytes = p ++ rest ∧ VarInt.Spells p word.toInt32.toInt := by
  rw [← VarInt.decode_eq_ok_iff_spells]
  simp only [takeNumber]
  split <;> simp_all

theorem takeBytes_eq_ok_iff {count : Nat} {bytes taken rest : List UInt8} :
    takeBytes count bytes = .ok (taken, rest) ↔ bytes = taken ++ rest ∧ taken.length = count := by
  simp only [takeBytes]
  split
  · rename_i short
    simp only [reduceCtorEq, false_iff, not_and]
    intro same
    subst same
    simp only [List.length_append] at short
    omega
  · rename_i long
    simp only [Except.ok.injEq, Prod.mk.injEq]
    constructor
    · intro given
      obtain ⟨rfl, rfl⟩ := given
      exact ⟨(List.take_append_drop count bytes).symm, by simp; omega⟩
    · intro given
      obtain ⟨rfl, rfl⟩ := given
      simp

theorem portBytes_ofNat (high low : UInt8) :
    portBytes (UInt16.ofNat (256 * high.toNat + low.toNat)) = [high, low] := by
  have above := high.toNat_lt
  have below := low.toNat_lt
  have port : (UInt16.ofNat (256 * high.toNat + low.toNat)).toNat =
      256 * high.toNat + low.toNat := by
    rw [UInt16.toNat_ofNat']
    omega
  have first : (256 * high.toNat + low.toNat) / 256 = high.toNat := by omega
  have second : (256 * high.toNat + low.toNat) % 256 = low.toNat := by omega
  rw [portBytes, port, first, second]
  exact List.cons_eq_cons.mpr ⟨UInt8.ofNat_toNat, List.cons_eq_cons.mpr ⟨UInt8.ofNat_toNat, rfl⟩⟩

theorem takePort_portBytes (port : UInt16) (rest : List UInt8) :
    takePort (portBytes port ++ rest) = .ok (port, rest) := by
  have below := port.toNat_lt
  have high : (port.toNat / 256).toUInt8.toNat = port.toNat / 256 := by simp; omega
  have low : (port.toNat % 256).toUInt8.toNat = port.toNat % 256 := by simp
  have whole : 256 * (port.toNat / 256) + port.toNat % 256 = port.toNat := by omega
  simp only [portBytes, List.cons_append, List.nil_append, takePort, high, low, whole,
    UInt16.ofNat_toNat]

theorem takePort_eq_ok_iff {bytes rest : List UInt8} {port : UInt16} :
    takePort bytes = .ok (port, rest) ↔ bytes = portBytes port ++ rest := by
  constructor
  · intro h
    match bytes, h with
    | high :: low :: tail, h =>
        simp only [takePort, Except.ok.injEq, Prod.mk.injEq] at h
        rw [← h.1, ← h.2, portBytes_ofNat]
        rfl
  · intro same
    subst same
    exact takePort_portBytes port rest

theorem toList_loop (bytes : ByteArray) (i : Nat) (done : List UInt8) :
    ByteArray.toList.loop bytes i done = done.reverse ++ bytes.data.toList.drop i := by
  fun_induction ByteArray.toList.loop bytes i done with
  | case1 i done inside ih =>
      have inside : i < bytes.data.toList.length := inside
      have byte : bytes.get! i = bytes.data.toList[i] := by
        change bytes.data[i]! = _
        rw [getElem!_pos bytes.data i inside]
        rfl
      rw [ih, List.drop_eq_getElem_cons inside, byte, List.reverse_cons, List.append_assoc]
      rfl
  | case2 i done outside =>
      have behind : bytes.data.toList.length ≤ i := Nat.not_lt.mp outside
      rw [List.drop_eq_nil_of_le behind, List.append_nil]

theorem toList_eq_data (bytes : ByteArray) : bytes.toList = bytes.data.toList :=
  toList_loop bytes 0 []

theorem addressOfBytes?_eq_some_iff {bytes : List UInt8} {address : String} :
    addressOfBytes? bytes = some address ↔ bytes = addressBytes address := by
  simp only [addressOfBytes?, String.fromUTF8?, addressBytes, toList_eq_data]
  constructor
  · intro h
    split at h
    · cases h
      rfl
    · contradiction
  · intro same
    subst same
    exact dif_pos address.isValidUTF8

end Handshake

theorem NextState.ofId?_eq_some_iff {n : Int32} {next : NextState} :
    NextState.ofId? n = some next ↔ next.id = n := by
  constructor
  · intro h
    simpa using List.find?_some h
  · intro same
    subst same
    exact NextState.ofId?_id next

namespace HandshakeSettings

/-- The version lies between the bounds; one that is not set bounds nothing. -/
def InRange (s : HandshakeSettings) (version : Int32) : Prop :=
  (∀ low, s.minProtocolVersion = some low → low.toInt ≤ version.toInt) ∧
    ∀ high, s.maxProtocolVersion = some high → version.toInt ≤ high.toInt

theorem acceptsVersion_iff {s : HandshakeSettings} {version : Int32} :
    s.acceptsVersion version = true ↔ s.InRange version := by
  simp only [acceptsVersion, InRange, Bool.and_eq_true, Option.all_eq_true, decide_eq_true_eq,
    Int32.le_iff_toInt_le]

theorem bind_eq_ok_iff {α β : Type} {x : Except HandshakeError α}
    {f : α → Except HandshakeError β} {b : β} :
    (x >>= f) = .ok b ↔ ∃ a, x = .ok a ∧ f a = .ok b := by
  cases x with
  | ok a => exact ⟨fun h => ⟨a, rfl, h⟩, fun ⟨_, h, found⟩ => by cases h; exact found⟩
  | error e => simp [bind, Except.bind]

theorem takeVersion_eq_ok_iff {s : HandshakeSettings} {bytes rest : List UInt8}
    {version : Int32} :
    s.takeVersion bytes = .ok (version, rest) ↔
      ∃ p, bytes = p ++ rest ∧ VarInt.Spells p version.toInt ∧ s.InRange version := by
  simp only [takeVersion, bind_eq_ok_iff, Prod.exists, Handshake.takeNumber_eq_ok_iff]
  constructor
  · intro given
    obtain ⟨word, tail, ⟨p, rfl, spells⟩, h⟩ := given
    split at h
    · rename_i accepted
      cases h
      exact ⟨p, rfl, spells, acceptsVersion_iff.mp accepted⟩
    · contradiction
  · intro given
    obtain ⟨p, rfl, spells, inRange⟩ := given
    refine ⟨version.toUInt32, rest, ⟨p, rfl, spells⟩, ?_⟩
    rw [Int32.toInt32_toUInt32, if_pos (acceptsVersion_iff.mpr inRange)]

/-- A word that is a positive number is that number. -/
theorem toNat_of_pos {word : UInt32} (h : 0 < word.toInt32.toInt) :
    (word.toNat : Int) = word.toInt32.toInt := by
  have signed := VarInt.toInt_toInt32_ofNat word.toNat
  rw [UInt32.ofNat_toNat, Int.bmod_def] at signed
  have below := word.toNat_lt
  split at signed <;> omega

theorem not_le_zero_iff {n : Int32} : ¬n ≤ 0 ↔ 0 < n.toInt := by
  rw [Int32.le_iff_toInt_le]
  exact Int.not_le

/-- A length that is spelled before what it counts is the word read there. -/
theorem word_of_spells {p : List UInt8} {n : Nat} (spells : VarInt.Spells p n) :
    ∃ word : UInt32, VarInt.Spells p word.toInt32.toInt ∧ word.toInt32.toInt = n :=
  have signed := (VarInt.toInt_toInt32_ofNat (VarInt.value p)).trans spells.signed
  ⟨UInt32.ofNat (VarInt.value p), signed ▸ spells, signed⟩

theorem takeAddress_eq_ok_iff {s : HandshakeSettings} {bytes rest : List UInt8}
    {address : String} :
    s.takeAddress bytes = .ok (address, rest) ↔
      ∃ p, bytes = p ++ Handshake.addressBytes address ++ rest ∧
        VarInt.Spells p (Handshake.addressBytes address).length ∧
        1 ≤ (Handshake.addressBytes address).length ∧
        (Handshake.addressBytes address).length ≤ s.maxAddressLength.toNat := by
  simp only [takeAddress, bind_eq_ok_iff, Prod.exists, Handshake.takeNumber_eq_ok_iff]
  constructor
  · intro given
    obtain ⟨word, tail, ⟨p, rfl, spells⟩, h⟩ := given
    split at h
    · contradiction
    rename_i positive
    have length := toNat_of_pos (not_le_zero_iff.mp positive)
    split at h
    · contradiction
    rename_i short
    simp only [bind_eq_ok_iff, Prod.exists, Handshake.takeBytes_eq_ok_iff] at h
    obtain ⟨text, after, ⟨rfl, counted⟩, h⟩ := h
    split at h
    · rename_i found read
      cases h
      rw [Handshake.addressOfBytes?_eq_some_iff] at read
      subst read
      rw [not_le_zero_iff] at positive
      refine ⟨p, (List.append_assoc ..).symm, ?_, by omega, by omega⟩
      rw [counted, length]
      exact spells
    · contradiction
  · intro given
    obtain ⟨p, rfl, spells, nonempty, short⟩ := given
    obtain ⟨word, spells, signed⟩ := word_of_spells spells
    have positive : 0 < word.toInt32.toInt := by omega
    have length := toNat_of_pos positive
    refine ⟨word, _, ⟨p, List.append_assoc .., spells⟩, ?_⟩
    rw [if_neg (not_le_zero_iff.mpr positive), if_neg (by omega)]
    simp only [bind_eq_ok_iff, Prod.exists, Handshake.takeBytes_eq_ok_iff]
    refine ⟨_, rest, ⟨rfl, by omega⟩, ?_⟩
    rw [Handshake.addressOfBytes?_eq_some_iff.mpr rfl]

theorem takeNextState_eq_ok_iff {s : HandshakeSettings} {bytes rest : List UInt8}
    {next : NextState} :
    s.takeNextState bytes = .ok (next, rest) ↔
      ∃ p, bytes = p ++ rest ∧ VarInt.Spells p next.id.toInt ∧ next ∈ s.allowedNextStates := by
  simp only [takeNextState, bind_eq_ok_iff, Prod.exists, Handshake.takeNumber_eq_ok_iff]
  constructor
  · intro given
    obtain ⟨word, tail, ⟨p, rfl, spells⟩, h⟩ := given
    split at h
    · contradiction
    · rename_i state found
      split at h
      · rename_i allowed
        cases h
        rw [NextState.ofId?_eq_some_iff] at found
        exact ⟨p, rfl, found ▸ spells, allowed⟩
      · contradiction
  · intro given
    obtain ⟨p, rfl, spells, allowed⟩ := given
    refine ⟨next.id.toUInt32, rest, ⟨p, rfl, spells⟩, ?_⟩
    simp [NextState.ofId?_id, allowed]

/-- What a frame consists of that brings `h`, without its length: packet number, version,
length and bytes of the address, port, and next state. -/
inductive Frame (s : HandshakeSettings) (h : Handshake) : List UInt8 → Prop
  | fields {packet version length next : List UInt8}
      (packet_number : VarInt.Spells packet 0)
      (version_spelled : VarInt.Spells version h.protocolVersion.toInt)
      (version_accepted : s.InRange h.protocolVersion)
      (length_spelled : VarInt.Spells length (Handshake.addressBytes h.serverAddress).length)
      (not_empty : 1 ≤ (Handshake.addressBytes h.serverAddress).length)
      (not_long : (Handshake.addressBytes h.serverAddress).length ≤ s.maxAddressLength.toNat)
      (next_spelled : VarInt.Spells next h.nextState.id.toInt)
      (next_allowed : h.nextState ∈ s.allowedNextStates) :
      Frame s h (packet ++ (version ++ (length ++ Handshake.addressBytes h.serverAddress ++
        (Handshake.portBytes h.serverPort ++ next))))

theorem toInt_toInt32_eq_zero_iff {word : UInt32} :
    word.toInt32.toInt = 0 ↔ word = Handshake.packetId := by
  constructor
  · intro h
    have zero : word.toInt32 = Handshake.packetId.toInt32 := Int32.toInt_inj.mp h
    simpa only [UInt32.toUInt32_toInt32] using congrArg Int32.toUInt32 zero
  · intro same
    subst same
    rfl

theorem parseFrame_eq_ok_iff {s : HandshakeSettings} {frame : List UInt8} {frameLength : Nat}
    {h : Handshake} :
    s.parseFrame frame frameLength = .ok h ↔ s.Frame h frame ∧ h.frameLength = frameLength := by
  simp only [parseFrame, bind_eq_ok_iff, Prod.exists, Handshake.takeNumber_eq_ok_iff]
  constructor
  · intro given
    obtain ⟨word, afterPacket, ⟨packet, rfl, packetSpelled⟩, read⟩ := given
    split at read
    · contradiction
    rename_i known
    rw [Decidable.not_not, ← toInt_toInt32_eq_zero_iff] at known
    simp only [bind_eq_ok_iff, Prod.exists, takeVersion_eq_ok_iff, takeAddress_eq_ok_iff,
      Handshake.takePort_eq_ok_iff, takeNextState_eq_ok_iff] at read
    obtain ⟨version, _, ⟨v, rfl, versionSpelled, inRange⟩, address, _,
      ⟨a, rfl, lengthSpelled, notEmpty, notLong⟩, port, _, rfl, next, rest,
      ⟨n, rfl, nextSpelled, allowed⟩, read⟩ := read
    split at read
    · rename_i nothingLeft
      cases read
      rw [List.isEmpty_iff.mp nothingLeft, List.append_nil]
      rw [known] at packetSpelled
      exact ⟨.fields packetSpelled versionSpelled inRange lengthSpelled notEmpty notLong
        nextSpelled allowed, rfl⟩
    · contradiction
  · intro given
    obtain ⟨⟨packetSpelled, versionSpelled, inRange, lengthSpelled, notEmpty, notLong,
      nextSpelled, allowed⟩, rfl⟩ := given
    refine ⟨Handshake.packetId, _, ⟨_, rfl, packetSpelled⟩, ?_⟩
    rw [if_neg (Decidable.not_not.mpr rfl)]
    simp only [bind_eq_ok_iff, Prod.exists, takeVersion_eq_ok_iff, takeAddress_eq_ok_iff,
      Handshake.takePort_eq_ok_iff, takeNextState_eq_ok_iff]
    exact ⟨h.protocolVersion, _, ⟨_, rfl, versionSpelled, inRange⟩,
      h.serverAddress, _, ⟨_, rfl, lengthSpelled, notEmpty, notLong⟩,
      h.serverPort, _, rfl, h.nextState, [], ⟨_, (List.append_nil _).symm, nextSpelled, allowed⟩,
      rfl⟩

/-- Bytes that begin with a handshake `h` that the settings allow: the length of its frame,
then the frame, then anything. The first byte is not the one of old clients. -/
inductive Opens (s : HandshakeSettings) (h : Handshake) : List UInt8 → Prop
  | intro {length frame rest : List UInt8}
      (modern : (length ++ (frame ++ rest)).head? ≠ some Handshake.legacyPingByte)
      (length_spelled : VarInt.Spells length frame.length)
      (not_empty : 0 < frame.length)
      (affordable : length.length + frame.length ≤ s.budget)
      (fields : s.Frame h frame)
      (counted : h.frameLength = length.length + frame.length) :
      Opens s h (length ++ (frame ++ rest))

theorem opens_of_parse {s : HandshakeSettings} {bytes : List UInt8} {h : Handshake}
    (complete : s.parse bytes = .complete h) : s.Opens h bytes := by
  simp only [parse] at complete
  split at complete
  · contradiction
  rename_i modern
  split at complete
  · split at complete <;> contradiction
  · contradiction
  rename_i word rest read
  rw [VarInt.decode_eq_ok_iff_spells] at read
  obtain ⟨length, rfl, spelled⟩ := read
  split at complete
  · contradiction
  rename_i positive
  have signed := toNat_of_pos (not_le_zero_iff.mp positive)
  split at complete
  · contradiction
  rename_i affordable
  split at complete
  · contradiction
  rename_i there
  obtain ⟨frame, rest, rfl, size⟩ :
      ∃ frame after, rest = frame ++ after ∧ frame.length = word.toNat :=
    ⟨_, _, (List.take_append_drop word.toNat rest).symm, by simp; omega⟩
  rw [← size, List.take_left] at complete
  split at complete
  · rename_i found parsed
    cases complete
    obtain ⟨fields, counted⟩ := parseFrame_eq_ok_iff.mp parsed
    rw [not_le_zero_iff] at positive
    simp only [List.length_append] at affordable counted
    rw [← signed, ← size] at spelled
    exact ⟨modern, spelled, by omega, by omega, fields, by omega⟩
  · contradiction

theorem parse_of_opens {s : HandshakeSettings} {bytes : List UInt8} {h : Handshake}
    (opens : s.Opens h bytes) : s.parse bytes = .complete h := by
  obtain ⟨modern, spelled, notEmpty, affordable, fields, counted⟩ := opens
  rename_i length frame rest
  obtain ⟨word, spelled, signed⟩ := word_of_spells spelled
  have positive : 0 < word.toInt32.toInt := by omega
  have size := toNat_of_pos positive
  have read : VarInt.decode (length ++ (frame ++ rest)) = .ok (word, frame ++ rest) :=
    VarInt.decode_eq_ok_iff_spells.mpr ⟨length, rfl, spelled⟩
  have count : (length ++ (frame ++ rest)).length - (frame ++ rest).length + word.toNat =
      h.frameLength := by
    simp only [List.length_append]
    omega
  have there : ¬(frame ++ rest).length < word.toNat := by
    simp only [List.length_append]
    omega
  have cut : (frame ++ rest).take word.toNat = frame := List.take_left' (by omega)
  have parsed := parseFrame_eq_ok_iff.mpr ⟨fields, rfl⟩
  simp only [parse, if_neg modern, read, count, if_neg (not_le_zero_iff.mpr positive), cut,
    parsed, if_neg there]
  exact if_neg (by omega)

/-- The parser completes a handshake exactly on the bytes that begin with it. -/
theorem parse_eq_complete_iff (s : HandshakeSettings) (bytes : List UInt8) (h : Handshake) :
    s.parse bytes = .complete h ↔ s.Opens h bytes :=
  ⟨opens_of_parse, parse_of_opens⟩

end HandshakeSettings

end AdmissionGate
