import AdmissionGate.Handshake.Basic
import AdmissionGate.Handshake.Error
import AdmissionGate.Settings.Sections

/-!
Reading a handshake out of the bytes received so far. The answer depends on the
bytes alone, so it can be asked for again each time some more have come: either
the handshake is there, or it never will be, or more bytes are needed.
-/

namespace AdmissionGate

/-- What the bytes received so far amount to. -/
inductive Parsed where
  | complete (handshake : Handshake)
  /-- Nothing is wrong yet, but bytes are missing. -/
  | needMore
  | failed (error : HandshakeError)
deriving DecidableEq

namespace Handshake

/-- The first byte of the server list request of old clients. -/
def legacyPingByte : UInt8 := 0xfe

/-- A number inside a frame: there, too few bytes mean that the length lied. -/
def takeNumber (bytes : List UInt8) : Except HandshakeError (UInt32 × List UInt8) :=
  match VarInt.decode bytes with
  | .ok r => .ok r
  | .error .incomplete => .error .truncated
  | .error .tooLong => .error .varIntTooLong

def takeBytes (count : Nat) (bytes : List UInt8) :
    Except HandshakeError (List UInt8 × List UInt8) :=
  if bytes.length < count then .error .truncated
  else .ok (bytes.take count, bytes.drop count)

def takePort : List UInt8 → Except HandshakeError (UInt16 × List UInt8)
  | high :: low :: rest => .ok (UInt16.ofNat (256 * high.toNat + low.toNat), rest)
  | _ => .error .truncated

def addressOfBytes? (bytes : List UInt8) : Option String :=
  String.fromUTF8? (ByteArray.mk bytes.toArray)

end Handshake

namespace HandshakeSettings

def acceptsVersion (s : HandshakeSettings) (version : Int32) : Bool :=
  s.minProtocolVersion.all (· ≤ version) && s.maxProtocolVersion.all (version ≤ ·)

def takeVersion (s : HandshakeSettings) (bytes : List UInt8) :
    Except HandshakeError (Int32 × List UInt8) := do
  let (word, rest) ← Handshake.takeNumber bytes
  let version := word.toInt32
  if s.acceptsVersion version then .ok (version, rest)
  else .error (.unsupportedVersion version)

def takeAddress (s : HandshakeSettings) (bytes : List UInt8) :
    Except HandshakeError (String × List UInt8) := do
  let (word, rest) ← Handshake.takeNumber bytes
  let length := word.toInt32
  if length ≤ 0 then .error (.invalidAddress .empty)
  else if s.maxAddressLength.toNat < word.toNat then .error (.invalidAddress .tooLong)
  else do
    let (text, rest) ← Handshake.takeBytes word.toNat rest
    match Handshake.addressOfBytes? text with
    | some address => .ok (address, rest)
    | none => .error (.invalidAddress .notText)

def takeNextState (s : HandshakeSettings) (bytes : List UInt8) :
    Except HandshakeError (NextState × List UInt8) := do
  let (word, rest) ← Handshake.takeNumber bytes
  match NextState.ofId? word.toInt32 with
  | none => .error (.invalidNextState word.toInt32)
  | some state =>
      if state ∈ s.allowedNextStates then .ok (state, rest)
      else .error (.disallowedNextState state)

/-- The handshake in a frame, whose bytes are all there. `frameLength` counts the
frame with its own length. -/
def parseFrame (s : HandshakeSettings) (frame : List UInt8) (frameLength : Nat) :
    Except HandshakeError Handshake := do
  let (id, rest) ← Handshake.takeNumber frame
  if id ≠ Handshake.packetId then .error (.unexpectedPacket id)
  else do
    let (version, rest) ← s.takeVersion rest
    let (address, rest) ← s.takeAddress rest
    let (port, rest) ← Handshake.takePort rest
    let (next, rest) ← s.takeNextState rest
    if rest.isEmpty then
      .ok { protocolVersion := version, serverAddress := address, serverPort := port,
            nextState := next, frameLength := frameLength }
    else .error (.trailingBytes rest.length)

/-- What the bytes received so far amount to; bytes after the frame do not count. -/
def parse (s : HandshakeSettings) (bytes : List UInt8) : Parsed :=
  if bytes.head? = some Handshake.legacyPingByte then .failed .legacyPing
  else
    match VarInt.decode bytes with
    | .error .incomplete =>
        if s.budget ≤ bytes.length then .failed (.budgetExceeded s.budget) else .needMore
    | .error .tooLong => .failed .varIntTooLong
    | .ok (word, rest) =>
        let total := bytes.length - rest.length + word.toNat
        if word.toInt32 ≤ 0 then .failed (.invalidLength word.toInt32)
        else if s.budget < total then .failed (.budgetExceeded s.budget)
        else if rest.length < word.toNat then .needMore
        else
          match s.parseFrame (rest.take word.toNat) total with
          | .ok handshake => .complete handshake
          | .error e => .failed e

def validate (s : HandshakeSettings) (bytes : List UInt8) : Except HandshakeError Handshake :=
  match s.parse bytes with
  | .complete handshake => .ok handshake
  | .needMore => .error .truncated
  | .failed e => .error e

end HandshakeSettings

end AdmissionGate
