import AdmissionGate.Handshake.NextState
import AdmissionGate.Text.Span

/-!
Why a handshake was not accepted.
-/

namespace AdmissionGate

inductive ReadFault where
  | reset
  | aborted
  | brokenPipe
  | timedOut
  | interrupted
  | unexpectedEnd
  | other
deriving DecidableEq, Repr

namespace ReadFault

def text : ReadFault → String
  | reset => "connection reset"
  | aborted => "connection aborted"
  | brokenPipe => "broken pipe"
  | timedOut => "timed out"
  | interrupted => "operation interrupted"
  | unexpectedEnd => "unexpected end of file"
  | other => "other error"

end ReadFault

inductive AddressFault where
  | empty
  | tooLong
  | notText
deriving DecidableEq, Repr

namespace AddressFault

def text : AddressFault → String
  | empty => "empty"
  | tooLong => "too long"
  | notText => "not utf-8"

end AddressFault

inductive HandshakeError where
  /-- The frame, or what came of it so far, is larger than the budget. -/
  | budgetExceeded (limit : Nat)
  | timeout (limit : Duration)
  /-- The peer closed the connection before its handshake was through. -/
  | connectionClosed
  | readFailed (fault : ReadFault)
  | truncated
  | varIntTooLong
  /-- The frame length is zero or negative. -/
  | invalidLength (length : Int32)
  | unexpectedPacket (id : UInt32)
  | unsupportedVersion (version : Int32)
  | invalidAddress (fault : AddressFault)
  | invalidNextState (id : Int32)
  /-- The next state is known, but clients may not ask for it. -/
  | disallowedNextState (state : NextState)
  | trailingBytes (count : Nat)
  | legacyPing
deriving DecidableEq

namespace HandshakeError

def message : HandshakeError → String
  | budgetExceeded limit => "handshake exceeds the " ++ Digits.decimal limit ++ "-byte budget"
  | timeout limit => "handshake not received within " ++ limit.text
  | connectionClosed => "connection closed before handshake completed"
  | readFailed fault => "read failed: " ++ fault.text
  | truncated => "handshake truncated"
  | varIntTooLong => "varint longer than 5 bytes"
  | invalidLength length => "invalid frame length " ++ Digits.decimalOfInt length.toInt
  | unexpectedPacket id => "unexpected packet id 0x" ++ Digits.hex 2 id.toNat
  | unsupportedVersion version =>
      "unsupported protocol version " ++ Digits.decimalOfInt version.toInt
  | invalidAddress fault => "invalid server address: " ++ fault.text
  | invalidNextState id => "invalid next state " ++ Digits.decimalOfInt id.toInt
  | disallowedNextState state => "next state " ++ state.name ++ " is not allowed"
  | trailingBytes count =>
      Digits.decimal count ++ " trailing bytes inside handshake frame"
  | legacyPing => "legacy server list ping"

/-- The peer went away, rather than sending something wrong. -/
def isDisconnect : HandshakeError → Bool
  | connectionClosed | readFailed _ => true
  | _ => false

end HandshakeError

end AdmissionGate
