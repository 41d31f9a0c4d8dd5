import AdmissionGate.Handshake.NextState
import AdmissionGate.Handshake.VarInt
import AdmissionGate.Text.HostName

/-!
The handshake, first packet of a session: a frame length, then packet number,
protocol version, the address and port that the client dialled, and what it
wants next.
-/

namespace AdmissionGate

structure Handshake where
  protocolVersion : Int32
  /-- The address as sent, with any markers after it. -/
  serverAddress : String
  serverPort : UInt16
  nextState : NextState
  /-- Bytes that the frame took up, its length included. -/
  frameLength : Nat
deriving DecidableEq

namespace Handshake

def packetId : UInt32 := 0

def portBytes (port : UInt16) : List UInt8 :=
  [(port.toNat / 256).toUInt8, (port.toNat % 256).toUInt8]

def addressBytes (address : String) : List UInt8 := address.toUTF8.toList

/-- The fields of a frame, without its length. -/
def bodyBytes (version : Int32) (address : String) (port : UInt16) (next : NextState) :
    List UInt8 :=
  VarInt.encode packetId ++
    VarInt.encode version.toUInt32 ++
    VarInt.encode (UInt32.ofNat (addressBytes address).length) ++
    addressBytes address ++
    portBytes port ++
    VarInt.encode next.id.toUInt32

def frameBytes (version : Int32) (address : String) (port : UInt16) (next : NextState) :
    List UInt8 :=
  let body := bodyBytes version address port next
  VarInt.encode (UInt32.ofNat body.length) ++ body

def ofFields (version : Int32) (address : String) (port : UInt16) (next : NextState) :
    Handshake where
  protocolVersion := version
  serverAddress := address
  serverPort := port
  nextState := next
  frameLength := (frameBytes version address port next).length

def toBytes (h : Handshake) : List UInt8 :=
  frameBytes h.protocolVersion h.serverAddress h.serverPort h.nextState

/-- The characters of the address before its first NUL, without dots at the end. -/
def hostChars (h : Handshake) : List Char :=
  HostName.dropTrailingDots (h.serverAddress.toList.takeWhile (· ≠ '\x00'))

def host (h : Handshake) : String := String.ofList h.hostChars

/-- Whether a proxy or a mod loader appended markers, which start with a NUL. -/
def hasForwardingMarkers (h : Handshake) : Bool := h.serverAddress.toList.contains '\x00'

end Handshake

end AdmissionGate
