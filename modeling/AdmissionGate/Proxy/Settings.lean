import AdmissionGate.Settings.Load
import AdmissionGate.Text.Blank
import AdmissionGate.Toml.Printer

/-!
Settings of the proxy that stands behind the gate: where it listens, what it
protects, and the settings of the gate itself.
-/

namespace AdmissionGate

/-- Every address of the machine, at the port that players expect. -/
def Endpoint.everywhere : Endpoint := .v4 #v[0, 0, 0, 0] 25565

structure ProxySettings where
  listen : Endpoint := .everywhere
  /-- The protected server, as host and port. -/
  backend : String := "127.0.0.1:25566"
  /-- Connections at a time, decided on or not. -/
  maxConnections : UInt64 := 4096
  connectTimeoutMs : UInt64 := 5000
  /-- A session without traffic for so long is closed. -/
  idleTimeoutMs : UInt64 := 30000
  sweepIntervalMs : UInt64 := 10000
  shield : Settings := {}

inductive ProxyFault where
  | emptyBackend
  | noConnections
  | zeroConnectTimeout
  | zeroIdleTimeout
  | zeroSweepInterval
  | shield (fault : SettingsFault)
deriving DecidableEq

namespace ProxyFault

def error : ProxyFault → ProxyError
  | emptyBackend => .configuration "backend cannot be empty"
  | noConnections => .configuration "max_connections must be at least 1"
  | zeroConnectTimeout => .configuration "backend_connect_timeout_ms cannot be zero"
  | zeroIdleTimeout => .configuration "idle_timeout_ms cannot be zero"
  | zeroSweepInterval => .configuration "sweep_interval_ms cannot be zero"
  | shield fault => .gate (.ofSettings (.broken fault))

end ProxyFault

namespace Datum

def toEndpoint? (d : Datum) : Option Endpoint := d.toText?.bind Endpoint.ofText?

end Datum

namespace ProxySettings

def connectTimeout (s : ProxySettings) : Duration := .ofMillis s.connectTimeoutMs.toNat

def idleTimeout (s : ProxySettings) : Duration := .ofMillis s.idleTimeoutMs.toNat

def sweepInterval (s : ProxySettings) : Duration := .ofMillis s.sweepIntervalMs.toNat

def fault? (s : ProxySettings) : Option ProxyFault :=
  if Blank.isAllBlank s.backend.toList then some .emptyBackend
  else if s.maxConnections = 0 then some .noConnections
  else if s.connectTimeoutMs = 0 then some .zeroConnectTimeout
  else if s.idleTimeoutMs = 0 then some .zeroIdleTimeout
  else if s.sweepIntervalMs = 0 then some .zeroSweepInterval
  else s.shield.fault?.map .shield

def Valid (s : ProxySettings) : Prop := s.fault? = none

instance (s : ProxySettings) : Decidable s.Valid := inferInstanceAs (Decidable (_ = none))

def validated (s : ProxySettings) : Except ProxyError ProxySettings :=
  match s.fault? with
  | none => .ok s
  | some fault => .error fault.error

def ofDatum? (dialect : Dialect) (d : Datum) : Option ProxySettings := do
  let s ← d.toSection? dialect 7
  let base : ProxySettings := {}
  some {
    listen := ← s.read 0 "listen" Datum.toEndpoint? base.listen
    backend := ← s.read 1 "backend" Datum.toText? base.backend
    maxConnections := ← s.read 2 "max_connections" Datum.toUInt64? base.maxConnections
    connectTimeoutMs :=
      ← s.read 3 "backend_connect_timeout_ms" Datum.toUInt64? base.connectTimeoutMs
    idleTimeoutMs := ← s.read 4 "idle_timeout_ms" Datum.toUInt64? base.idleTimeoutMs
    sweepIntervalMs := ← s.read 5 "sweep_interval_ms" Datum.toUInt64? base.sweepIntervalMs
    shield := ← s.read 6 "shield" (Settings.ofDatum? dialect) base.shield }

def toDatum (s : ProxySettings) : Datum :=
  .table [
    ("listen", .text s.listen.text),
    ("backend", .text s.backend),
    ("max_connections", .ofWord s.maxConnections.toNat),
    ("backend_connect_timeout_ms", .ofWord s.connectTimeoutMs.toNat),
    ("idle_timeout_ms", .ofWord s.idleTimeoutMs.toNat),
    ("sweep_interval_ms", .ofWord s.sweepIntervalMs.toNat),
    ("shield", s.shield.toDatum)]

/-- The settings as TOML; there is no such text if a number does not fit the format. -/
def toToml? (s : ProxySettings) : Option String := Toml.text? s.toDatum

def ofToml (text : String) : Except ProxyError ProxySettings :=
  match (Toml.read? text).bind (ofDatum? Toml.dialect) with
  | some s => s.validated
  | none => .error (.configuration SettingsError.invalidToml.message)

/-- Settings from the content of a file, or from the reason that there is none. -/
def ofFile (path : String) (content : Except FileFault (List UInt8)) :
    Except ProxyError ProxySettings :=
  match content.bind Settings.textOfBytes with
  | .ok text => ofToml text
  | .error fault => .error (.configuration (SettingsError.unreadable path fault).message)

theorem ofToml_valid {text : String} {s : ProxySettings} (h : ofToml text = .ok s) :
    s.Valid := by
  unfold ofToml at h
  split at h
  · unfold validated at h
    split at h
    · cases h
      assumption
    · contradiction
  · contradiction

end ProxySettings

end AdmissionGate
