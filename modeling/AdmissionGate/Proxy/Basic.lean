import AdmissionGate.Gate.Basic
import AdmissionGate.Proxy.Settings

/-!
The proxy: a gate with the settings of the connections around it, and a number of
slots, one for each connection that it handles at a time.
-/

namespace AdmissionGate

structure Proxy where
  settings : ProxySettings
  gate : Gate
  freeSlots : Nat
  stopped : Bool := false

namespace Proxy

def mostSlots : Nat := 2305843009213693951

inductive Creation where
  | ready (p : Proxy)
  | refused (e : ProxyError)
  /-- The settings ask for more slots than there can be. -/
  | tooManySlots

def ofGate (s : ProxySettings) (g : Gate) : Creation :=
  if s.maxConnections.toNat ≤ mostSlots then
    .ready { settings := s, gate := g, freeSlots := s.maxConnections.toNat }
  else .tooManySlots

/-- A proxy whose gate goes by signs and writes audit events to the journal. -/
def ofSettings (s : ProxySettings) : Creation :=
  match s.validated with
  | .error e => .refused e
  | .ok s =>
      match Gate.ofSettings s.shield none .journal none with
      | .error e => .refused (.gate (.ofSettings e))
      | .ok g => ofGate s g

def shutdown (p : Proxy) : Proxy := { p with stopped := true }

/-- Binds the address that the proxy listens on, unless the machine refuses it. -/
def bind (p : Proxy) (refusal : Option String) : Except ProxyError Unit :=
  match refusal with
  | none => .ok ()
  | some what => .error (.bindFailed p.settings.listen what)

def text (p : Proxy) : String :=
  "ShieldProxy \x7b listen: " ++ p.settings.listen.text ++ ", backend: " ++
    Quoted.text p.settings.backend ++ ", available_slots: " ++ Digits.decimal p.freeSlots ++
    ", .. \x7d"

end Proxy

end AdmissionGate
