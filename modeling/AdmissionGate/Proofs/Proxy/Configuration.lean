import AdmissionGate.Proofs.Net.EndpointText
import AdmissionGate.Proofs.Settings.RoundTrip
import AdmissionGate.Proxy.Settings

/-!
The settings of the proxy survive their text. They are written as one document, whose first lines
are those of the proxy itself, with a table for each section of the gate.
-/

namespace AdmissionGate

open Toml

theorem Endpoint.isQuotable_text (e : Endpoint) : IsQuotable e.text.toList := by
  rw [Endpoint.text, String.toList_ofList]
  exact Endpoint.forall_mem_toChars (by decide) (show IsQuotable _ by decide) e

namespace ProxySettings

/-- The integers of 64 bits, those of the gate among them. -/
def words (s : ProxySettings) : List UInt64 :=
  [s.maxConnections, s.connectTimeoutMs, s.idleTimeoutMs, s.sweepIntervalMs] ++ s.shield.words

def texts (s : ProxySettings) : List String :=
  s.backend :: s.shield.detection.heuristic.expectedHosts

def numbers (s : ProxySettings) : List Float := s.shield.reputation.numbers

variable {s : ProxySettings}

theorem survives {room : Nat} (small : ∀ n ∈ s.words, n.toNat < 2 ^ 63)
    (quotable : ∀ t ∈ s.texts, IsQuotable t.toList)
    (finite : ∀ x ∈ s.numbers, x.isFinite = true)
    (back : ∀ x ∈ s.numbers, Decimal.ReadsBack x) :
    Survives (room + 4) (ofDatum? Toml.dialect) s s.toDatum := by
  obtain ⟨own, inner⟩ := List.forall_mem_append.mp small
  obtain ⟨backend, hosts⟩ := List.forall_mem_cons.mp quotable
  have shield : Survives (room + 3) _ s.shield _ := Settings.survives inner hosts finite back
  refine survives_section ?keys ?each fun table => ?decoded
  case keys =>
    simp only [List.map_cons, List.map_nil]
    decide
  case each =>
    have words : ∀ n ∈ [s.maxConnections, s.connectTimeoutMs, s.idleTimeoutMs, s.sweepIntervalMs],
        IsEntry (room + 3) (.ofWord n.toNat) := fun n member => isEntry_ofWord (own n member)
    simp only [List.forall_mem_cons] at words
    simp [words, isEntry_text backend, isEntry_text s.listen.isQuotable_text, shield.entry]
  case decoded =>
    have listen : Datum.toEndpoint? (.text s.listen.text) = some s.listen :=
      Endpoint.ofText?_text s.listen
    simp [ofDatum?, Datum.toSection?, Datum.toText?, read_readEntries table, listen, shield.elim]

/-- Settings that break no rule are the same when they are read from the text they are written to,
if no integer needs all 64 bits, no string holds a control character or an apostrophe, and no
number is infinite. That the text of a number reads back is a property of the number alone. -/
theorem ofToml_toToml (valid : s.Valid) (small : ∀ n ∈ s.words, n.toNat < 2 ^ 63)
    (quotable : ∀ t ∈ s.texts, IsQuotable t.toList)
    (finite : ∀ x ∈ s.numbers, x.isFinite = true)
    (back : ∀ x ∈ s.numbers, Decimal.ReadsBack x) :
    ∃ text, s.toToml? = some text ∧ ofToml text = .ok s := by
  have survives : Survives 4 (ofDatum? Toml.dialect) s s.toDatum :=
    survives small quotable finite back
  obtain ⟨text, written, read⟩ := Survives.exists_text survives (by decide)
  refine ⟨text, written, ?_⟩
  rw [ofToml, read]
  dsimp only
  rw [validated, valid]

/-- A proxy that may start gives every backend, every session and every pause between two sweeps
some time. -/
theorem Valid.lasting (valid : s.Valid) :
    0 < s.connectTimeout ∧ 0 < s.idleTimeout ∧ 0 < s.sweepInterval := by
  have positive {ms : UInt64} (given : ms ≠ 0) : 0 < Duration.ofMillis ms.toNat :=
    Nat.mul_pos (Nat.pos_of_ne_zero fun none => given (UInt64.toNat_inj.mp none)) (by decide)
  rw [Valid, fault?] at valid
  split_ifs at valid with _ _ connect idle sweep
  exact ⟨positive connect, positive idle, positive sweep⟩

end ProxySettings

namespace Sample

def remote : ProxySettings where
  listen := .v6 #v[0xfe80, 0, 0, 0, 0, 0, 0, 1] 2 25577
  backend := "10.0.0.2:25566"
  shield := {
    reputation := { blockScore := 120.5, decayPerSecond := 0.1 }
    handshake := { minProtocolVersion := some 47, allowedNextStates := [.login] }
    detection := {
      failurePolicy := .failClosed
      heuristic := {
        expectedHosts := ["play.example.org", "the \"old\" name"]
        expectedPort := some 25565 } } }

theorem remote_kept :
    remote.Valid ∧ ∃ text, remote.toToml? = some text ∧ ProxySettings.ofToml text = .ok remote :=
  have valid : remote.Valid := by decide +kernel
  have small : remote.words.all (·.toNat < 2 ^ 63) = true := by decide +kernel
  have quotable : ∀ t ∈ remote.texts, IsQuotable t.toList := by decide +kernel
  have finite : ∀ x ∈ remote.numbers, x.isFinite = true := by decide +kernel
  have back : ∀ x ∈ remote.numbers, Decimal.ReadsBack x := by decide +kernel
  ⟨valid, ProxySettings.ofToml_toToml valid
    (fun n member => of_decide_eq_true (List.all_eq_true.mp small n member)) quotable finite back⟩

end Sample

end AdmissionGate
