import AdmissionGate.Handshake.Basic
import AdmissionGate.Journal

/-!
Detection engines. An engine is asked about a connection that sent a valid
handshake, and its opinion is there after some time, or never. A detector is an
engine or a chain of detectors, which are asked one after the other.
-/

namespace AdmissionGate

inductive EngineFault where
  | unavailable (what : String)
  | failed (what : String)
deriving DecidableEq

namespace EngineFault

def message : EngineFault → String
  | unavailable what => "detection engine unavailable: " ++ what
  | failed what => "detection engine failed: " ++ what

end EngineFault

/-- What an engine comes to. -/
inductive Opinion where
  | verdict (v : Verdict)
  | fault (f : EngineFault)
  | crash
deriving DecidableEq

/-- How a question to an engine goes; times count from the question. -/
structure Consultation where
  /-- The opinion and the time it takes; an engine that hangs has none. -/
  answer : Option (Duration × Opinion)
  /-- What is noted down meanwhile, in order. -/
  notes : List (Duration × JournalEntry) := []

namespace Consultation

def atOnce (o : Opinion) : Consultation := { answer := some (0, o) }

def delayed (c : Consultation) (d : Duration) : Consultation where
  answer := c.answer.map fun a => (d + a.1, a.2)
  notes := c.notes.map fun n => (d + n.1, n.2)

/-- Goes on after a verdict; anything else ends the matter. -/
def andThen (c : Consultation) (next : Verdict → Consultation) : Consultation :=
  match c.answer with
  | some (d, .verdict v) =>
      let rest := (next v).delayed d
      { rest with notes := c.notes ++ rest.notes }
  | _ => c

end Consultation

structure Engine where
  name : String
  classify : ConnectionRecord → Handshake → Consultation

def Engine.allowAll : Engine where
  name := "allow_all"
  classify _ _ := .atOnce (.verdict .allow)

inductive Detector where
  | engine (e : Engine)
  | chain (members : List Detector)

namespace Detector

def name : Detector → String
  | engine e => e.name
  | chain _ => "chain"

mutual

def classify (r : ConnectionRecord) (h : Handshake) : Detector → Consultation
  | engine e => e.classify r h
  | chain members => classifyAll r h .allow members

/-- Asks detectors in order until one blocks or fails. If none does, the first verdict
that throttles counts, and `kept` is the one that counts so far. -/
def classifyAll (r : ConnectionRecord) (h : Handshake) (kept : Verdict) :
    List Detector → Consultation
  | [] => .atOnce (.verdict kept)
  | d :: rest =>
      (classify r h d).andThen fun v =>
        if v.isBlocked then
          { answer := some (0, .verdict v), notes := [(0, .chainBlocked r.key d.name)] }
        else classifyAll r h (if kept.isAllowed then v else kept) rest

end

mutual

def engines : Detector → List Engine
  | engine e => [e]
  | chain members => enginesOf members

def enginesOf : List Detector → List Engine
  | [] => []
  | d :: rest => engines d ++ enginesOf rest

end

end Detector

end AdmissionGate
