import AdmissionGate.Audit.Record
import AdmissionGate.Handshake.Error
import AdmissionGate.Registry.Basic
import AdmissionGate.SweepReport
import AdmissionGate.Text.Quoted
import AdmissionGate.Verdict

/-!
The journal: one entry for each thing that the gate notes down while it works.
An entry says what happened; `JournalEntry.line` puts it into the words, level
and fields under which it is filed.
-/

namespace AdmissionGate

inductive JournalEntry where
  | registered (key : ConnectionKey) (prior : Nat)
  | registrationBlocked (address : Address) (reason : Reason)
  | moved (key : ConnectionKey) (source target : ConnectionState)
  | moveIgnored (key : ConnectionKey) (source target : ConnectionState)
  | released (key : ConnectionKey)
  | blocked (address : Address) (reason : Reason) (duration : Option Duration) (count : Nat)
  | unblocked (address : Address)
  /-- A lookup found a block that had ended, and removed it. -/
  | blockExpired (address : Address)
  | blocksPurged (removed : Nat)
  | throttled (address : Address) (throttles : Nat) (retryAfter : Duration)
  | penalized (address : Address) (amount score : Float)
  | escalated (address : Address) (reason : Reason) (level : Nat) (duration : Option Duration)
  | entriesEvicted (removed : Nat)
  | bytesReceived (received buffered : Nat)
  | flagged (key : ConnectionKey) (score : Nat) (signals : List String)
  | chainBlocked (key : ConnectionKey) (engine : String)
  | ready (detector : String) (policy : FailurePolicy)
  | registrationRefused (address : Address) (error : GateError)
  /-- Waiting once more would take longer than an admission may wait. -/
  | waitExhausted (address : Address) (waited : Duration)
  | waiting (key : ConnectionKey) (delay : Duration)
  | peerLeft (key : ConnectionKey) (error : HandshakeError)
  | handshakeRejected (key : ConnectionKey) (error : HandshakeError)
  | recordVanished (key : ConnectionKey)
  | engineFailed (key : ConnectionKey) (engine error : String)
  | engineCrashed (key : ConnectionKey) (engine : String)
  | engineLate (key : ConnectionKey) (engine : String) (limit : Duration)
  | suspicious (key : ConnectionKey) (reason : Reason)
  | accepted (key : ConnectionKey) (version : Int32) (next : NextState) (degraded : Bool)
  | cancelled (key : ConnectionKey)
  | swept (report : SweepReport)
  /-- An audit event, where the journal is what audit events go to. -/
  | audited (event : AuditEvent)

namespace Journal

inductive Level where
  | trace
  | debug
  | info
  | warn
  | error
deriving DecidableEq, Repr

def Level.name : Level → String
  | .trace => "TRACE"
  | .debug => "DEBUG"
  | .info => "INFO"
  | .warn => "WARN"
  | .error => "ERROR"

inductive Topic where
  | registry
  | blocklist
  | limiter
  | handshake
  | detection
  | pipeline
  | audit
deriving DecidableEq, Repr

def Topic.path : Topic → String
  | .registry => "bastion_admission::registry"
  | .blocklist => "bastion_admission::blocklist"
  | .limiter => "bastion_admission::limiter"
  | .handshake => "bastion_admission::handshake"
  | .detection => "bastion_admission::detection"
  | .pipeline => "bastion_admission::pipeline"
  | .audit => "bastion_audit"

inductive Value where
  | text (s : String)
  | number (n : Int)
  | float (x : Float)
  | flag (b : Bool)

structure Line where
  level : Level
  topic : Topic
  message : String
  fields : List (String × Value)

def connection (key : ConnectionKey) : String × Value := ("connection", .text key.text)

def address (a : Address) : String × Value := ("ip", .text a.text)

def reason (r : Reason) : String × Value := ("reason", .text r.name)

def millis (name : String) (d : Duration) : String × Value := (name, .number d.wrappedMillis)

def count (name : String) (n : Nat) : String × Value := (name, .number n)

def engine (name : String) : String × Value := ("engine", .text name)

def errorField (message : String) : String × Value := ("error", .text message)

def policyLabel : FailurePolicy → String
  | .failOpen => "FailOpen"
  | .failClosed => "FailClosed"

def stateLabel : ConnectionState → String
  | .new => "New"
  | .registered => "Registered"
  | .handshakeValidated => "HandshakeValidated"
  | .classified => "Classified"
  | .admitted => "Admitted"
  | .rejected => "Rejected"

def auditLine (e : AuditEvent) : Line :=
  let subject := [("kind", Value.text e.kind.name), address e.address, reason e.reason]
  match e.kind with
  | .rejected =>
      ⟨.info, .audit, "Connection rejected", subject ++ [("state", .text (stateLabel e.state))]⟩
  | .escalated =>
      ⟨.warn, .audit, "Address escalated to block",
        subject ++ (e.blockMs.map (count "block_ms")).toList⟩
  | .degraded => ⟨.warn, .audit, "Connection admitted in degraded mode", subject⟩

end Journal

open Journal in
def JournalEntry.line : JournalEntry → Line
  | registered key prior =>
      ⟨.debug, .registry, "Connection registered",
        [connection key, count "prior_connections" prior]⟩
  | registrationBlocked a r =>
      ⟨.debug, .registry, "Registration refused: blocked", [address a, reason r]⟩
  | moved key source target =>
      ⟨.trace, .registry, "State transition",
        [connection key, ("from", .text source.name), ("to", .text target.name)]⟩
  | moveIgnored key source target =>
      ⟨.debug, .registry, "Illegal state transition ignored",
        [connection key, ("from", .text source.name), ("to", .text target.name)]⟩
  | released key => ⟨.debug, .registry, "Connection released", [connection key]⟩
  | blocked a r duration n =>
      ⟨.info, .blocklist, "Address blocked",
        [address a, reason r] ++ (duration.map (millis "duration_ms")).toList ++
          [count "block_count" n]⟩
  | unblocked a => ⟨.info, .blocklist, "Address unblocked", [address a]⟩
  | blockExpired a => ⟨.debug, .blocklist, "Block expired", [address a]⟩
  | blocksPurged removed =>
      ⟨.debug, .blocklist, "Purged expired blocks", [count "removed" removed]⟩
  | throttled a throttles retryAfter =>
      ⟨.debug, .limiter, "Connection rate exceeded",
        [address a, count "throttles" throttles, millis "retry_after_ms" retryAfter]⟩
  | penalized a amount score =>
      ⟨.debug, .limiter, "Reputation penalty",
        [address a, ("amount", .float amount), ("score", .float score)]⟩
  | escalated a r level duration =>
      ⟨.warn, .limiter, "Escalated to block",
        [address a, reason r, count "level" level] ++
          (duration.map (millis "duration_ms")).toList⟩
  | entriesEvicted removed =>
      ⟨.debug, .limiter, "Evicted idle reputation entries", [count "removed" removed]⟩
  | bytesReceived received buffered =>
      ⟨.debug, .handshake, "Handshake bytes received",
        [count "received" received, count "buffered" buffered]⟩
  | flagged key score signals =>
      ⟨.debug, .detection, "Heuristic flagged connection",
        [connection key, count "score" score, ("reasons", .text (Quoted.listText signals))]⟩
  | chainBlocked key name => ⟨.debug, .detection, "Chain blocked", [connection key, engine name]⟩
  | ready detector policy =>
      ⟨.info, .pipeline, "Admission pipeline ready",
        [("detector", .text detector), ("failure_policy", .text (policyLabel policy))]⟩
  | registrationRefused a e =>
      ⟨.debug, .pipeline, "Registration refused", [address a, errorField e.message]⟩
  | waitExhausted a waited =>
      ⟨.debug, .pipeline, "Throttle wait exhausted", [address a, millis "waited_ms" waited]⟩
  | waiting key delay =>
      ⟨.debug, .pipeline, "Throttling connection", [connection key, millis "delay_ms" delay]⟩
  | peerLeft key e =>
      ⟨.debug, .pipeline, "Peer left during handshake", [connection key, errorField e.message]⟩
  | handshakeRejected key e =>
      ⟨.debug, .pipeline, "Handshake rejected", [connection key, errorField e.message]⟩
  | recordVanished key =>
      ⟨.warn, .pipeline, "Registry record vanished during admission", [connection key]⟩
  | engineFailed key name message =>
      ⟨.error, .pipeline, "Detection engine failed",
        [connection key, engine name, errorField message]⟩
  | engineCrashed key name =>
      ⟨.error, .pipeline, "Detection engine panicked", [connection key, engine name]⟩
  | engineLate key name limit =>
      ⟨.warn, .pipeline, "Detection timed out",
        [connection key, engine name, millis "timeout_ms" limit]⟩
  | suspicious key r =>
      ⟨.debug, .pipeline, "Admitting suspicious connection", [connection key, reason r]⟩
  | accepted key version next degraded =>
      ⟨.info, .pipeline, "Connection admitted",
        [connection key, ("protocol", .number version.toInt), ("next_state", .text next.name),
          ("degraded", .flag degraded)]⟩
  | cancelled key => ⟨.debug, .pipeline, "Admission cancelled", [connection key]⟩
  | swept report => ⟨.debug, .pipeline, "Sweep complete", [("report", .text report.text)]⟩
  | audited e => auditLine e

end AdmissionGate
