import AdmissionGate.Audit.EventId
import AdmissionGate.Audit.Record
import AdmissionGate.Audit.Sink
import AdmissionGate.Blocklist
import AdmissionGate.CommandLine.Folder
import AdmissionGate.CommandLine.Help
import AdmissionGate.CommandLine.Procedure
import AdmissionGate.CommandLine.Request
import AdmissionGate.ConnectionState
import AdmissionGate.Decimal.Shortest
import AdmissionGate.Detection.Engine
import AdmissionGate.Detection.Heuristic
import AdmissionGate.Detection.Scripted
import AdmissionGate.Error
import AdmissionGate.Gate.Admission
import AdmissionGate.Gate.Visit
import AdmissionGate.Handshake.Intake
import AdmissionGate.Handshake.Parser
import AdmissionGate.Journal
import AdmissionGate.Json.Printer
import AdmissionGate.Json.Reader
import AdmissionGate.Limiter.Basic
import AdmissionGate.Main
import AdmissionGate.Net.Address
import AdmissionGate.Net.AddressMap
import AdmissionGate.Net.Endpoint
import AdmissionGate.Proofs.Audit.Exchange
import AdmissionGate.Proofs.Audit.Retelling
import AdmissionGate.Proofs.Audit.Sinks
import AdmissionGate.Proofs.Detection.Chains
import AdmissionGate.Proofs.Detection.Literals
import AdmissionGate.Proofs.Detection.Scores
import AdmissionGate.Proofs.Detection.Spelling
import AdmissionGate.Proofs.Gate.Accounts
import AdmissionGate.Proofs.Gate.BlockTerms
import AdmissionGate.Proofs.Gate.Bytes
import AdmissionGate.Proofs.Gate.Cancellation
import AdmissionGate.Proofs.Gate.Checks
import AdmissionGate.Proofs.Gate.Consultation
import AdmissionGate.Proofs.Gate.Course
import AdmissionGate.Proofs.Gate.Custody
import AdmissionGate.Proofs.Gate.Deadlines
import AdmissionGate.Proofs.Gate.Delays
import AdmissionGate.Proofs.Gate.Escalation
import AdmissionGate.Proofs.Gate.FailurePolicy
import AdmissionGate.Proofs.Gate.Fidelity
import AdmissionGate.Proofs.Gate.Frame
import AdmissionGate.Proofs.Gate.Horizon
import AdmissionGate.Proofs.Gate.Keeping
import AdmissionGate.Proofs.Gate.Ledger
import AdmissionGate.Proofs.Gate.Mishaps
import AdmissionGate.Proofs.Gate.Passage
import AdmissionGate.Proofs.Gate.Questions
import AdmissionGate.Proofs.Gate.Records
import AdmissionGate.Proofs.Gate.Rounds
import AdmissionGate.Proofs.Gate.Schedule
import AdmissionGate.Proofs.Gate.Service
import AdmissionGate.Proofs.Gate.Silence
import AdmissionGate.Proofs.Gate.Soundness
import AdmissionGate.Proofs.Gate.Stages
import AdmissionGate.Proofs.Gate.Standing
import AdmissionGate.Proofs.Gate.Sweep
import AdmissionGate.Proofs.Gate.Tenure
import AdmissionGate.Proofs.Gate.ToldBlocks
import AdmissionGate.Proofs.Gate.Traffic
import AdmissionGate.Proofs.Gate.Trail
import AdmissionGate.Proofs.Handshake.Affordability
import AdmissionGate.Proofs.Handshake.Coding
import AdmissionGate.Proofs.Handshake.Grammar
import AdmissionGate.Proofs.Handshake.RoundTrip
import AdmissionGate.Proofs.Handshake.Segmentation
import AdmissionGate.Proofs.Limiter.Accord
import AdmissionGate.Proofs.Limiter.Backoff
import AdmissionGate.Proofs.Limiter.Blocks
import AdmissionGate.Proofs.Limiter.Entries
import AdmissionGate.Proofs.Limiter.Guard
import AdmissionGate.Proofs.Limiter.Idleness
import AdmissionGate.Proofs.Limiter.Locality
import AdmissionGate.Proofs.Limiter.RateBound
import AdmissionGate.Proofs.Limiter.Recovery
import AdmissionGate.Proofs.Limiter.Retry
import AdmissionGate.Proofs.Limiter.Ring
import AdmissionGate.Proofs.Limiter.Tally
import AdmissionGate.Proofs.Limiter.Throttles
import AdmissionGate.Proofs.Limiter.View
import AdmissionGate.Proofs.Proxy.Closing
import AdmissionGate.Proofs.Proxy.Configuration
import AdmissionGate.Proofs.Proxy.Forwarding
import AdmissionGate.Proofs.Proxy.Steps
import AdmissionGate.Proofs.Registry.Attendance
import AdmissionGate.Proofs.Registry.Balance
import AdmissionGate.Proofs.Registry.Numbering
import AdmissionGate.Proofs.Registry.Progression
import AdmissionGate.Proofs.Registry.Renaming
import AdmissionGate.Proofs.Registry.Turnover
import AdmissionGate.Proofs.Stores.Isolation
import AdmissionGate.Proofs.Stores.PlainBlocks
import AdmissionGate.Proxy.Basic
import AdmissionGate.Proxy.Handover
import AdmissionGate.Proxy.Session
import AdmissionGate.Proxy.Settings
import AdmissionGate.Registry.Basic
import AdmissionGate.Settings.Codec
import AdmissionGate.Settings.Datum
import AdmissionGate.Settings.Load
import AdmissionGate.Settings.Validation
import AdmissionGate.Text.Blank
import AdmissionGate.Text.Indent
import AdmissionGate.Text.Plain
import AdmissionGate.Toml.Basic
import AdmissionGate.Toml.Document
import AdmissionGate.Toml.Printer
import AdmissionGate.Toml.Reader
import AdmissionGate.Verdict
