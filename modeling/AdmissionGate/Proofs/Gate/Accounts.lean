import AdmissionGate.Proofs.Gate.Custody
import AdmissionGate.Proofs.Gate.Ledger
import AdmissionGate.Proofs.Gate.Standing

/-!
The accounts of a gate that keeps a blocklist of its own. However its admissions are interleaved
with one another, with sweeps and with what operators do, every ending is counted once and told
as it was, and the live connections are those that somebody holds.
-/

namespace AdmissionGate

/-- The event tells what the rejection was, with its block in whole milliseconds. -/
structure AuditEvent.Records (e : AuditEvent) (r : Rejection) : Prop where
  kind : e.kind = .rejected ∨ e.kind = .escalated
  address : e.address = r.address
  connectionId : e.connectionId = r.connectionId
  reason : e.reason = r.reason
  state : e.state = r.state
  blockMs : e.blockMs = r.blockDuration.map Duration.toMillis

/-- The events that an outcome is to be told by: one for a rejection and for a connection
that is accepted without a verdict, and none for any other. -/
def Outcome.Recorded : Outcome → List AuditEvent → Prop
  | .rejected r, events => ∃ e, events = [e] ∧ e.Records r
  | .accepted c, events =>
      if c.degraded then
        ∃ e, events = [e] ∧ e.kind = .degraded ∧ e.connectionId = some c.key.id
      else events = []
  | .cancelled, events => events = []

/-- Milliseconds of a span that is no longer than the longest block do not wrap. -/
theorem BlockSettings.wrappedMillis_of_le {s : BlockSettings} {d : Duration}
    (le : d ≤ s.maxBlock) : d.wrappedMillis = d.toMillis := by
  have small : d.toMillis ≤ s.maxBlockMs.toNat :=
    Nat.div_le_of_le_mul (Nat.mul_comm _ _ ▸ le)
  exact Nat.mod_eq_of_lt (Nat.lt_of_le_of_lt small s.maxBlockMs.toNat_lt)

def Ending.rejection? (e : Ending) : Option Rejection :=
  match e.outcome with
  | .rejected r => some r
  | _ => none

/-- The connection was accepted without a verdict. -/
def Ending.isDegraded (e : Ending) : Bool :=
  match e.outcome with
  | .accepted c => c.degraded
  | _ => false

/-- Where every accepted connection was judged, one event after the other records a rejection. -/
theorem Ending.forall₂_records {endings : List Ending} {reports : List (List AuditEvent)}
    (recorded : List.Forall₂ (fun e events => e.outcome.Recorded events) endings reports)
    (judged : ∀ e ∈ endings, e.isDegraded = false) :
    List.Forall₂ AuditEvent.Records reports.flatten (endings.filterMap rejection?) := by
  induction recorded with
  | nil => exact .nil
  | @cons e events endings reports told rest ih =>
      have later := ih fun e member => judged e (List.mem_cons_of_mem _ member)
      have own := judged e (List.mem_cons_self ..)
      obtain ⟨outcome, trail⟩ := e
      rw [List.flatten_cons, List.filterMap_cons]
      cases outcome with
      | rejected r =>
          obtain ⟨event, rfl, records⟩ := told
          exact .cons records later
      | accepted c =>
          have whole : c.degraded = false := own
          simp only [Outcome.Recorded, whole, Bool.false_eq_true, if_false] at told
          rw [told]
          exact later
      | cancelled =>
          obtain rfl : events = [] := told
          exact later

theorem Outcome.Tells.recorded {o : Outcome} {events : List AuditEvent} (tells : o.Tells events)
    {s : BlockSettings}
    (short : ∀ r, o = .rejected r → ∀ d, r.blockDuration = some d → d ≤ s.maxBlock) :
    o.Recorded events := by
  cases tells with
  | accepted judged => simp [Recorded, judged]
  | degraded unjudged reason detail =>
      simp only [Recorded, unjudged, if_true]
      exact ⟨_, rfl, rfl, rfl⟩
  | @rejected r detail =>
      refine ⟨_, rfl, ?_, rfl, rfl, rfl, rfl, ?_⟩
      · cases escalates : r.escalates <;> simp [Rejection.event, AuditEvent.withBlock, escalates]
      · simp only [Rejection.event, AuditEvent.withBlock]
        cases told : r.blockDuration with
        | none => rfl
        | some d =>
            rw [Option.map_some, Option.map_some,
              BlockSettings.wrappedMillis_of_le (short r rfl d told)]
  | cancelled => rfl

/-- A gate that opens has counted nothing and holds nothing. -/
theorem Gate.ofSettings_ok {s : Settings} {detector : Option Detector} {sink : AuditSink}
    {blocklist : Option Blocklist} {g : Gate}
    (opened : Gate.ofSettings s detector sink blocklist = .ok g) :
    g.counters = {} ∧ g.sink = sink ∧ g.registry = .ofSettings g.settings.registry ∧
      g.blocklist = blocklist.getD (.ofSettings g.settings.blocklist) := by
  simp only [Gate.ofSettings] at opened
  cases valid : s.validated with
  | error e => simp [valid, bind, Except.bind] at opened
  | ok s' =>
      simp only [valid, bind, Except.bind, Except.ok.injEq] at opened
      subst opened
      exact ⟨rfl, rfl, rfl, rfl⟩

namespace Service

/-- Endings are as many as are counted, and each is told by the events that it should be told
by: the sink holds these events in the order of the endings, or has written them to the journal.
The live count is that of the admissions that are registered and of the leases. -/
theorem run_accounts {s : Settings} {detector : Option Detector} {sink : AuditSink} {g : Gate}
    (opened : Gate.ofSettings s detector sink none = .ok g)
    (steps : List (Instant × Happening)) (ordered : (steps.map (·.1)).Pairwise (· ≤ ·))
    (sparing : ∀ step ∈ steps, step.2.sparing = true) :
    let endings := (run { gate := g } steps).1
    let v := (run { gate := g } steps).2
    let c := v.gate.stats.counters
    endings.length = c.admitted + c.rejected + c.cancelled ∧
      (∃ reports, List.Forall₂ (fun e events => e.outcome.Recorded events) endings reports ∧
        sink.Holds reports.flatten v.gate.sink ∧
        g.Notes (sink.entries reports.flatten) v.gate) ∧
      v.gate.stats.activeConnections =
        v.admissions.countP (·.key?.isSome) + v.leases.length := by
  intro endings v c
  obtain ⟨counters, sinks, registry, blocklist⟩ := Gate.ofSettings_ok opened
  have fresh := open_of_gate g
  obtain ⟨reports, tells, told⟩ := told_run fresh steps
  refine ⟨?_, ⟨reports, ?_, ?_, ?_⟩, ?_⟩
  · have ended := told.ended
    rw [counters] at ended
    exact (ended.trans (Nat.zero_add _)).symm
  · have capped : g.blocklist.Capped g.settings.blocklist.maxBlock 0 :=
      blocklist ▸ .ofSettings _ 0
    have ends := ((preserved_capped _).run fresh ⟨capped, fun _ member => nomatch member⟩
      (List.pairwise_cons.mpr ⟨fun t _ => Nat.zero_le t, ordered⟩)).2
    refine ((List.forall₂_and_left _ _).mpr ⟨ends, tells⟩).imp ?_
    rintro e events ⟨⟨now, g', rest, capped, backed⟩, tells⟩
    apply tells.recorded
    intro r rejected d told
    rw [rejected] at backed
    exact (backed d told).le capped
  · rw [told.sink, sinks]
    exact AuditSink.holds_foldl sink _
  · rw [← sinks]
    exact told.notes
  · apply Custody.active
    apply custody_run fresh _ sparing
    refine ⟨?_, ?_⟩
    · exact registry ▸ .ofSettings _
    · rw [holders, registry]
      exact .refl []

open Sample in
/-- The two rejections of the flood are in the memory, and nothing else. -/
theorem flood_accounts :
    let endings := (run { gate := strict } flood).1
    let v := (run { gate := strict } flood).2
    let c := v.gate.stats.counters
    c = { admitted := 1, rejected := 2, escalated := 2 } ∧
      endings.length = c.admitted + c.rejected + c.cancelled ∧
      List.Forall₂ AuditEvent.Records v.gate.sink.kept (endings.filterMap (·.rejection?)) ∧
      (endings.filterMap (·.rejection?)).map (·.connectionId) = [some 2, none] ∧
      v.gate.stats.activeConnections = v.admissions.countP (·.key?.isSome) + v.leases.length := by
  have ordered : (flood.map (·.1)).Pairwise (· ≤ ·) := by decide +kernel
  have sparing : ∀ step ∈ flood, step.2.sparing = true := by decide +kernel
  obtain ⟨counted, ⟨reports, recorded, holds, -⟩, held⟩ :=
    run_accounts strict_opens flood ordered sparing
  have judged : ∀ e ∈ (run { gate := strict } flood).1, e.isDegraded = false := by decide +kernel
  have kept := (holds.memory [] rfl).2
  rw [List.nil_append] at kept
  refine ⟨?_, counted, ?_, ?_, held⟩
  · decide +kernel
  · exact kept ▸ Ending.forall₂_records recorded judged
  · decide +kernel

end Service

end AdmissionGate
