import AdmissionGate.Proofs.Gate.Checks
import AdmissionGate.Proofs.Gate.Consultation
import AdmissionGate.Proofs.Gate.Ledger
import AdmissionGate.Proofs.Gate.Standing

/-!
Which rejections are told as escalations. Whether one is told so goes by its reason and its
block, and both can come from two places: a check that has just put a block on the address for
its rate, or a registration that has met such a block. As long as the detector does not turn
connections away for their rate there is no third, so what is counted as escalated is the checks
that escalate, and the attempts that are made while their blocks last.
-/

namespace AdmissionGate

/-- No entry is left of an address that is free. -/
theorem Blocklist.get?_settle_of_free {b : Blocklist} {a : Address} {now : Instant}
    (free : b.status? a now = none) : (b.settle a now).entries.get? a = none := by
  simp only [settle]
  split
  · assumption
  · rename_i e listed
    rw [if_pos (expired_of_free free listed)]
    exact (AddressMap.get?_erase ..).trans (if_pos rfl)

namespace Limiter

variable {l : Limiter} {b : Blocklist} {a : Address} {now : Instant}

/-- A check answers with a block for the rate just when the address was free before it, and is
listed with such a block after it. -/
theorem check_escalates_iff :
    (∃ length, (l.check b a now).answer = .block .rateExceeded length) ↔
      b.status? a now = none ∧
        ∃ e, (l.check b a now).blocklist.entries.get? a = some e ∧ e.reason = .rateExceeded := by
  have decision := l.check_decision b a now
  generalize l.check b a now = r at decision
  cases decision with
  | blocked status => simp [status]
  | unguarded free | allowed free | throttled free =>
      simp [Blocklist.get?_settle_of_free free]
  | disreputable free | tipped free => simp [escalate, Blocklist.get?_block]
  | excessive free => simp [escalate, Blocklist.get?_block, free]

theorem length_of_check {length : Option Duration}
    (answer : (l.check b a now).answer = .block .rateExceeded length) : length.isSome = true := by
  have decision := l.check_decision b a now
  generalize l.check b a now = r at decision answer
  cases decision with
  | excessive =>
      simp only [escalate, Verdict.block.injEq] at answer
      rw [← answer.2]
      rfl
  | _ => simp [escalate] at answer

theorem reason_of_penalize {amount : Float} {reason : Reason} {length : Option Duration}
    (answer : (l.penalize b a amount now).answer = some (.block reason length)) :
    reason = .reputationBlocked := by
  have penalty := l.penalize_penalty b a amount now
  generalize l.penalize b a amount now = r at penalty answer
  cases penalty with
  | ignored | added | known => cases answer
  | tipped =>
      simp only [escalate, Option.some.injEq, Verdict.block.injEq] at answer
      exact answer.1.symm

end Limiter

namespace StageResult

/-- The limiter has put a block on the address for its rate. -/
def escalates : StageResult → Bool
  | check (.block .rateExceeded _) => true
  | _ => false

def recalls : StageResult → Bool
  | registration (.error (.blocked _ .rateExceeded)) => true
  | _ => false

theorem escalates_check_block (reason : Reason) (length : Option Duration) :
    (check (.block reason length)).escalates = true ↔ reason = .rateExceeded := by
  cases reason <;> simp [escalates]

end StageResult

namespace Ending

def escalated (e : Ending) : Bool := e.trail.any (·.escalates)

def recalled (e : Ending) : Bool :=
  match e.outcome with
  | .rejected r => r.blockDuration.isSome && e.trail.any (·.recalls)
  | _ => false

structure Attributed (e : Ending) : Prop where
  told : e.outcome.escalates = true ↔ e.escalated = true ∨ e.recalled = true
  apart : ¬(e.escalated = true ∧ e.recalled = true)

/-- The checks of an admission, each on the gate that it found. It has escalated if one of them put
a block for the rate on an address that was free. -/
structure Checks (e : Ending) (a : Address) (looks : List (Instant × Gate)) : Prop where
  address : ∀ r, e.outcome = .rejected r → r.address = a
  verdicts : StageResult.verdicts e.trail =
    looks.map fun p => (p.2.limiter.check p.2.blocklist a p.1).answer
  escalated : e.escalated = true ↔ ∃ p ∈ looks, p.2.blocklist.status? a p.1 = none ∧
    ∃ block, (p.2.limiter.check p.2.blocklist a p.1).blocklist.entries.get? a = some block ∧
      block.reason = .rateExceeded

theorem escalated_iff (e : Ending) :
    e.escalated = true ↔
      ∃ v ∈ StageResult.verdicts e.trail, ∃ length, v = .block .rateExceeded length := by
  simp only [escalated, List.any_eq_true, StageResult.verdicts, List.mem_filterMap]
  constructor
  · rintro ⟨s, member, escalates⟩
    cases s with
    | check v =>
        cases v with
        | block reason length =>
            obtain rfl := (StageResult.escalates_check_block ..).mp escalates
            exact ⟨_, ⟨_, member, rfl⟩, length, rfl⟩
        | allow | throttle => contradiction
    | registration | greeting | question => contradiction
  · rintro ⟨v, ⟨s, member, told⟩, length, rfl⟩
    refine ⟨s, member, ?_⟩
    cases s with
    | check w =>
        cases told
        rfl
    | registration | greeting | question => contradiction

theorem Looked.checks {e : Ending} {found : List (Instant × Gate)} (looked : e.Looked found) :
    ∃ a looks, looks.Sublist found ∧ e.Checks a looks := by
  obtain ⟨a, ⟨looks, among, verdicts⟩, own⟩ := looked
  refine ⟨a, looks, among, own, verdicts, ?_⟩
  simp only [escalated_iff, verdicts, List.mem_map]
  constructor
  · rintro ⟨v, ⟨p, member, answer⟩, length, rfl⟩
    exact ⟨p, member, Limiter.check_escalates_iff.mp ⟨length, answer⟩⟩
  · rintro ⟨p, member, placed⟩
    obtain ⟨length, answer⟩ := Limiter.check_escalates_iff.mpr placed
    exact ⟨_, ⟨p, member, rfl⟩, length, answer⟩

theorem count_escalates {endings : List Ending} (each : ∀ e ∈ endings, e.Attributed) :
    endings.countP (·.outcome.escalates) =
      endings.countP (·.escalated) + endings.countP (·.recalled) := by
  induction endings with
  | nil => rfl
  | cons e rest ih =>
      have later := ih fun e member => each e (List.mem_cons_of_mem _ member)
      obtain ⟨told, apart⟩ := each e (List.mem_cons_self ..)
      simp only [List.countP_cons, later, told]
      cases escalated : e.escalated <;> cases recalled : e.recalled
      · simp
      · simp
        omega
      · simp
        omega
      · exact (apart ⟨escalated, recalled⟩).elim

end Ending

/-- No stage has to do with a block for the rate. -/
structure Unescalated (trail : List StageResult) : Prop where
  escalates : trail.any (·.escalates) = false
  recalls : trail.any (·.recalls) = false

theorem Candidate.any_passed (c : Candidate) (s : StageResult) (p : StageResult → Bool) :
    (c.passed s).trail.any p = (c.trail.any p || p s) := by
  simp [passed]

namespace Unescalated

theorem passed {c : Candidate} (before : Unescalated c.trail) {s : StageResult}
    (escalates : s.escalates = false) (recalls : s.recalls = false) :
    Unescalated (c.passed s).trail where
  escalates := by rw [c.any_passed, before.escalates, escalates, Bool.or_false]
  recalls := by rw [c.any_passed, before.recalls, recalls, Bool.or_false]

/-- An end that is no rejection. -/
theorem attributed {trail : List StageResult} (before : Unescalated trail) {o : Outcome}
    (kept : o.escalates = false) : Ending.Attributed ⟨o, trail⟩ := by
  have recalled : (⟨o, trail⟩ : Ending).recalled = false := by
    cases o <;> simp [Ending.recalled, before.recalls]
  constructor <;> simp [Ending.escalated, before.escalates, recalled, kept]

end Unescalated

/-- The detector turns nobody away for the rate of connections. -/
def Detector.Impartial (d : Detector) : Prop :=
  ∀ record h delay v, (d.classify record h).answer = some (delay, .verdict v) →
    v.reason? ≠ some .rateExceeded

theorem Detector.Answers.impartial {d : Detector} {trail : List StageResult} {reason : Reason}
    {length : Option Duration} (answers : d.Answers trail (.block reason length))
    (impartial : d.Impartial) : reason ≠ .rateExceeded := by
  obtain ⟨record, h, delay, -, answer⟩ := answers
  intro same
  exact impartial record h delay _ answer (congrArg some same)

def Point.Attributed : Point → Prop
  | .arriving .. => True
  | .considering c | .delayed c _ | .greeting c _ | .greeted c _ | .asking c _ | .awaiting c _
  | .concluding c _ _ | .judged c _ _ | .cancelling c | .accepting c _ _
  | .resting (.waiting c _) => Unescalated c.trail
  | .unjudged c _ reason => Unescalated c.trail ∧ reason ≠ .rateExceeded
  | .rejecting c _ reason length _ =>
      (c.trail.any (·.escalates) = true ↔ reason = .rateExceeded ∧ length.isSome = true) ∧
        c.trail.any (·.recalls) = false
  | .resting (.finished o _ trail) => Ending.Attributed ⟨o, trail⟩

/-- A rejection that has nothing to do with the rate. -/
theorem Unescalated.rejecting {c : Candidate} (before : Unescalated c.trail)
    (state : ConnectionState) {reason : Reason} (other : reason ≠ .rateExceeded)
    (length : Option Duration) (detail : Option String) :
    (Point.rejecting c state reason length detail).Attributed := by
  refine ⟨?_, before.recalls⟩
  simp [before.escalates, other]

open Gate in
theorem Leads.attributed {now : Instant} {stop : Bool} {g g' : Gate} {p p' : Point}
    (edge : Leads now stop g p g' p') (impartial : g.detector.Impartial)
    (consulted : p.Consulted g.detector) (before : p.Attributed) : p'.Attributed := by
  cases edge with
  | registered => exact ⟨rfl, rfl⟩
  | refused no =>
      simp only [refuse_eq]
      rcases Registry.register_error (registry_of_register _ _ no) with
        ⟨block, -, rfl⟩ | ⟨-, current, limit, rfl⟩
      · generalize (refusal _ _ _).1 = length
        constructor <;> cases block.reason <;> cases length <;>
          simp [Outcome.escalates, Rejection.escalates, GateError.reason, Ending.escalated,
            Ending.recalled, StageResult.escalates, StageResult.recalls]
      · refine Unescalated.attributed ⟨rfl, rfl⟩ ?_
        simp [Outcome.escalates, Rejection.escalates, GateError.reason]
  | allowed | throttled => exact before.passed rfl rfl
  | @blocked _ c reason length v =>
      have answer := congrArg Prod.fst v
      refine ⟨?_, ?_⟩
      · rw [c.any_passed, before.escalates, Bool.false_or, StageResult.escalates_check_block]
        refine ⟨fun same => ⟨same, ?_⟩, fun both => both.1⟩
        exact Limiter.length_of_check (same ▸ answer)
      · rw [c.any_passed, before.recalls]
        rfl
  | @exhausted _ _ reason retryAfter =>
      have quiet := before.passed (s := .check (.throttle reason retryAfter)) rfl rfl
      refine ⟨?_, quiet.recalls⟩
      simp [quiet.escalates]
  | welcomed | disconnected | asked => exact before.passed rfl rfl
  | malformed => exact (before.passed rfl rfl).rejecting _ (by decide) _ _
  | vanished => exact before.rejecting _ (by decide) _ _
  | failed | crashed | tooLate => exact ⟨before, by decide⟩
  | suspected => exact before
  | convicted penalty =>
      have answer := congrArg Prod.fst penalty
      exact before.rejecting _ (Limiter.reason_of_penalize answer ▸ by decide) _ _
  | turnedAway | banned => exact before.rejecting _ (consulted.impartial impartial) _ _
  | failsOpen => exact before.1
  | failsClosed => exact before.1.rejecting _ before.2 _ _
  | rejected =>
      obtain ⟨escalates, recalls⟩ := before
      constructor <;>
        simp [Outcome.escalates, Rejection.escalates, Ending.escalated, Ending.recalled, escalates,
          recalls]
  | cancelled | accepted => exact before.attributed rfl
  | _ => exact before

theorem preserved_attributed {d : Detector} (impartial : d.Impartial) :
    Preserved (fun _ g => g.detector = d) fun _ _ p => p.Consulted d ∧ p.Attributed where
  later _ own := own
  arriving _ _ _ _ := ⟨trivial, trivial⟩
  edge edge own before := by
    obtain ⟨own', consulted⟩ := (preserved_consulted d).edge edge own before.1
    subst own
    exact ⟨own', consulted, edge.attributed impartial before.1 before.2⟩
  resumed {_ _ _ w} waits _ _ := by
    cases w with
    | delay | greeting => exact ⟨trivial, waits.2⟩
    | opinion => exact waits
  perform own o := (preserved_consulted d).perform own o

namespace Service

/-- Events that tell of escalations are as many as the endings that are told so. -/
theorem Reports.escalations {endings : List Ending} {reports : List (List AuditEvent)}
    (told : Reports endings reports) :
    (reports.flatten.countP fun e => e.kind = .escalated) =
      endings.countP (·.outcome.escalates) := by
  induction told with
  | nil => rfl
  | cons tells _ ih =>
      rw [List.flatten_cons, List.countP_append, List.countP_cons, ih, tells.escalations,
        Nat.add_comm]

/-- What is counted and told as an escalation: every connection for which a check has escalated,
and besides every one that was turned away while such a block was in force. A check has escalated
if the address was free on the gate that it found, and is blocked for its rate after it. -/
theorem run_escalations (g : Gate) (impartial : g.detector.Impartial)
    (steps : List (Instant × Happening)) (ordered : (steps.map (·.1)).Pairwise (· ≤ ·)) :
    let endings := (run { gate := g } steps).1
    let v := (run { gate := g } steps).2
    (∀ e ∈ endings, e.Attributed ∧
      ∃ a looks, looks.Sublist (found { gate := g } steps) ∧ e.Checks a looks) ∧
      v.gate.counters.escalated =
        g.counters.escalated + (endings.countP (·.escalated) + endings.countP (·.recalled)) ∧
      ∃ reports : List (List AuditEvent),
        v.gate.sink = reports.flatten.foldl AuditSink.record g.sink ∧
        g.sink.Holds reports.flatten v.gate.sink ∧
        List.Forall₂
          (fun e events => (events.countP fun told => told.kind = .escalated) =
            if e.escalated || e.recalled then 1 else 0) endings reports ∧
        (reports.flatten.countP fun told => told.kind = .escalated) =
          endings.countP (·.escalated) + endings.countP (·.recalled) := by
  intro endings v
  have fresh := open_of_gate g
  have attributed : ∀ e ∈ endings, e.Attributed := by
    intro e member
    obtain ⟨now, g', rest, -, -, ended⟩ := ((preserved_attributed impartial).run fresh
      ⟨rfl, fun _ member => nomatch member⟩
      (List.pairwise_cons.mpr ⟨fun t _ => Nat.zero_le t, ordered⟩)).2 e member
    exact ended
  have count := Ending.count_escalates attributed
  obtain ⟨reports, tells, told⟩ := told_run fresh steps
  have nobody : ∀ x ∈ ({ gate := g } : Service).admissions, x.Looked [] := fun _ => nofun
  have looked := looked_run fresh nobody steps
  have holds := AuditSink.holds_foldl g.sink reports.flatten
  rw [← told.sink] at holds
  refine ⟨fun e member => ⟨attributed e member, (looked e member).checks⟩, ?_, reports,
    told.sink, holds, ?_, ?_⟩
  · rw [told.escalated, count]
  · refine ((List.forall₂_and_left _ _).mpr ⟨attributed, tells⟩).imp ?_
    rintro e events ⟨known, tells⟩
    simp only [tells.escalations, known.told, Bool.or_eq_true]
  · rw [Reports.escalations tells, count]

end Service

namespace Sample

theorem flood_escalations :
    let endings := (Service.run { gate := strict } flood).1
    let v := (Service.run { gate := strict } flood).2
    endings.map (fun e => (e.escalated, e.recalled)) =
        [(false, false), (true, false), (false, true)] ∧
      v.gate.counters.escalated =
        endings.countP (·.escalated) + endings.countP (·.recalled) := by
  have impartial : strict.detector.Impartial := by
    intro record h delay v answer
    cases answer
    decide
  have ordered : (flood.map (·.1)).Pairwise (· ≤ ·) := by decide +kernel
  obtain ⟨-, counted, -⟩ := Service.run_escalations strict impartial flood ordered
  have none_before : strict.counters.escalated = 0 := rfl
  rw [none_before, Nat.zero_add] at counted
  exact ⟨by decide +kernel, counted⟩

/-- Only one check escalates, but two escalations are counted and told. -/
theorem flood_recalled :
    let endings := (Service.run { gate := strict } flood).1
    let v := (Service.run { gate := strict } flood).2
    endings.countP (·.escalated) = 1 ∧ v.gate.counters.escalated = 2 ∧
      endings.any (fun e => e.outcome.escalates && !e.escalated) = true := by
  decide +kernel

end Sample

end AdmissionGate
