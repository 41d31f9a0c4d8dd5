import AdmissionGate.Proofs.Audit.Sinks
import AdmissionGate.Proofs.Gate.Service
import Mathlib.Data.List.Forall2

/-!
What the gate tells and counts about admissions. An admission that goes on tells nothing, unless
the detector fails open; an end is counted once, and a rejection tells one event. So over a run
the counters and the sink hold what the endings amount to, one after the other.
-/

namespace AdmissionGate

def Counters.ended (c : Counters) : Nat := c.admitted + c.rejected + c.cancelled

def Rejection.escalates (r : Rejection) : Bool :=
  r.reason = .rateExceeded ∧ r.blockDuration.isSome

def Rejection.event (r : Rejection) (detail : Option String) : AuditEvent :=
  AuditEvent.withBlock
    { kind := if r.escalates then .escalated else .rejected
      address := r.address
      connectionId := r.connectionId
      reason := r.reason
      state := r.state
      detail }
    r.blockDuration

def ConnectionKey.degradedEvent (k : ConnectionKey) (reason : Reason) (detail : Option String) :
    AuditEvent where
  kind := .degraded
  address := k.address
  connectionId := some k.id
  reason
  state := .classified
  detail

namespace Outcome

def escalates : Outcome → Bool
  | rejected r => r.escalates
  | _ => false

inductive Tells : Outcome → List AuditEvent → Prop
  | accepted {c : Accepted} (judged : c.degraded = false) : Tells (.accepted c) []
  | degraded {c : Accepted} (unjudged : c.degraded = true) (reason : Reason)
      (detail : Option String) : Tells (.accepted c) [c.key.degradedEvent reason detail]
  | rejected {r : Rejection} (detail : Option String) : Tells (.rejected r) [r.event detail]
  | cancelled : Tells .cancelled []

theorem Tells.escalations {o : Outcome} {events : List AuditEvent} (tells : o.Tells events) :
    (events.countP fun e => e.kind = .escalated) = if o.escalates then 1 else 0 := by
  cases tells with
  | accepted | degraded | cancelled => rfl
  | @rejected r =>
      cases escalates : r.escalates <;>
        simp [Rejection.event, AuditEvent.withBlock, Outcome.escalates, escalates]

end Outcome

/-- Nothing but these entries was added to the journal, and those of `told` are among them. -/
def Gate.Notes (g : Gate) (told : List JournalEntry) (g' : Gate) : Prop :=
  ∃ entries, g'.journal = g.journal ++ entries ∧ told.Sublist entries

theorem Gate.Notes.refl (g : Gate) : g.Notes [] g := ⟨[], (List.append_nil _).symm, .slnil⟩

theorem Gate.Notes.trans {g g₁ g' : Gate} {told later : List JournalEntry}
    (first : g.Notes told g₁) (second : g₁.Notes later g') : g.Notes (told ++ later) g' := by
  obtain ⟨entries, same, among⟩ := first
  obtain ⟨more, same', among'⟩ := second
  exact ⟨entries ++ more, by rw [same', same, List.append_assoc], among.append among'⟩

def AuditSink.entries (s : AuditSink) (events : List AuditEvent) : List JournalEntry :=
  match s with
  | journal => events.map .audited
  | _ => []

theorem AuditSink.entries_nil (s : AuditSink) : s.entries [] = [] := by
  cases s <;> rfl

theorem AuditSink.entries_append (s : AuditSink) (events later : List AuditEvent) :
    s.entries (events ++ later) =
      s.entries events ++ (events.foldl record s).entries later := by
  cases s with
  | journal =>
      rw [foldl_journal]
      exact List.map_append ..
  | memory before =>
      rw [foldl_memory]
      rfl
  | queue q =>
      rw [foldl_queue]
      rfl
  | discard =>
      have still : events.foldl record .discard = .discard := by
        induction events with
        | nil => rfl
        | cons e rest ih => exact ih
      rw [still]
      rfl

/-- What was told and counted between two gates. -/
structure Gate.Told (g : Gate) (events : List AuditEvent) (ended escalated : Nat) (g' : Gate) :
    Prop where
  sink : g'.sink = events.foldl AuditSink.record g.sink
  notes : g.Notes (g.sink.entries events) g'
  ended : g'.counters.ended = g.counters.ended + ended
  escalated : g'.counters.escalated = g.counters.escalated + escalated

namespace Gate.Told

variable {g g₁ g' : Gate} {a : Address} {k : ConnectionKey} {now : Instant}
  {events later : List AuditEvent} {ended escalated n m : Nat}

/-- Something that tells nothing, but may count and add to the journal. -/
theorem silent {entries : List JournalEntry} (sink : g'.sink = g.sink)
    (counters : g'.counters.ended = g.counters.ended + ended ∧
      g'.counters.escalated = g.counters.escalated + escalated)
    (journal : g'.journal = g.journal ++ entries) : g.Told [] ended escalated g' where
  sink := sink
  notes := ⟨entries, journal, by rw [AuditSink.entries_nil]; exact List.nil_sublist _⟩
  ended := counters.1
  escalated := counters.2

theorem still (sink : g'.sink = g.sink)
    (counters : g'.counters.ended = g.counters.ended + ended ∧
      g'.counters.escalated = g.counters.escalated + escalated)
    (journal : g'.journal = g.journal) : g.Told [] ended escalated g' :=
  silent sink counters (journal.trans (List.append_nil _).symm)

theorem refl (g : Gate) : g.Told [] 0 0 g := still rfl ⟨rfl, rfl⟩ rfl

theorem trans (first : g.Told events ended escalated g₁) (second : g₁.Told later n m g') :
    g.Told (events ++ later) (ended + n) (escalated + m) g' where
  sink := by rw [second.sink, first.sink, List.foldl_append]
  notes := by
    rw [AuditSink.entries_append, ← first.sink]
    exact first.notes.trans second.notes
  ended := by rw [second.ended, first.ended, Nat.add_assoc]
  escalated := by rw [second.escalated, first.escalated, Nat.add_assoc]

/-- Something that tells and counts nothing. -/
theorem quiet (before : g.Told events ended escalated g₁) (next : g₁.Told [] 0 0 g') :
    g.Told events ended escalated g' := by
  have both := before.trans next
  rwa [List.append_nil] at both

/-- Something after what tells and counts nothing. -/
theorem following (before : g.Told [] 0 0 g₁) (next : g₁.Told events ended escalated g') :
    g.Told events ended escalated g' := by
  have both := before.trans next
  rwa [List.nil_append, Nat.zero_add, Nat.zero_add] at both

theorem note (g : Gate) (entries : List JournalEntry) : g.Told [] 0 0 (g.note entries) :=
  silent rfl ⟨rfl, rfl⟩ rfl

theorem of_register {result : Except GateError ConnectionKey}
    (answer : g.register a now = (result, g')) : g.Told [] 0 0 g' := by
  cases answer
  exact silent rfl ⟨rfl, rfl⟩ rfl

theorem of_check {v : Verdict} (answer : g.check a now = (v, g')) : g.Told [] 0 0 g' := by
  cases answer
  exact silent rfl ⟨rfl, rfl⟩ rfl

theorem of_penalizeBy {amount : Float} {v : Option Verdict}
    (answer : g.penalizeBy a amount now = (v, g')) : g.Told [] 0 0 g' := by
  cases answer
  exact silent rfl ⟨rfl, rfl⟩ rfl

theorem of_penalize {reason : Reason} {length : Option Duration}
    (answer : g.penalize a reason now = (length, g')) : g.Told [] 0 0 g' := by
  cases answer
  exact silent rfl ⟨rfl, rfl⟩ rfl

theorem of_block {reason : Reason} {requested length : Option Duration}
    (answer : g.block a reason requested now = (length, g')) : g.Told [] 0 0 g' := by
  cases answer
  exact silent rfl ⟨rfl, rfl⟩ rfl

theorem sampleReputation (g : Gate) (k : ConnectionKey) (now : Instant) :
    g.Told [] 0 0 (g.sampleReputation k now) := by
  simp only [Gate.sampleReputation]
  split <;> exact still rfl ⟨rfl, rfl⟩ rfl

theorem counted (g : Gate) (now : Instant) (c : Candidate) (q : Question) :
    g.Told [] 0 0 (g.counted now c q) := by
  simp only [Gate.counted]
  split <;> exact still rfl ⟨rfl, rfl⟩ rfl

theorem setState (g : Gate) (k : ConnectionKey) (state : ConnectionState) :
    g.Told [] 0 0 (g.setState k state) :=
  silent rfl ⟨rfl, rfl⟩ rfl

theorem release (g : Gate) (k : ConnectionKey) (now : Instant) :
    g.Told [] 0 0 (g.release k now) :=
  silent rfl ⟨rfl, rfl⟩ rfl

theorem refusal (g : Gate) (now : Instant) (e : GateError) :
    g.Told [] 0 0 (g.refusal now e).2 := by
  cases e with
  | blocked | connectionLimit => exact silent rfl ⟨rfl, rfl⟩ rfl
  | configuration | internal => exact .refl g

theorem recordAudit (g : Gate) (e : AuditEvent) : g.Told [e] 0 0 (g.recordAudit e) where
  sink := rfl
  notes := ⟨_, rfl, by cases g.sink <;> exact .refl _⟩
  ended := rfl
  escalated := rfl

theorem degrade (g : Gate) (c : Candidate) (reason : Reason) :
    ∃ detail, g.Told [c.key.degradedEvent reason detail] 0 0 (g.degrade c reason) := by
  have classified : g.Told [] 0 0 { g.setState c.key .classified with
      counters.degraded := (g.setState c.key .classified).counters.degraded + 1 } :=
    (setState g c.key .classified).quiet (still rfl ⟨rfl, rfl⟩ rfl)
  exact ⟨_, classified.following (recordAudit ..)⟩

theorem countRejection (g : Gate) (escalates : Bool) :
    g.Told [] 1 (if escalates then 1 else 0)
      { g with counters := Gate.countRejection g.counters escalates } := by
  refine still rfl ⟨?_, ?_⟩ rfl
  · simp only [Gate.countRejection, Counters.ended]
    omega
  · cases escalates <;> rfl

theorem turnAway (g : Gate) (now : Instant) (r : Rejection) (key : Option ConnectionKey)
    (detail : Option String) :
    g.Told [r.event detail] 1 (if r.escalates then 1 else 0) (g.turnAway now r key detail) := by
  have told (g : Gate) : g.Told [r.event detail] 1 (if r.escalates then 1 else 0)
      (g.turnAway now r none detail) := by
    have counted := (countRejection g r.escalates).trans (recordAudit _ (r.event detail))
    simpa [Gate.turnAway, Rejection.event, Rejection.escalates] using counted
  cases key with
  | none => exact told g
  | some k => exact ((setState g k .rejected).following (told _)).quiet (release _ k now)

theorem reject (g : Gate) (now : Instant) (c : Candidate) (state : ConnectionState)
    (reason : Reason) (length : Option Duration) (detail : Option String) :
    let r : Rejection := ⟨c.address, some c.key.id, reason, state, length⟩
    g.Told [r.event detail] 1 (if r.escalates then 1 else 0)
      (g.reject now c state reason length detail).2 :=
  turnAway g now _ (some c.key) detail

theorem cancel (g : Gate) (now : Instant) (c : Candidate) :
    g.Told [] 1 0 (g.cancel now c).2 := by
  have ended : g.Told [] 1 0 { g with counters.cancelled := g.counters.cancelled + 1 } :=
    still rfl ⟨rfl, rfl⟩ rfl
  exact (ended.quiet (note ..)).quiet (release ..)

theorem accept (g : Gate) (c : Candidate) (h : Handshake) (degraded : Bool) :
    g.Told [] 1 0 (g.accept c h degraded).2 := by
  have ended (g : Gate) : g.Told [] 1 0 { g with counters.admitted := g.counters.admitted + 1 } := by
    refine still rfl ⟨?_, rfl⟩ rfl
    simp only [Counters.ended]
    omega
  exact ((setState g c.key .admitted).following (ended _)).quiet (note ..)

theorem perform (g : Gate) (now : Instant) (o : Operation) :
    g.Told [] 0 0 (g.perform now o) := by
  cases o with
  | unblock a =>
      simp only [Gate.perform, Gate.unblock]
      split
      · exact silent rfl ⟨rfl, rfl⟩ rfl
      · exact .refl g
  | _ => first | exact silent rfl ⟨rfl, rfl⟩ rfl | exact still rfl ⟨rfl, rfl⟩ rfl

end Gate.Told

/-- What was told and counted since the gate `g₀` of the admission at a point. -/
def Point.Told (g₀ g : Gate) : Point → Prop
  | .accepting c _ true =>
      ∃ reason detail, g₀.Told [c.key.degradedEvent reason detail] 0 0 g
  | .resting (.finished o _ _) =>
      ∃ events, o.Tells events ∧ g₀.Told events 1 (if o.escalates then 1 else 0) g
  | _ => g₀.Told [] 0 0 g

open Gate in
theorem Leads.told {now : Instant} {stop : Bool} {g g' : Gate} {p p' : Point}
    (edge : Leads now stop g p g' p') {g₀ : Gate} (before : p.Told g₀ g) : p'.Told g₀ g' := by
  cases edge with
  | registered free => exact before.quiet (.of_register free)
  | @refused _ _ _ e no =>
      have found_out := (before.quiet (.of_register no)).quiet (.refusal _ now e)
      simp only [refuse_eq]
      exact ⟨_, .rejected none, found_out.following (.following (.note ..) (.turnAway ..))⟩
  | allowed v | blocked v => exact before.quiet (.of_check v)
  | exhausted v _ => exact (before.quiet (.of_check v)).quiet (.note ..)
  | throttled v _ => exact (before.quiet (.of_check v)).quiet (.silent rfl ⟨rfl, rfl⟩ rfl)
  | welcomed =>
      refine before.quiet (.following ?_ (.sampleReputation ..))
      exact .silent rfl ⟨rfl, rfl⟩ rfl
  | disconnected => exact before.quiet (.silent rfl ⟨rfl, rfl⟩ rfl)
  | malformed _ penalty =>
      refine before.quiet (.following ?_ (.of_penalize penalty))
      exact .silent rfl ⟨rfl, rfl⟩ rfl
  | ruled => exact (before.quiet (.counted ..)).quiet (.setState ..)
  | failed | crashed | tooLate => exact (before.quiet (.counted ..)).quiet (.note ..)
  | suspected penalty _ => exact (before.quiet (.of_penalizeBy penalty)).quiet (.note ..)
  | convicted penalty => exact before.quiet (.of_penalizeBy penalty)
  | turnedAway penalty | failsClosed _ penalty => exact before.quiet (.of_penalize penalty)
  | banned penalty block => exact (before.quiet (.of_penalize penalty)).quiet (.of_block block)
  | failsOpen =>
      obtain ⟨detail, told⟩ := Told.degrade g _ _
      exact ⟨_, detail, before.following told⟩
  | rejected => exact ⟨_, .rejected _, before.following (.reject ..)⟩
  | cancelled => exact ⟨_, .cancelled, before.following (.cancel ..)⟩
  | @accepted c h degraded =>
      cases degraded with
      | false => exact ⟨_, .accepted rfl, before.following (.accept ..)⟩
      | true =>
          obtain ⟨reason, detail, told⟩ := before
          exact ⟨_, .degraded rfl reason detail, told.trans (.accept ..)⟩
  | vanished | greetingRead | greetingLate | greetingLasts | answered | unanswered | opinionLeft
  | opinionLasts => exact before.quiet (.note ..)
  | asked | delayStopped | delayLeft | delayOver | delayLasts | greetingStopped | opinionStopped
  | passed => exact before

theorem Path.told {now : Instant} {stop : Bool} {g g' : Gate} {p p' : Point}
    (path : Path now stop g p g' p') {g₀ : Gate} (before : p.Told g₀ g) : p'.Told g₀ g' :=
  path.preserves (fun edge => edge.told) before

theorem Admission.told_outset {x : Admission} (under_way : x.isOver = false) (g : Gate) :
    x.outset.Told g g := by
  apply outset_of under_way
  · exact fun _ _ => .refl g
  · intro c w
    cases w <;> exact .refl g

namespace Service

abbrev Reports (endings : List Ending) (reports : List (List AuditEvent)) : Prop :=
  List.Forall₂ (fun e events => e.outcome.Tells events) endings reports

theorem Stepped.told {v : Service} {now : Instant} {h : Happening} {r : Option Ending × Service}
    (stepped : v.Stepped now h r) :
    ∃ reports, Reports r.1.toList reports ∧
      v.gate.Told reports.flatten r.1.toList.length (r.1.toList.countP (·.outcome.escalates))
        r.2.gate := by
  have silent {g' : Gate} (told : v.gate.Told [] 0 0 g') :
      ∃ reports, Reports [] reports ∧ v.gate.Told reports.flatten 0 0 g' :=
    ⟨[], .nil, told⟩
  cases stepped with
  | idle | arrival => exact silent (.refl _)
  | turn here under_way path => exact silent (path.told (Admission.told_outset under_way _))
  | @ending _ _ _ _ _ _ o _ _ here under_way path =>
      obtain ⟨events, tells, told⟩ := path.told (Admission.told_outset under_way _)
      refine ⟨[events], .cons tells .nil, ?_⟩
      have one : ([events].flatten) = events := by simp
      rw [one]
      cases escalates : o.escalates <;>
        simpa [escalates, List.countP_cons] using told
  | abandonment here =>
      apply silent
      simp only [Admission.abandoned]
      split
      · exact .release ..
      · exact .refl _
  | drop => exact silent (.release ..)
  | operation o => exact silent (.perform _ now o)

/-- Counters and sink after a run: each ending is counted, and told by its events. -/
theorem told_run {v : Service} (opened : v.Open) (steps : List (Instant × Happening)) :
    ∃ reports, Reports (v.run steps).1 reports ∧
      v.gate.Told reports.flatten (v.run steps).1.length
        ((v.run steps).1.countP (·.outcome.escalates)) (v.run steps).2.gate := by
  induction steps generalizing v with
  | nil => exact ⟨[], .nil, .refl _⟩
  | cons s rest ih =>
      obtain ⟨now, h⟩ := s
      have stepped := step_cases opened now h
      obtain ⟨first, here, told⟩ := stepped.told
      obtain ⟨later, there, after⟩ := ih (stepped.opened opened)
      refine ⟨first ++ later, List.rel_append here there, ?_⟩
      rw [run_cons, List.flatten_append, List.length_append, List.countP_append]
      exact told.trans after

theorem length_run_le (v : Service) (steps : List (Instant × Happening)) :
    (v.run steps).1.length ≤ steps.length := by
  induction steps generalizing v with
  | nil => exact Nat.le_refl _
  | cons s rest ih =>
      obtain ⟨now, h⟩ := s
      have one : (v.step now h).1.toList.length ≤ 1 := Option.length_toList_le
      have others := ih (v.step now h).2
      rw [run_cons, List.length_append, List.length_cons]
      omega

/-- No counter of endings runs ahead of the steps, so a word of 64 bits holds each of them in every
run of fewer steps than such a word can count. -/
theorem counters_run_le {v : Service} (opened : v.Open) (steps : List (Instant × Happening)) :
    (v.run steps).2.gate.counters.ended ≤ v.gate.counters.ended + steps.length ∧
      (v.run steps).2.gate.counters.escalated ≤ v.gate.counters.escalated + steps.length := by
  obtain ⟨_, -, told⟩ := told_run opened steps
  have fewer := length_run_le v steps
  rw [told.ended, told.escalated]
  exact ⟨Nat.add_le_add_left fewer _,
    Nat.add_le_add_left (Nat.le_trans List.countP_le_length fewer) _⟩

end Service

end AdmissionGate
