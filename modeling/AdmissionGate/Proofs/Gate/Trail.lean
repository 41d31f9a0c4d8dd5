import AdmissionGate.Proofs.Gate.Records

/-!
The order of the stages. A phase tells how far the stages of a trail have brought a
connection, and which stage may come next: the registration, then checks until one allows,
then the greeting, then the question. Nothing may come after a stage that refuses. At every
point on the way through the gate the trail leads to the phase of that point.
-/

namespace AdmissionGate

inductive Phase where
  | arrived
  /-- Registered, after delays that sum to `waited`. -/
  | registered (k : ConnectionKey) (waited : Duration)
  /-- The limiter lets it pass. -/
  | cleared (k : ConnectionKey)
  | greeted (k : ConnectionKey) (h : Handshake)
  | asked (k : ConnectionKey) (h : Handshake)
  /-- A stage refused; without a key, it was the registration. -/
  | refused (k : Option ConnectionKey)

namespace Phase

/-- The phase after a stage; none, if the stage may not come now. Delays may sum to
`patience`. -/
def next? (patience : Duration) : Phase → StageResult → Option Phase
  | arrived, .registration (.ok k) => some (registered k 0)
  | arrived, .registration (.error _) => some (refused none)
  | registered k _, .check .allow => some (cleared k)
  | registered k _, .check (.block _ _) => some (refused (some k))
  | registered k waited, .check (.throttle _ retryAfter) =>
      let waited := Duration.plus waited (max retryAfter Gate.leastDelay)
      if patience < waited then some (refused (some k)) else some (registered k waited)
  | cleared k, .greeting (.ok h) => some (greeted k h)
  | cleared k, .greeting (.error _) => some (refused (some k))
  | greeted k h, .question record h' =>
      if h' = h ∧ record.key = k ∧ record.state = .handshakeValidated then some (asked k h)
      else none
  | _, _ => none

def along (patience : Duration) : Phase → List StageResult → Option Phase
  | p, [] => some p
  | p, r :: rest => (p.next? patience r).bind fun q => q.along patience rest

def key? : Phase → Option ConnectionKey
  | arrived => none
  | registered k _ | cleared k | greeted k _ | asked k _ => some k
  | refused k => k

variable {patience : Duration} {p q : Phase} {trail : List StageResult} {r : StageResult}

theorem along_append (p : Phase) (first second : List StageResult) :
    p.along patience (first ++ second) =
      (p.along patience first).bind fun q => q.along patience second := by
  induction first generalizing p with
  | nil => rfl
  | cons r rest ih =>
      simp only [List.cons_append, along]
      cases p.next? patience r with
      | none => rfl
      | some q => exact ih q

/-- A trail that goes on by one stage. -/
theorem along_passed (leads : p.along patience trail = some q) (r : StageResult) :
    p.along patience (trail ++ [r]) = q.next? patience r := by
  rw [along_append, leads, Option.bind_some]
  simp only [along]
  cases q.next? patience r <;> rfl

inductive Step (patience : Duration) : Phase → StageResult → Phase → Prop
  | register {k : ConnectionKey} : Step patience arrived (.registration (.ok k)) (registered k 0)
  | unregistered {e : GateError} : Step patience arrived (.registration (.error e)) (refused none)
  | clear {k : ConnectionKey} {waited : Duration} :
      Step patience (registered k waited) (.check .allow) (cleared k)
  | block {k : ConnectionKey} {waited : Duration} {reason : Reason} {length : Option Duration} :
      Step patience (registered k waited) (.check (.block reason length)) (refused (some k))
  | exhaust {k : ConnectionKey} {waited retryAfter : Duration} {reason : Reason}
      (beyond : patience < Duration.plus waited (max retryAfter Gate.leastDelay)) :
      Step patience (registered k waited) (.check (.throttle reason retryAfter)) (refused (some k))
  | delay {k : ConnectionKey} {waited retryAfter : Duration} {reason : Reason}
      (within : ¬patience < Duration.plus waited (max retryAfter Gate.leastDelay)) :
      Step patience (registered k waited) (.check (.throttle reason retryAfter))
        (registered k (Duration.plus waited (max retryAfter Gate.leastDelay)))
  | greet {k : ConnectionKey} {h : Handshake} :
      Step patience (cleared k) (.greeting (.ok h)) (greeted k h)
  | misgreet {k : ConnectionKey} {e : HandshakeError} :
      Step patience (cleared k) (.greeting (.error e)) (refused (some k))
  | ask {k : ConnectionKey} {h : Handshake} {record : ConnectionRecord} (own : record.key = k)
      (validated : record.state = .handshakeValidated) :
      Step patience (greeted k h) (.question record h) (asked k h)

theorem step_of_next? (next : p.next? patience r = some q) : Step patience p r q := by
  revert next
  fun_cases next? patience p r with
  | case5 | case6 => 
      intro next
      cases next
      constructor
      assumption
  | case9 =>
      rename_i same
      intro next
      cases next
      obtain ⟨rfl, own, validated⟩ := same
      exact .ask own validated
  | case10 | case11 => simp
  | _ =>
      intro next
      cases next
      constructor

theorem next?_of_step (step : Step patience p r q) : p.next? patience r = some q := by
  cases step with
  | exhaust beyond => exact if_pos beyond
  | delay within => exact if_neg within
  | ask own validated => exact if_pos ⟨rfl, own, validated⟩
  | _ => rfl

theorem along_cons (leads : p.along patience (r :: trail) = some q) :
    ∃ p', Step patience p r p' ∧ p'.along patience trail = some q := by
  simp only [along, Option.bind_eq_some_iff] at leads
  obtain ⟨p', next, rest⟩ := leads
  exact ⟨p', step_of_next? next, rest⟩

/-- Nothing comes after a refusal. -/
theorem along_refused {k : Option ConnectionKey}
    (leads : (refused k).along patience trail = some q) : trail = [] := by
  cases trail with
  | nil => rfl
  | cons r rest =>
      obtain ⟨p', step, -⟩ := along_cons leads
      cases step

theorem along_asked {k : ConnectionKey} {h : Handshake}
    (leads : (asked k h).along patience trail = some q) : trail = [] := by
  cases trail with
  | nil => rfl
  | cons r rest =>
      obtain ⟨p', step, -⟩ := along_cons leads
      cases step

theorem asked_of_cleared {k k' : ConnectionKey} {h : Handshake}
    (leads : (cleared k).along patience trail = some (asked k' h)) :
    k = k' ∧ ∃ record, trail = [.greeting (.ok h), .question record h] ∧
      record.key = k' ∧ record.state = .handshakeValidated := by
  cases trail with
  | nil => cases leads
  | cons first trail =>
      obtain ⟨p, step, leads⟩ := along_cons leads
      cases step with
      | misgreet =>
          cases along_refused leads
          cases leads
      | greet =>
          cases trail with
          | nil => cases leads
          | cons second trail =>
              obtain ⟨p, step, leads⟩ := along_cons leads
              cases step with
              | ask own validated =>
                  cases along_asked leads
                  cases leads
                  exact ⟨rfl, _, rfl, own, validated⟩

theorem asked_of_registered {k k' : ConnectionKey} {h : Handshake} {waited : Duration}
    (leads : (registered k waited).along patience trail = some (asked k' h)) :
    k = k' ∧ ∃ (throttles : List Verdict) (record : ConnectionRecord),
      (∀ v ∈ throttles, v.isThrottled = true) ∧
      trail = throttles.map .check ++
        [.check .allow, .greeting (.ok h), .question record h] ∧
      record.key = k' ∧ record.state = .handshakeValidated := by
  induction trail generalizing waited with
  | nil => cases leads
  | cons first trail ih =>
      obtain ⟨p, step, leads⟩ := along_cons leads
      cases step with
      | clear =>
          obtain ⟨rfl, record, rfl, own, validated⟩ := asked_of_cleared leads
          exact ⟨rfl, [], record, by simp, rfl, own, validated⟩
      | block | exhaust =>
          cases along_refused leads
          cases leads
      | @delay _ _ retryAfter reason within =>
          obtain ⟨rfl, throttles, record, throttled, rfl, own, validated⟩ := ih leads
          refine ⟨rfl, .throttle reason retryAfter :: throttles, record, ?_, rfl, own, validated⟩
          intro v member
          rcases List.mem_cons.mp member with rfl | later
          · rfl
          · exact throttled v later

/-- The trail of a connection about which the detector was asked. -/
theorem asked_of_arrived {k : ConnectionKey} {h : Handshake}
    (leads : arrived.along patience trail = some (asked k h)) :
    ∃ (throttles : List Verdict) (record : ConnectionRecord),
      (∀ v ∈ throttles, v.isThrottled = true) ∧
      trail = .registration (.ok k) :: throttles.map .check ++
        [.check .allow, .greeting (.ok h), .question record h] ∧
      record.key = k ∧ record.state = .handshakeValidated := by
  cases trail with
  | nil => cases leads
  | cons first trail =>
      obtain ⟨p, step, leads⟩ := along_cons leads
      cases step with
      | unregistered =>
          cases along_refused leads
          cases leads
      | register =>
          obtain ⟨rfl, throttles, record, throttled, rfl, own, validated⟩ :=
            asked_of_registered leads
          exact ⟨throttles, record, throttled, rfl, own, validated⟩

end Phase

inductive StageKind where
  | registration
  | check
  | greeting
  | question
deriving DecidableEq

def StageResult.kind : StageResult → StageKind
  | registration _ => .registration
  | check _ => .check
  | greeting _ => .greeting
  | question _ _ => .question

def StageKind.rank : StageKind → Nat
  | registration => 0
  | check => 1
  | greeting => 2
  | question => 3

namespace Phase

variable {patience : Duration} {p q : Phase} {trail : List StageResult} {r : StageResult}

def rank : Phase → Nat
  | arrived => 0
  | registered _ _ => 1
  | cleared _ => 2
  | greeted _ _ => 3
  | asked _ _ | refused _ => 4

theorem rank_of_step (step : Step patience p r q) :
    r.kind.rank = p.rank ∧ p.rank ≤ q.rank ∧ (r.kind ≠ .check → p.rank < q.rank) := by
  cases step <;> simp [StageResult.kind, StageKind.rank, rank]

/-- Of the stages other than the check each is used once at most, and not again when it is
over. -/
theorem count_along {kind : StageKind} (once : kind ≠ .check)
    (leads : p.along patience trail = some q) :
    (trail.map (·.kind)).count kind ≤ if p.rank ≤ kind.rank then 1 else 0 := by
  induction trail generalizing p with
  | nil => simp
  | cons r rest ih =>
      obtain ⟨p', step, leads⟩ := along_cons leads
      have later := ih leads
      obtain ⟨here, grows, moves⟩ := rank_of_step step
      rw [List.map_cons, List.count_cons]
      by_cases same : r.kind = kind
      · subst same
        have passed : ¬p'.rank ≤ r.kind.rank := by
          have := moves once
          omega
        rw [if_neg passed] at later
        simp only [beq_self_eq_true, if_true, here, Nat.le_refl]
        omega
      · have other : (r.kind == kind) = false := by simpa using same
        rw [other]
        simp only [Bool.false_eq_true, if_false, Nat.add_zero]
        split at later
        · rename_i yet
          rw [if_pos (by omega)]
          exact later
        · omega

end Phase

def Point.Staged (patience : Duration) (a : Address) (peer₀ : Peer) : Point → Prop
  | .arriving b peer => b = a ∧ peer = peer₀
  | .considering c | .delayed c _ | .resting (.waiting c (.delay _)) =>
      c.address = a ∧ Phase.arrived.along patience c.trail = some (.registered c.key c.waited)
  | .greeting c _ | .greeted c _ | .resting (.waiting c (.greeting _)) =>
      c.address = a ∧ Phase.arrived.along patience c.trail = some (.cleared c.key)
  | .asking c h =>
      c.address = a ∧ Phase.arrived.along patience c.trail = some (.greeted c.key h)
  | .awaiting c q | .concluding c q _ | .resting (.waiting c (.opinion q)) =>
      c.address = a ∧ Phase.arrived.along patience c.trail = some (.asked c.key q.handshake)
  | .judged c h _ | .unjudged c h _ | .accepting c h _ =>
      c.address = a ∧ Phase.arrived.along patience c.trail = some (.asked c.key h)
  | .rejecting c _ _ _ _ | .cancelling c =>
      ∃ phase, Phase.arrived.along patience c.trail = some phase ∧ phase.key? = some c.key
  | .resting (.finished (.accepted c) _ trail) =>
      c.key.address = a ∧ Phase.arrived.along patience trail = some (.asked c.key c.handshake)
  | .resting (.finished o peer trail) =>
      ∃ phase, Phase.arrived.along patience trail = some phase ∧
        (phase = .refused none → peer = peer₀ ∧
          ∃ r, o = .rejected r ∧ r.connectionId = none ∧ r.state = .new)

theorem Candidate.along_passed {c : Candidate} {patience : Duration} {p q : Phase}
    {r : StageResult} (leads : Phase.arrived.along patience c.trail = some p)
    (step : Phase.Step patience p r q) :
    Phase.arrived.along patience (c.passed r).trail = some q :=
  (Phase.along_passed leads r).trans (Phase.next?_of_step step)

open Phase Gate in
/-- What every edge preserves, for the trail of a connection. -/
theorem Leads.staged {now : Instant} {stop : Bool} {g g' : Gate} {p p' : Point}
    (edge : Leads now stop g p g' p') {lost : ConnectionKey → Prop} {a : Address} {peer₀ : Peer}
    (booked : p.Booked lost g) (before : p.Staged g.settings.pipeline.maxThrottleWait a peer₀) :
    p'.Staged g'.settings.pipeline.maxThrottleWait a peer₀ := by
  rw [edge.settings]
  cases edge with
  | registered free =>
      obtain ⟨rfl, rfl⟩ := before
      obtain ⟨rfl, -⟩ := Registry.register_ok (registry_of_register _ _ free)
      exact ⟨rfl, rfl⟩
  | refused => exact ⟨_, rfl, fun _ => ⟨before.2, _, rfl, rfl, rfl⟩⟩
  | allowed => exact ⟨before.1, Candidate.along_passed before.2 .clear⟩
  | blocked => exact ⟨_, Candidate.along_passed before.2 .block, rfl⟩
  | exhausted v beyond =>
      rw [settings_of_check _ _ v] at beyond
      exact ⟨_, Candidate.along_passed before.2 (.exhaust beyond), rfl⟩
  | throttled v within =>
      rw [settings_of_check _ _ v] at within
      exact ⟨before.1, Candidate.along_passed before.2 (.delay within)⟩
  | delayStopped | delayLeft | greetingStopped | opinionStopped | opinionLeft =>
      exact ⟨_, before.2, rfl⟩
  | welcomed => exact ⟨before.1, Candidate.along_passed before.2 .greet⟩
  | disconnected | malformed => exact ⟨_, Candidate.along_passed before.2 .misgreet, rfl⟩
  | vanished => exact ⟨_, before.2, rfl⟩
  | asked found =>
      obtain ⟨own, validated, -⟩ := booked.tells _ found
      exact ⟨before.1, Candidate.along_passed before.2 (.ask own validated)⟩
  | convicted | turnedAway | banned | failsClosed => exact ⟨_, before.2, rfl⟩
  | rejected | cancelled =>
      obtain ⟨phase, leads, own⟩ := before
      refine ⟨phase, leads, ?_⟩
      intro unregistered
      rw [unregistered] at own
      contradiction
  | delayOver | delayLasts | greetingRead | greetingLate | greetingLasts | answered | unanswered
  | opinionLasts | ruled | failed | crashed | tooLate | passed | suspected | failsOpen
  | accepted => exact before

end AdmissionGate
