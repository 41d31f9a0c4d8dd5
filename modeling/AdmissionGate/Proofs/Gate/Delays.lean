import Mathlib.Algebra.GroupWithZero.Nat
import AdmissionGate.Proofs.Gate.Frame

/-!
Delays that a connection is made to wait, read off the stages that it went through. A candidate
keeps their sum, and is turned away before the sum exceeds what the settings allow. Each delay
lasts a millisecond at least, so there are no more of them than milliseconds, and only the last
check has no delay.
-/

namespace AdmissionGate

namespace StageResult

def delay? : StageResult → Option Duration
  | check (.throttle _ retryAfter) => some (max retryAfter Gate.leastDelay)
  | _ => none

def isCheck : StageResult → Bool
  | check _ => true
  | _ => false

def delays (trail : List StageResult) : List Duration := trail.filterMap delay?

def checks (trail : List StageResult) : Nat := trail.countP isCheck

variable {trail : List StageResult} {r : StageResult}

theorem delays_concat_of_none (calm : r.delay? = none) :
    delays (trail ++ [r]) = delays trail := by
  simp [delays, calm]

theorem delays_concat_throttle (reason : Reason) (retryAfter : Duration) :
    delays (trail ++ [check (.throttle reason retryAfter)]) =
      delays trail ++ [max retryAfter Gate.leastDelay] := by
  simp [delays, delay?]

theorem checks_concat_check (v : Verdict) : checks (trail ++ [check v]) = checks trail + 1 := by
  simp [checks, isCheck]

theorem checks_concat_of_not (other : r.isCheck = false) :
    checks (trail ++ [r]) = checks trail := by
  simp [checks, other]

theorem length_delays_le (trail : List StageResult) :
    (delays trail).length * Gate.leastDelay ≤ (delays trail).sum := by
  induction trail with
  | nil => exact Nat.zero_le _
  | cons r rest ih =>
      simp only [delays, List.filterMap_cons] at ih ⊢
      cases lasts : r.delay? with
      | none => exact ih
      | some d =>
          have least : Gate.leastDelay ≤ d := by
            cases r with
            | check v =>
                cases v with
                | throttle reason retryAfter =>
                    cases lasts
                    exact Nat.le_max_right ..
                | _ => cases lasts
            | _ => cases lasts
          simp only [List.length_cons, List.sum_cons, Nat.succ_mul]
          rw [Nat.add_comm]
          exact Nat.add_le_add least ih

end StageResult

open StageResult

/-- Delays that sum to no more than `patience`, and as many checks, or one more. -/
structure Tolerable (patience : Duration) (delays : List Duration) (checks : Nat) : Prop where
  sum : delays.sum ≤ patience
  count : checks ≤ delays.length + 1

/-- The delays that a connection was made to wait: those of all throttle verdicts but one that
it was turned away at. -/
def Progress.served : Progress → List Duration
  | .waiting c _ => delays c.trail
  | .finished (.rejected _) _ trail => delays trail.dropLast
  | .finished _ _ trail => delays trail

def Progress.trail : Progress → List StageResult
  | .waiting c _ => c.trail
  | .finished _ _ trail => trail

structure Delayed (patience : Duration) (trail : List StageResult) (waited : Duration) :
    Prop where
  sum : (delays trail).sum = waited
  count : checks trail = (delays trail).length
  within : waited ≤ patience

/-- The last check let the connection pass, and something has come after the last delay. -/
structure Cleared (patience : Duration) (trail : List StageResult) : Prop where
  tolerable : Tolerable patience (delays trail) (checks trail)
  last : delays trail.dropLast = delays trail

variable {patience waited : Duration} {trail : List StageResult} {r : StageResult}

theorem Delayed.tolerable (delayed : Delayed patience trail waited) :
    Tolerable patience (delays trail) (checks trail) :=
  ⟨delayed.sum ▸ delayed.within, Nat.le_succ_of_le (Nat.le_of_eq delayed.count)⟩

theorem Delayed.clear (delayed : Delayed patience trail waited) :
    Cleared patience (trail ++ [StageResult.check .allow]) := by
  have same : delays (trail ++ [StageResult.check .allow]) = delays trail :=
    delays_concat_of_none rfl
  refine ⟨?_, ?_⟩
  · rw [same, checks_concat_check, delayed.count]
    exact ⟨delayed.tolerable.sum, Nat.le_refl _⟩
  · rw [same, List.dropLast_concat]

/-- The connection is turned away at this check. -/
theorem Delayed.refuse (delayed : Delayed patience trail waited) (v : Verdict) :
    Tolerable patience (delays (trail ++ [StageResult.check v]).dropLast)
      (checks (trail ++ [StageResult.check v])) := by
  rw [List.dropLast_concat, checks_concat_check, delayed.count]
  exact ⟨delayed.tolerable.sum, Nat.le_refl _⟩

/-- A sum of delays that is within bounds is exact. -/
theorem plus_of_within {delay : Duration} (bounded : patience < Duration.longest)
    (within : ¬patience < Duration.plus waited delay) :
    Duration.plus waited delay = waited + delay := by
  rcases Nat.le_total (waited + delay) Duration.longest with small | large
  · exact Nat.min_eq_left small
  · rw [Duration.plus, Nat.min_eq_right large] at within
    exact absurd bounded within

theorem Delayed.delay (delayed : Delayed patience trail waited) {reason : Reason}
    {retryAfter : Duration} (bounded : patience < Duration.longest)
    (within : ¬patience < Duration.plus waited (max retryAfter Gate.leastDelay)) :
    Delayed patience (trail ++ [.check (.throttle reason retryAfter)])
      (Duration.plus waited (max retryAfter Gate.leastDelay)) := by
  refine ⟨?_, ?_, Nat.le_of_not_lt within⟩
  · rw [delays_concat_throttle, List.sum_append, List.sum_singleton, delayed.sum,
      plus_of_within bounded within]
  · rw [delays_concat_throttle, checks_concat_check, List.length_append, List.length_singleton,
      delayed.count]

theorem Cleared.passed (cleared : Cleared patience trail) (calm : r.delay? = none)
    (other : r.isCheck = false) : Cleared patience (trail ++ [r]) := by
  have same : delays (trail ++ [r]) = delays trail := delays_concat_of_none calm
  refine ⟨?_, ?_⟩
  · rw [same, checks_concat_of_not other]
    exact cleared.tolerable
  · rw [same, List.dropLast_concat]

theorem Cleared.refuse (cleared : Cleared patience trail) :
    Tolerable patience (delays trail.dropLast) (checks trail) := by
  rw [cleared.last]
  exact cleared.tolerable

def Point.Patient (patience : Duration) : Point → Prop
  | .arriving _ _ => True
  | .considering c | .delayed c _ | .resting (.waiting c (.delay _)) =>
      Delayed patience c.trail c.waited
  | .greeting c _ | .greeted c _ | .asking c _ | .awaiting c _ | .concluding c _ _
  | .judged c _ _ | .unjudged c _ _ | .accepting c _ _ | .resting (.waiting c _) =>
      Cleared patience c.trail
  | .cancelling c => Tolerable patience (delays c.trail) (checks c.trail)
  | .rejecting c _ _ _ _ => Tolerable patience (delays c.trail.dropLast) (checks c.trail)
  | .resting (.finished o peer trail) =>
      Tolerable patience (Progress.finished o peer trail).served (checks trail)

theorem PipelineSettings.maxThrottleWait_lt (s : PipelineSettings) :
    s.maxThrottleWait < Duration.longest :=
  calc s.maxThrottleWait
    _ ≤ max64 * Duration.nanosPerMilli :=
        Nat.mul_le_mul_right _ (Nat.le_of_lt_succ s.maxThrottleWaitMs.toNat_lt)
    _ < Duration.longest := by decide

theorem Leads.patient {now : Instant} {stop : Bool} {g g' : Gate} {p p' : Point}
    (edge : Leads now stop g p g' p') {s : Settings} (same : g.settings = s)
    (before : p.Patient s.pipeline.maxThrottleWait) :
    p'.Patient s.pipeline.maxThrottleWait := by
  cases edge with
  | registered => exact ⟨rfl, rfl, Nat.zero_le _⟩
  | refused => exact ⟨Nat.zero_le _, Nat.zero_le _⟩
  | allowed => exact before.clear
  | blocked | exhausted => exact before.refuse _
  | throttled v within =>
      rw [Gate.settings_of_check _ _ v, same] at within
      exact before.delay s.pipeline.maxThrottleWait_lt within
  | delayStopped | delayLeft => exact before.tolerable
  | greetingStopped | opinionStopped | opinionLeft => exact before.tolerable
  | welcomed | asked => exact before.passed rfl rfl
  | disconnected => exact (before.passed rfl rfl).tolerable
  | malformed => exact (before.passed rfl rfl).refuse
  | vanished | convicted | turnedAway | banned | failsClosed => exact before.refuse
  | accepted => exact before.tolerable
  | rejected | cancelled | delayOver | delayLasts | greetingRead | greetingLate | greetingLasts
  | answered | unanswered | opinionLasts | ruled | failed | crashed | tooLate | passed | suspected
  | failsOpen => exact before

theorem Tolerable.checks_le {s : PipelineSettings} {trail : List StageResult} {n : Nat}
    (tolerable : Tolerable s.maxThrottleWait (delays trail) n) :
    n ≤ s.maxThrottleWaitMs.toNat + 1 := by
  have spent : (delays trail).length * Gate.leastDelay ≤
      s.maxThrottleWaitMs.toNat * Gate.leastDelay :=
    Nat.le_trans (length_delays_le trail) tolerable.sum
  have few := Nat.le_of_mul_le_mul_right spent (by decide)
  exact Nat.le_trans tolerable.count (Nat.add_le_add_right few 1)

theorem Progress.tolerable {s : PipelineSettings} {p : Progress}
    (patient : (Point.resting p).Patient s.maxThrottleWait) :
    p.served.sum ≤ s.maxThrottleWait ∧ checks p.trail ≤ s.maxThrottleWaitMs.toNat + 1 := by
  match p with
  | .waiting c (.delay _) => exact ⟨patient.tolerable.sum, patient.tolerable.checks_le⟩
  | .waiting c (.greeting _) | .waiting c (.opinion _) =>
      exact ⟨patient.tolerable.sum, patient.tolerable.checks_le⟩
  | .finished (.rejected _) _ _ | .finished (.accepted _) _ _ | .finished .cancelled _ _ =>
      exact ⟨Tolerable.sum patient, Tolerable.checks_le patient⟩

end AdmissionGate
