import AdmissionGate.Proofs.Proxy.Forwarding

/-!
When a session can be closed. Between two writes it ends at once when it is told to, or when it
was idle for too long. In the middle of a write it heeds neither. It waits for the side that it
writes to, and as long as that side takes nothing, the session stays, and so does its connection.
-/

namespace AdmissionGate

/-- The session does it by itself, with nothing done by either side. -/
def SessionEvent.isOwn : SessionEvent → Bool
  | stop | idle => true
  | read .. | readFails _ | takes .. | writeFails _ => false

namespace Session

variable {s s' : Session} {r r' : Registry} {d : Direction} {size : Nat} {now : Instant}
  {e : SessionEvent}

/-- The session can come to its end by itself. -/
inductive Closable : Session → Registry → Prop
  | finished {s : Session} {r : Registry} {failed : Bool} (done : s.phase = .over failed) :
      Closable s r
  | step {s s' : Session} {r r' : Registry} {now : Instant} {e : SessionEvent}
      (own : e.isOwn = true) (went : s.step? now r e = some (s', r')) (rest : Closable s' r') :
      Closable s r

/-- It does not matter when a session is told to end. -/
theorem stops (ready : s.phase = .ready) (now : Instant) (r : Registry) :
    s.step? now r .stop = some (s.finish, r) :=
  step?_of_step (.stopped ready)

theorem expires (ready : s.phase = .ready) (due : s.idleEnds ≤ now) (r : Registry) :
    s.step? now r .idle = some (s.finish, r) :=
  step?_of_step (.expired ready due)

theorem Closable.of_ready (ready : s.phase = .ready) (r : Registry) : s.Closable r :=
  .step rfl (stops ready 0 r) (.finished rfl)

/-- In the middle of a write, everything waits for the side that is written to. -/
theorem waits (busy : s.phase = .writing d size) (went : s.step? now r e = some (s', r')) :
    (∃ count, e = .takes d count) ∨ e = .writeFails d := by
  cases step_of_step? went with
  | chunk ready | ended ready | broken ready | stopped ready | expired ready =>
      cases busy.symm.trans ready
  | part here =>
      cases busy.symm.trans here
      exact .inl ⟨_, rfl⟩
  | whole here =>
      cases busy.symm.trans here
      exact .inl ⟨_, rfl⟩
  | refused here =>
      cases busy.symm.trans here
      exact .inr rfl

theorem not_closable (busy : s.phase = .writing d size) : ¬s.Closable r := by
  intro closable
  cases closable with
  | finished done => cases busy.symm.trans done
  | step own went =>
      rcases waits busy went with ⟨count, rfl⟩ | rfl <;> cases own

end Session

/-- A session can be closed unless it is in the middle of a write. Then it can be closed again as
soon as the side that it writes to has taken what is pending, and nothing else can happen to it
until that side takes some or fails. -/
theorem Handover.closable_iff (c : Accepted) (idle : Duration) (r : Registry) (history : History)
    (s : Session) (r' : Registry)
    (ran : run? c idle .reaching r history = some (.forwarding s, r')) :
    (s.Closable r' ↔ ∀ d size, s.phase ≠ .writing d size) ∧
    (s.phase = .ready → ∀ now, s.step? now r' .stop = some (s.finish, r') ∧
      (s.idleEnds ≤ now → s.step? now r' .idle = some (s.finish, r'))) ∧
    ∀ d size, s.phase = .writing d size →
      (s.flow d).pending ≠ [] ∧
      (∀ now e s₁ r₁, s.step? now r' e = some (s₁, r₁) →
        (∃ count, e = .takes d count) ∨ e = .writeFails d) ∧
      ∀ now, ∃ s₁ r₁, s.step? now r' (.takes d (s.flow d).pending.length) = some (s₁, r₁) ∧
        s₁.Closable r₁ := by
  have carries : s.Carries c history := carries_run ran
  refine ⟨⟨fun closable d size busy => Session.not_closable busy closable, fun unbusy => ?_⟩,
    fun ready now => ⟨Session.stops ready now r', fun due => Session.expires ready due r'⟩,
    fun d size busy => ?_⟩
  · cases phase : s.phase with
    | ready => exact .of_ready phase r'
    | writing d size => exact absurd phase (unbusy d size)
    | _ => exact .finished phase
  · obtain ⟨pending, -⟩ := (carries.flows d).busy size busy
    refine ⟨pending, fun now e s₁ r₁ went => Session.waits busy went, fun now => ?_⟩
    exact ⟨_, _, Session.step?_of_step (.whole busy pending), .of_ready rfl _⟩

namespace Sample

def stalled : History :=
  [(0, .own .reached), (1, .own (.takes 14)), (2, .own (.session (.read .down [104, 105])))]

theorem stalled_busy :
    ∃ s r', Handover.run? player 30000000000 .reaching registered stalled =
      some (.forwarding s, r') ∧ s.phase = .writing .down 2 := by
  have busy : (Handover.run? player 30000000000 .reaching registered stalled).any fun p =>
      p.1.session?.any (·.phase = .writing .down 2) := by decide +kernel
  obtain ⟨⟨h, r'⟩, ran, busy⟩ := (Option.any_eq_true ..).mp busy
  cases h with
  | forwarding s => exact ⟨s, r', ran, of_decide_eq_true busy⟩
  | reaching | opening | lost => cases busy

/-- As soon as the player has read, the session can be closed. -/
theorem stalled_until_read :
    ∃ s r', Handover.run? player 30000000000 .reaching registered stalled =
        some (.forwarding s, r') ∧
      ∃ s₁ r₁, s.step? 100000000000 r' (.takes .down (s.flow .down).pending.length) =
        some (s₁, r₁) ∧ s₁.Closable r₁ := by
  obtain ⟨s, r', ran, busy⟩ := stalled_busy
  obtain ⟨-, -, waits⟩ := Handover.closable_iff player 30000000000 registered stalled s r' ran
  exact ⟨s, r', ran, (waits .down 2 busy).2.2 100000000000⟩

/-- As long as the player reads nothing, the session cannot be closed. -/
theorem stalled_not_closable :
    ∃ s r', Handover.run? player 30000000000 .reaching registered stalled =
      some (.forwarding s, r') ∧ ¬s.Closable r' := by
  obtain ⟨s, r', ran, busy⟩ := stalled_busy
  exact ⟨s, r', ran, Session.not_closable busy⟩

end Sample

end AdmissionGate
