import AdmissionGate.Gate.Admission

/-!
The way of a connection through the gate, one edge at a time. A point says where the
connection stands and what is known of it there; an edge is one use of a stage, with the gate
before and after it. `Gate.receive` and `Gate.resume` follow edges until the connection rests,
so what every edge preserves holds wherever an admission waits or ends.
-/

namespace AdmissionGate

/-- Where a connection stands on its way. -/
inductive Point where
  | arriving (a : Address) (peer : Peer)
  | considering (c : Candidate)
  | delayed (c : Candidate) (ends : Instant)
  | greeting (c : Candidate) (deadline : Instant)
  | greeted (c : Candidate) (result : Except HandshakeError Handshake)
  | asking (c : Candidate) (h : Handshake)
  | awaiting (c : Candidate) (q : Question)
  | concluding (c : Candidate) (q : Question) (o : Option Opinion)
  | judged (c : Candidate) (h : Handshake) (v : Verdict)
  | unjudged (c : Candidate) (h : Handshake) (reason : Reason)
  | rejecting (c : Candidate) (state : ConnectionState) (reason : Reason)
      (length : Option Duration) (detail : Option String)
  | cancelling (c : Candidate)
  | accepting (c : Candidate) (h : Handshake) (degraded : Bool)
  | resting (p : Progress)

def Candidate.watched (c : Candidate) (limit : Nat) (now : Instant) : Candidate :=
  { c with
    buffered := (watch limit now c.buffered c.peer).buffered
    peer := (watch limit now c.buffered c.peer).peer }

def Candidate.read (c : Candidate) (s : HandshakeSettings) (now : Instant) : Candidate :=
  { c with
    buffered := (s.collect now c.buffered c.peer).buffered
    peer := (s.collect now c.buffered c.peer).peer }

namespace Gate

def question (g : Gate) (now : Instant) (c : Candidate) (record : ConnectionRecord)
    (h : Handshake) : Question where
  handshake := h
  answer := ((g.detector.classify record h).delayed now).answer
  notes := ((g.detector.classify record h).delayed now).notes
  deadline := now + g.settings.detection.classifyTimeout
  known := c.buffered.length

/-- The gate after bytes that came since a question was put are counted. -/
def counted (g : Gate) (now : Instant) (c : Candidate) (q : Question) : Gate :=
  if c.buffered.length - q.known = 0 then g
  else g.update c.key (c.buffered.length - q.known) now

def noteReads (g : Gate) (now : Instant) (c : Candidate) : Gate :=
  g.note (readNotes c.buffered.length
    (g.settings.handshake.collectedReads now c.buffered c.peer))

def noteDue (g : Gate) (now : Instant) (q : Question) : Gate :=
  g.note ((q.notes.span (·.1 ≤ now)).1.map (·.2))

def degrade (g : Gate) (c : Candidate) (reason : Reason) : Gate :=
  let g := g.setState c.key .classified
  let g := { g with counters.degraded := g.counters.degraded + 1 }
  g.recordAudit
    { kind := .degraded
      address := c.address
      connectionId := some c.key.id
      reason
      state := .classified
      detail := some ("detector '" ++ g.detector.name ++ "' gave no verdict") }

end Gate

/-- One edge, at the instant `now`; `stop` tells whether the connection was told to go away. -/
inductive Leads (now : Instant) (stop : Bool) : Gate → Point → Gate → Point → Prop
  | registered {g g' : Gate} {a : Address} {peer : Peer} {key : ConnectionKey}
      (free : g.register a now = (.ok key, g')) :
      Leads now stop g (.arriving a peer)
        g' (.considering { key, peer, trail := [.registration (.ok key)] })
  | refused {g g' : Gate} {a : Address} {peer : Peer} {e : GateError}
      (no : g.register a now = (.error e, g')) :
      Leads now stop g (.arriving a peer)
        (g'.refuse now a peer e).2 (.resting (g'.refuse now a peer e).1)
  | allowed {g g' : Gate} {c : Candidate} (v : g.check c.address now = (.allow, g')) :
      Leads now stop g (.considering c)
        g' (.greeting (c.passed (.check .allow)) (now + g'.settings.handshake.timeout))
  | blocked {g g' : Gate} {c : Candidate} {reason : Reason} {length : Option Duration}
      (v : g.check c.address now = (.block reason length, g')) :
      Leads now stop g (.considering c)
        g' (.rejecting (c.passed (.check (.block reason length))) .registered reason length none)
  | exhausted {g g' : Gate} {c : Candidate} {reason : Reason} {retryAfter : Duration}
      (v : g.check c.address now = (.throttle reason retryAfter, g'))
      (beyond : g'.settings.pipeline.maxThrottleWait <
        Duration.plus c.waited (max retryAfter Gate.leastDelay)) :
      Leads now stop g (.considering c)
        (g'.note
          [.waitExhausted c.address (Duration.plus c.waited (max retryAfter Gate.leastDelay))])
        (.rejecting (c.passed (.check (.throttle reason retryAfter))) .registered reason none none)
  | throttled {g g' : Gate} {c : Candidate} {reason : Reason} {retryAfter : Duration}
      (v : g.check c.address now = (.throttle reason retryAfter, g'))
      (within : ¬g'.settings.pipeline.maxThrottleWait <
        Duration.plus c.waited (max retryAfter Gate.leastDelay)) :
      Leads now stop g (.considering c)
        (Gate.note { g' with counters.throttled := g'.counters.throttled + 1 }
          [.waiting c.key (max retryAfter Gate.leastDelay)])
        (.delayed { c.passed (.check (.throttle reason retryAfter)) with
          waited := Duration.plus c.waited (max retryAfter Gate.leastDelay) }
          (now + max retryAfter Gate.leastDelay))
  | delayStopped {g : Gate} {c : Candidate} {ends : Instant} (told : stop = true) :
      Leads now stop g (.delayed c ends) g (.cancelling c)
  | delayLeft {g : Gate} {c : Candidate} {ends : Instant} (untold : ¬stop = true)
      (closed : (watch g.budget now c.buffered c.peer).closed = true) :
      Leads now stop g (.delayed c ends) g (.cancelling (c.watched g.budget now))
  | delayOver {g : Gate} {c : Candidate} {ends : Instant} (untold : ¬stop = true)
      (there : ¬(watch g.budget now c.buffered c.peer).closed = true) (elapsed : ends ≤ now) :
      Leads now stop g (.delayed c ends) g (.considering (c.watched g.budget now))
  | delayLasts {g : Gate} {c : Candidate} {ends : Instant} (untold : ¬stop = true)
      (there : ¬(watch g.budget now c.buffered c.peer).closed = true) (lasts : ¬ends ≤ now) :
      Leads now stop g (.delayed c ends)
        g (.resting (.waiting (c.watched g.budget now) (.delay ends)))
  | greetingStopped {g : Gate} {c : Candidate} {deadline : Instant} (told : stop = true) :
      Leads now stop g (.greeting c deadline) g (.cancelling c)
  | greetingRead {g : Gate} {c : Candidate} {deadline : Instant}
      {result : Except HandshakeError Handshake} (untold : ¬stop = true)
      (found : (g.settings.handshake.collect now c.buffered c.peer).result = some result) :
      Leads now stop g (.greeting c deadline)
        (g.noteReads now c) (.greeted (c.read g.settings.handshake now) result)
  | greetingLate {g : Gate} {c : Candidate} {deadline : Instant}
      (untold : ¬stop = true)
      (missing : (g.settings.handshake.collect now c.buffered c.peer).result = none)
      (elapsed : deadline ≤ now) :
      Leads now stop g (.greeting c deadline)
        (g.noteReads now c) (.greeted (c.read g.settings.handshake now)
          (.error (.timeout g.settings.handshake.timeout)))
  | greetingLasts {g : Gate} {c : Candidate} {deadline : Instant}
      (untold : ¬stop = true)
      (missing : (g.settings.handshake.collect now c.buffered c.peer).result = none)
      (lasts : ¬deadline ≤ now) :
      Leads now stop g (.greeting c deadline)
        (g.noteReads now c)
        (.resting (.waiting (c.read g.settings.handshake now) (.greeting deadline)))
  | welcomed {g : Gate} {c : Candidate} {h : Handshake} :
      Leads now stop g (.greeted c (.ok h))
        (((g.update c.key c.buffered.length now).setState c.key .handshakeValidated).sampleReputation
          c.key now)
        (.asking (c.passed (.greeting (.ok h))) h)
  | disconnected {g : Gate} {c : Candidate} {e : HandshakeError} (away : e.isDisconnect = true) :
      Leads now stop g (.greeted c (.error e))
        ((g.update c.key c.buffered.length now).note [.peerLeft c.key e])
        (.cancelling (c.passed (.greeting (.error e))))
  | malformed {g : Gate} {c : Candidate} {e : HandshakeError} (wrong : ¬e.isDisconnect = true)
      {g' : Gate} {length : Option Duration}
      (penalty : ((g.update c.key c.buffered.length now).note [.handshakeRejected c.key e]).penalize
        c.address .malformedHandshake now = (length, g')) :
      Leads now stop g (.greeted c (.error e)) g'
        (.rejecting (c.passed (.greeting (.error e))) .registered .malformedHandshake length
          (some e.message))
  | vanished {g : Gate} {c : Candidate} {h : Handshake} (gone : g.registry.record? c.key = none) :
      Leads now stop g (.asking c h)
        (g.note [.recordVanished c.key])
        (.rejecting c .handshakeValidated .internalFault none none)
  | asked {g : Gate} {c : Candidate} {h : Handshake} {record : ConnectionRecord}
      (found : g.registry.record? c.key = some record) :
      Leads now stop g (.asking c h)
        g (.awaiting (c.passed (.question record h)) (g.question now c record h))
  | opinionStopped {g : Gate} {c : Candidate} {q : Question} (told : stop = true) :
      Leads now stop g (.awaiting c q) g (.cancelling c)
  | answered {g : Gate} {c : Candidate} {q : Question} {due : Instant} {o : Opinion}
      (untold : ¬stop = true)
      (answer : q.answer.filter (·.1 ≤ now) = some (due, o)) :
      Leads now stop g (.awaiting c q) (g.noteDue now q) (.concluding c q (some o))
  | unanswered {g : Gate} {c : Candidate} {q : Question}
      (untold : ¬stop = true) (silent : q.answer.filter (·.1 ≤ now) = none)
      (elapsed : q.deadline ≤ now) :
      Leads now stop g (.awaiting c q) (g.noteDue now q) (.concluding c q none)
  | opinionLeft {g : Gate} {c : Candidate} {q : Question}
      (untold : ¬stop = true) (silent : q.answer.filter (·.1 ≤ now) = none)
      (lasts : ¬q.deadline ≤ now)
      (closed : (watch g.budget now c.buffered c.peer).closed = true) :
      Leads now stop g (.awaiting c q) (g.noteDue now q) (.cancelling (c.watched g.budget now))
  | opinionLasts {g : Gate} {c : Candidate} {q : Question}
      (untold : ¬stop = true) (silent : q.answer.filter (·.1 ≤ now) = none)
      (lasts : ¬q.deadline ≤ now)
      (there : ¬(watch g.budget now c.buffered c.peer).closed = true) :
      Leads now stop g (.awaiting c q) (g.noteDue now q)
        (.resting (.waiting (c.watched g.budget now)
          (.opinion { q with notes := (q.notes.span (·.1 ≤ now)).2 })))
  | ruled {g : Gate} {c : Candidate} {q : Question} {v : Verdict} :
      Leads now stop g (.concluding c q (some (.verdict v)))
        ((g.counted now c q).setState c.key .classified) (.judged c q.handshake v)
  | failed {g : Gate} {c : Candidate} {q : Question} {f : EngineFault} :
      Leads now stop g (.concluding c q (some (.fault f)))
        ((g.counted now c q).note
          [.engineFailed c.key (g.counted now c q).detector.name f.message])
        (.unjudged c q.handshake .internalFault)
  | crashed {g : Gate} {c : Candidate} {q : Question} :
      Leads now stop g (.concluding c q (some .crash))
        ((g.counted now c q).note [.engineCrashed c.key (g.counted now c q).detector.name])
        (.unjudged c q.handshake .internalFault)
  | tooLate {g : Gate} {c : Candidate} {q : Question} :
      Leads now stop g (.concluding c q none)
        ((g.counted now c q).note
          [.engineLate c.key (g.counted now c q).detector.name
            (g.counted now c q).settings.detection.classifyTimeout])
        (.unjudged c q.handshake .classificationTimeout)
  | passed {g : Gate} {c : Candidate} {h : Handshake} :
      Leads now stop g (.judged c h .allow) g (.accepting c h false)
  | suspected {g g' : Gate} {c : Candidate} {h : Handshake} {reason : Reason}
      {retryAfter : Duration} {v : Option Verdict}
      (penalty : g.penalizeBy c.address g.settings.reputation.suspicionPenalty now = (v, g'))
      (lenient : ∀ r d, v ≠ some (.block r d)) :
      Leads now stop g (.judged c h (.throttle reason retryAfter))
        (g'.note [.suspicious c.key reason]) (.accepting c h false)
  | convicted {g g' : Gate} {c : Candidate} {h : Handshake} {reason why : Reason}
      {retryAfter : Duration} {length : Option Duration}
      (penalty : g.penalizeBy c.address g.settings.reputation.suspicionPenalty now =
        (some (.block why length), g')) :
      Leads now stop g (.judged c h (.throttle reason retryAfter))
        g' (.rejecting c .classified why length none)
  | turnedAway {g g' : Gate} {c : Candidate} {h : Handshake} {reason : Reason}
      {length : Option Duration} (penalty : g.penalize c.address reason now = (length, g')) :
      Leads now stop g (.judged c h (.block reason none))
        g' (.rejecting c .classified reason length none)
  | banned {g g' g'' : Gate} {c : Candidate} {h : Handshake} {reason : Reason}
      {requested : Duration} {first length : Option Duration}
      (penalty : g.penalize c.address reason now = (first, g'))
      (block : g'.block c.address reason (some requested) now = (length, g'')) :
      Leads now stop g (.judged c h (.block reason (some requested)))
        g'' (.rejecting c .classified reason length none)
  | failsOpen {g : Gate} {c : Candidate} {h : Handshake} {reason : Reason}
      (policy : g.settings.detection.failurePolicy = .failOpen) :
      Leads now stop g (.unjudged c h reason) (g.degrade c reason) (.accepting c h true)
  | failsClosed {g g' : Gate} {c : Candidate} {h : Handshake} {reason : Reason}
      {length : Option Duration}
      (policy : g.settings.detection.failurePolicy = .failClosed)
      (penalty : g.penalize c.address reason now = (length, g')) :
      Leads now stop g (.unjudged c h reason)
        g' (.rejecting c .handshakeValidated reason length none)
  | rejected {g : Gate} {c : Candidate} {state : ConnectionState} {reason : Reason}
      {length : Option Duration} {detail : Option String} :
      Leads now stop g (.rejecting c state reason length detail)
        (g.reject now c state reason length detail).2
        (.resting (g.reject now c state reason length detail).1)
  | cancelled {g : Gate} {c : Candidate} :
      Leads now stop g (.cancelling c) (g.cancel now c).2 (.resting (g.cancel now c).1)
  | accepted {g : Gate} {c : Candidate} {h : Handshake} {degraded : Bool} :
      Leads now stop g (.accepting c h degraded)
        (g.accept c h degraded).2 (.resting (g.accept c h degraded).1)

inductive Path (now : Instant) (stop : Bool) : Gate → Point → Gate → Point → Prop
  | here {g : Gate} {p : Point} : Path now stop g p g p
  | step {g₁ g₂ g₃ : Gate} {p₁ p₂ p₃ : Point} (first : Leads now stop g₁ p₁ g₂ p₂)
      (rest : Path now stop g₂ p₂ g₃ p₃) : Path now stop g₁ p₁ g₃ p₃

namespace Path

variable {now : Instant} {stop : Bool} {g g' : Gate} {p p' : Point}

theorem one (edge : Leads now stop g p g' p') : Path now stop g p g' p' := .step edge .here

/-- What every edge preserves holds at the end of a path. -/
theorem preserves {I : Gate → Point → Prop}
    (edge : ∀ {g p g' p'}, Leads now stop g p g' p' → I g p → I g' p')
    (path : Path now stop g p g' p') (start : I g p) : I g' p' := by
  induction path with
  | here => exact start
  | step first _ ih => exact ih (edge first start)

end Path

namespace Gate

variable (g : Gate) (now : Instant) (c : Candidate) (stop : Bool)

abbrev Follows (g : Gate) (now : Instant) (stop : Bool) (p : Point) (r : Progress × Gate) : Prop :=
  Path now stop g p r.2 (.resting r.1)

theorem withoutVerdict_follows (h : Handshake) (reason : Reason) :
    g.Follows now stop (.unjudged c h reason) (g.withoutVerdict now c h reason) := by
  simp only [withoutVerdict]
  split
  · rename_i policy
    exact .step (.failsOpen policy) (.one .accepted)
  · rename_i policy
    exact .step (.failsClosed policy rfl) (.one .rejected)

theorem withVerdict_follows (h : Handshake) (v : Verdict) :
    (g.setState c.key .classified).Follows now stop (.judged c h v) (g.withVerdict now c h v) := by
  cases v with
  | allow => exact .step .passed (.one .accepted)
  | throttle reason retryAfter =>
      simp only [withVerdict]
      split
      · rename_i penalty
        exact .step (.convicted penalty) (.one .rejected)
      · rename_i v g' lenient penalty
        exact .step (.suspected penalty lenient) (.one .accepted)
  | block reason requested =>
      cases requested with
      | none => exact .step (.turnedAway rfl) (.one .rejected)
      | some d => exact .step (.banned rfl rfl) (.one .rejected)

theorem conclude_follows (q : Question) (o : Option Opinion) :
    g.Follows now stop (.concluding c q o) (g.conclude now c q o) := by
  match o with
  | some (.verdict v) => exact .step .ruled (withVerdict_follows ..)
  | some (.fault f) => exact .step .failed (withoutVerdict_follows ..)
  | some .crash => exact .step .crashed (withoutVerdict_follows ..)
  | none => exact .step .tooLate (withoutVerdict_follows ..)

theorem cancel_follows : g.Follows now stop (.cancelling c) (g.cancel now c) := .one .cancelled

theorem await_follows (q : Question) :
    g.Follows now stop (.awaiting c q) (g.await now c q stop) := by
  simp only [await]
  split
  · rename_i told
    exact .step (.opinionStopped told) (cancel_follows ..)
  rename_i untold
  split
  · rename_i due o answer
    exact .step (.answered untold answer) (conclude_follows ..)
  rename_i silent
  split
  · rename_i elapsed
    exact .step (.unanswered untold silent elapsed) (conclude_follows ..)
  rename_i lasts
  simp only [keepWatch]
  split
  · rename_i closed
    exact .step (.opinionLeft untold silent lasts closed) (cancel_follows ..)
  · rename_i there
    exact .one (.opinionLasts untold silent lasts there)

theorem ask_follows (h : Handshake) : g.Follows now stop (.asking c h) (g.ask now c h stop) := by
  simp only [ask]
  split
  · rename_i gone
    exact .step (.vanished gone) (.one .rejected)
  · rename_i record found
    exact .step (.asked found) (await_follows ..)

theorem greeted_follows (result : Except HandshakeError Handshake) :
    g.Follows now stop (.greeted c result) (g.greeted now c result stop) := by
  cases result with
  | ok h => exact .step .welcomed (ask_follows ..)
  | error e =>
      simp only [greeted]
      split
      · rename_i away
        exact .step (.disconnected away) (cancel_follows ..)
      · rename_i wrong
        exact .step (.malformed wrong rfl) (.one .rejected)

theorem greet_follows (deadline : Instant) :
    g.Follows now stop (.greeting c deadline) (g.greet now c deadline stop) := by
  simp only [greet]
  split
  · rename_i told
    exact .step (.greetingStopped told) (cancel_follows ..)
  rename_i untold
  split
  · rename_i result found
    exact .step (.greetingRead untold found) (greeted_follows ..)
  rename_i missing
  split
  · rename_i elapsed
    exact .step (.greetingLate untold missing elapsed) (greeted_follows ..)
  · rename_i lasts
    exact .one (.greetingLasts untold missing lasts)

/-- A delay that is not over yet: what is left is to watch. -/
theorem keepWatch_follows {ends : Instant} (lasts : ¬ends ≤ now) :
    g.Follows now stop (.delayed c ends)
      (if stop then g.cancel now c
        else g.keepWatch now c fun g c => (.waiting c (.delay ends), g)) := by
  split
  · rename_i told
    exact .step (.delayStopped told) (cancel_follows ..)
  rename_i untold
  simp only [keepWatch]
  split
  · rename_i closed
    exact .step (.delayLeft untold closed) (cancel_follows ..)
  · rename_i there
    exact .one (.delayLasts untold there lasts)

theorem consider_follows : g.Follows now stop (.considering c) (g.consider now c stop) := by
  rcases answer : g.check c.address now with ⟨v, g'⟩
  simp only [consider, answer]
  cases v with
  | allow => exact .step (.allowed answer) (greet_follows ..)
  | block reason length => exact .step (.blocked answer) (.one .rejected)
  | throttle reason retryAfter =>
      simp only
      split
      · rename_i beyond
        exact .step (.exhausted answer beyond) (.one .rejected)
      · rename_i within
        have some_time : 0 < max retryAfter leastDelay :=
          Nat.lt_of_lt_of_le (by decide) (Nat.le_max_right retryAfter leastDelay)
        have lasts : ¬now + max retryAfter leastDelay ≤ now :=
          Nat.not_le.mpr (Nat.lt_add_of_pos_right some_time)
        exact .step (.throttled answer within) (keepWatch_follows _ _ _ _ lasts)

theorem resume_delay_follows (ends : Instant) :
    g.Follows now stop (.delayed c ends) (g.resume now c (.delay ends) stop) := by
  by_cases lasts : ends ≤ now
  · simp only [resume]
    split
    · rename_i told
      exact .step (.delayStopped told) (cancel_follows ..)
    rename_i untold
    simp only [keepWatch]
    split
    · rename_i closed
      exact .step (.delayLeft untold closed) (cancel_follows ..)
    · rename_i there
      exact .step (.delayOver untold there lasts) (consider_follows ..)
  · simp only [resume, lasts, if_false]
    exact keepWatch_follows _ _ _ _ lasts

end Gate

def Wait.point (c : Candidate) : Wait → Point
  | .delay ends => .delayed c ends
  | .greeting deadline => .greeting c deadline
  | .opinion q => .awaiting c q

namespace Gate

/-- Taking up an admission again follows edges from where it waits. -/
theorem resume_follows (g : Gate) (now : Instant) (c : Candidate) (w : Wait) (stop : Bool) :
    g.Follows now stop (w.point c) (g.resume now c w stop) := by
  cases w with
  | delay ends => exact resume_delay_follows ..
  | greeting deadline => exact greet_follows ..
  | opinion q => exact await_follows ..

/-- Starting an admission follows edges from the arrival. -/
theorem receive_follows (g : Gate) (now : Instant) (a : Address) (peer : Peer) (stop : Bool) :
    g.Follows now stop (.arriving a peer) (g.receive now a peer stop) := by
  rcases answer : g.register a now with ⟨result, g'⟩
  simp only [receive, answer]
  cases result with
  | ok key => exact .step (.registered answer) (consider_follows ..)
  | error e => exact .one (.refused answer)

end Gate

end AdmissionGate
