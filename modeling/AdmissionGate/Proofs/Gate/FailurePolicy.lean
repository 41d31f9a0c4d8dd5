import AdmissionGate.Detection.Scripted
import AdmissionGate.Proofs.Gate.Rounds
import AdmissionGate.Proofs.Limiter.Guard

/-!
What becomes of a connection when the detector fails. An opinion counts if it is there in time;
whether an admission ends, and how, depends on it and on the failure policy only. A gate that
fails closed accepts a connection for a verdict and for nothing else, one that fails open accepts
it without a verdict and says so, and neither holds the failure against the address.
-/

namespace AdmissionGate

/-- The opinion of a consultation, if it takes no longer than `limit`. -/
def Consultation.within (k : Consultation) (limit : Duration) : Option Opinion :=
  (k.answer.filter (·.1 ≤ limit)).map (·.2)

def Opinion.verdict? : Opinion → Option Verdict
  | verdict v => some v
  | fault _ | crash => none

/-- No opinion is there yet, and one could still come in time. -/
structure Question.Open (q : Question) (now : Instant) : Prop where
  early : now < q.deadline
  silent : q.answer.filter (·.1 ≤ now) = none

namespace Question.Put

variable {q : Question} {s : DetectionSettings} {d : Detector} {trail : List StageResult}
  {asked now due : Instant} {record : ConnectionRecord} {o : Opinion}

/-- What is there at a turn took no longer than it may, or than the turn is late. -/
theorem within_of_answer (put : q.Put s d trail asked record)
    (answer : q.answer.filter (·.1 ≤ now) = some (due, o)) :
    (d.classify record q.handshake).within (max s.classifyTimeout (now - asked)) = some o := by
  obtain ⟨found, early⟩ := Option.filter_eq_some_iff.mp answer
  rw [put.answer, Consultation.delayed, Option.map_eq_some_iff] at found
  obtain ⟨⟨delay, o'⟩, given, same⟩ := found
  cases same
  have soon : delay ≤ now - asked := Nat.le_sub_of_add_le' (of_decide_eq_true early)
  have met := decide_eq_true (Nat.le_trans soon (Nat.le_max_right s.classifyTimeout _))
  simp only [Consultation.within, given, Option.filter_some, met, if_true, Option.map_some]

theorem within_of_silent (put : q.Put s d trail asked record) (elapsed : q.deadline ≤ now)
    (silent : q.answer.filter (·.1 ≤ now) = none) :
    (d.classify record q.handshake).within (max s.classifyTimeout (now - asked)) = none := by
  rw [put.answer, Consultation.delayed] at silent
  rw [put.deadline] at elapsed
  cases given : (d.classify record q.handshake).answer with
  | none => simp [Consultation.within, given]
  | some answer =>
      have late : now < asked + answer.1 := by simpa [given] using silent
      have beyond : max s.classifyTimeout (now - asked) < answer.1 :=
        Nat.max_lt.mpr ⟨Nat.lt_of_add_lt_add_left (Nat.lt_of_le_of_lt elapsed late),
          Nat.sub_lt_left_of_lt_add (Nat.le_of_add_right_le elapsed) late⟩
      have unmet := decide_eq_false (Nat.not_le_of_lt beyond)
      simp only [Consultation.within, given, Option.filter_some, unmet, Bool.false_eq_true,
        if_false, Option.map_none]

end Question.Put

def Gate.guard (g : Gate) : Guard := ⟨g.limiter, g.blocklist⟩

/-- How an admission has to end after this opinion, or after none in time. The gate was `before`
when the opinion was awaited, and is `after` in the end. -/
structure FailurePolicy.Settles (policy : FailurePolicy) (opinion : Option Opinion)
    (before after : Gate) (o : Outcome) : Prop where
  decided : o ≠ .cancelled
  closed_accepts : policy = .failClosed → ∀ a, o = .accepted a →
    a.degraded = false ∧ ∃ v, opinion = some (.verdict v) ∧ (v.isAllowed ∨ v.isThrottled)
  closed_faults : policy = .failClosed → ∀ e, opinion = some e → e.verdict? = none →
    ∃ r, o = .rejected r ∧ r.reason = .internalFault ∧ r.state = .handshakeValidated ∧
      r.blockDuration = none ∧ after.guard = before.guard
  closed_late : policy = .failClosed → opinion = none →
    ∃ r, o = .rejected r ∧ r.reason = .classificationTimeout ∧ r.state = .handshakeValidated
  open_accepts : policy = .failOpen → opinion.bind Opinion.verdict? = none →
    ∃ a, o = .accepted a ∧ a.degraded = true ∧ after.guard = before.guard
  degraded_iff : ∀ a, o = .accepted a →
    (a.degraded = true ↔ opinion.bind Opinion.verdict? = none)

/-- What a turn can come to that awaits an opinion. It waits on, or is cancelled without being told
to, only while no opinion has come. -/
inductive FailurePolicy.Decides (policy : FailurePolicy) (opinion : Option Opinion)
    (now : Instant) (stop : Bool) (g : Gate) (c : Candidate) (q : Question) :
    Progress → Gate → Prop
  | waits {c' : Candidate} {q' : Question} {left : Gate} (untold : stop = false)
      (still : q.Open now) : Decides policy opinion now stop g c q (.waiting c' (.opinion q')) left
  | cancelled {rest : Peer} {trail : List StageResult} {left : Gate}
      (gone : stop = true ∨ q.Open now ∧ (watch g.budget now c.buffered c.peer).closed = true) :
      Decides policy opinion now stop g c q (.finished .cancelled rest trail) left
  | settled {o : Outcome} {rest : Peer} {trail : List StageResult} {left : Gate}
      (settles : policy.Settles opinion g left o) :
      Decides policy opinion now stop g c q (.finished o rest trail) left

namespace Gate

variable {g : Gate} {now : Instant} {c : Candidate} {h : Handshake} {q : Question}

@[simp] theorem guard_counted (g : Gate) (now : Instant) (c : Candidate) (q : Question) :
    (g.counted now c q).guard = g.guard := by
  simp only [counted]
  split <;> rfl

theorem guard_noteDue (g : Gate) (now : Instant) (q : Question) :
    (g.noteDue now q).guard = g.guard := rfl

/-- A fault of the gate's own is no penalty for anybody. -/
theorem penalize_internalFault (g : Gate) (a : Address) (now : Instant) :
    (g.penalize a .internalFault now).1 = none ∧
      (g.penalize a .internalFault now).2.guard = g.guard := by
  have nothing : Limiter.isPenalty 0.0 = false := by decide +kernel
  simp [guard, penalize, penalizeBy, Limiter.penalize, Limiter.penaltyFor, nothing]

theorem withoutVerdict_of_failOpen (policy : g.settings.detection.failurePolicy = .failOpen)
    (reason : Reason) :
    g.withoutVerdict now c h reason = (g.degrade c reason).accept c h true := by
  simp only [withoutVerdict, policy]
  rfl

theorem withoutVerdict_of_failClosed (policy : g.settings.detection.failurePolicy = .failClosed)
    (reason : Reason) :
    g.withoutVerdict now c h reason =
      (g.penalize c.address reason now).2.reject now c .handshakeValidated reason
        (g.penalize c.address reason now).1 none := by
  simp only [withoutVerdict, policy]

theorem withoutVerdict_settles {opinion : Option Opinion} {reason : Reason} {before : Gate}
    (unjudged : opinion.bind Opinion.verdict? = none)
    (fits : reason = if opinion.isSome then .internalFault else .classificationTimeout)
    (guard : g.guard = before.guard) :
    ∃ o, (g.withoutVerdict now c h reason).1 = .finished o c.peer c.trail ∧
      g.settings.detection.failurePolicy.Settles opinion before
        (g.withoutVerdict now c h reason).2 o := by
  cases policy : g.settings.detection.failurePolicy with
  | failOpen =>
      rw [withoutVerdict_of_failOpen policy]
      refine ⟨_, rfl, nofun, nofun, nofun, nofun, fun _ _ => ⟨_, rfl, rfl, guard⟩, ?_⟩
      intro a same
      cases same
      exact ⟨fun _ => unjudged, fun _ => rfl⟩
  | failClosed =>
      rw [withoutVerdict_of_failClosed policy]
      refine ⟨_, rfl, nofun, fun _ _ => nofun, ?_, ?_, nofun, fun _ => nofun⟩
      · rintro - e rfl -
        subst fits
        obtain ⟨length, untouched⟩ := g.penalize_internalFault c.address now
        exact ⟨_, rfl, rfl, rfl, length, untouched.trans guard⟩
      · rintro - rfl
        subst fits
        exact ⟨_, rfl, rfl, rfl⟩

/-- After a verdict the policy does not matter. -/
theorem withVerdict_settles (policy : FailurePolicy) (v : Verdict) (before : Gate) :
    ∃ o, (g.withVerdict now c h v).1 = .finished o c.peer c.trail ∧
      policy.Settles (some (.verdict v)) before (g.withVerdict now c h v).2 o := by
  have accepts {after : Gate} {a : Accepted} (passes : v.isAllowed ∨ v.isThrottled)
      (whole : a.degraded = false) :
      policy.Settles (some (.verdict v)) before after (.accepted a) := by
    refine ⟨nofun, ?_, ?_, nofun, fun _ => nofun, ?_⟩
    · rintro - _ ⟨⟩
      exact ⟨whole, v, rfl, passes⟩
    · rintro - e ⟨⟩
      exact nofun
    · rintro _ ⟨⟩
      simp [whole, Opinion.verdict?]
  have rejects {after : Gate} {r : Rejection} :
      policy.Settles (some (.verdict v)) before after (.rejected r) := by
    refine ⟨nofun, fun _ _ => nofun, ?_, nofun, fun _ => nofun, fun _ => nofun⟩
    rintro - e ⟨⟩
    exact nofun
  cases v with
  | allow => exact ⟨_, rfl, accepts (.inl rfl) rfl⟩
  | throttle reason retryAfter =>
      simp only [withVerdict]
      split
      · exact ⟨_, rfl, rejects⟩
      · exact ⟨_, rfl, accepts (.inr rfl) rfl⟩
  | block reason requested =>
      cases requested with
      | none => exact ⟨_, rfl, rejects⟩
      | some d => exact ⟨_, rfl, rejects⟩

theorem conclude_settles {before : Gate} (guard : g.guard = before.guard)
    (opinion : Option Opinion) :
    ∃ o, (g.conclude now c q opinion).1 = .finished o c.peer c.trail ∧
      g.settings.detection.failurePolicy.Settles opinion before
        (g.conclude now c q opinion).2 o := by
  have guard := (g.guard_counted now c q).trans guard
  rw [← g.settings_counted now c q]
  match opinion with
  | some (.verdict v) => exact withVerdict_settles ..
  | some (.fault f) => exact withoutVerdict_settles (g := (g.counted now c q).note _) rfl rfl guard
  | some .crash => exact withoutVerdict_settles (g := (g.counted now c q).note _) rfl rfl guard
  | none => exact withoutVerdict_settles (g := (g.counted now c q).note _) rfl rfl guard

theorem await_decides {asked : Instant} {record : ConnectionRecord}
    (put : q.Put g.settings.detection g.detector c.trail asked record) (stop : Bool) :
    g.settings.detection.failurePolicy.Decides
      ((g.detector.classify record q.handshake).within
        (max g.settings.detection.classifyTimeout (now - asked)))
      now stop g c q (g.await now c q stop).1 (g.await now c q stop).2 := by
  have concludes {opinion found : Option Opinion} (same : found = opinion) :
      g.settings.detection.failurePolicy.Decides found now stop g c q
        ((g.noteDue now q).conclude now c q opinion).1
        ((g.noteDue now q).conclude now c q opinion).2 := by
    obtain ⟨o, ends, settles⟩ := conclude_settles (g.guard_noteDue now q) opinion
    rw [ends, same]
    exact .settled settles
  simp only [await]
  split
  · rename_i told
    exact .cancelled (.inl told)
  rename_i untold
  split
  · rename_i answer
    exact concludes (put.within_of_answer answer)
  rename_i silent
  split
  · rename_i elapsed
    exact concludes (put.within_of_silent elapsed silent)
  rename_i lasts
  have still : q.Open now := ⟨Nat.lt_of_not_le lasts, silent⟩
  simp only [keepWatch]
  split
  · rename_i closed
    exact .cancelled (.inr ⟨still, closed⟩)
  · exact .waits (Bool.eq_false_iff.mpr untold) still

end Gate

def Admission.deadline? (x : Admission) : Option Instant :=
  match x.progress with
  | some (.waiting _ (.opinion q)) => some q.deadline
  | _ => none

/-- An admission whose detector was asked has awaited the opinion at this turn, and what has come
of it is what `Gate.await` says. If it was not asked at this turn, it waited for the opinion. -/
theorem Admission.proceed_awaits {x : Admission} (under_way : x.isOver = false) {g : Gate}
    (posed : x.outset.Posed g.settings.detection g.detector) {now : Instant} {stop : Bool}
    {p : Progress} {left : Gate}
    (turn : x.proceed g now stop = ({ x with progress := some p }, left))
    {record : ConnectionRecord} {h : Handshake}
    (asked : (Point.resting p).trail.getLast? = some (.question record h)) :
    ∃ g₁ c q, Path now stop g x.outset g₁ (.awaiting c q) ∧
      (now ≤ q.deadline ∨ x.deadline? = some q.deadline) ∧
      c.trail.getLast? = some (.question record h) ∧ g₁.await now c q stop = (p, left) := by
  obtain ⟨r, same, path⟩ := x.proceed_follows g now stop
  rw [turn] at same path
  obtain rfl : p = r := by simpa using same
  have behind {g₁ : Gate} {c : Candidate} {q : Question}
      (awaited : g₁.await now c q stop = (p, left)) :
      c.trail.getLast? = some (.question record h) := by
    rw [← g₁.trail_await now c q stop, awaited]
    exact asked
  obtain unasked | ⟨c, q, waits⟩ := Admission.unasked_or_awaiting under_way posed
  · obtain unasked | ⟨g₁, c, q, there, on, punctual⟩ := path.unasked unasked
    · exact absurd asked (unasked record h)
    · exact ⟨g₁, c, q, there, .inl punctual, behind on.awaited, on.awaited⟩
  · have outset : x.outset = .awaiting c q := by
      simp only [Admission.outset, waits]
      rfl
    have deadline : x.deadline? = some q.deadline := by simp only [Admission.deadline?, waits]
    rw [outset] at path ⊢
    exact ⟨g, c, q, .here, .inr deadline, behind path.awaited, path.awaited⟩

theorem Registry.Books.found {r : Registry} {lost : Prop} {k : ConnectionKey}
    {state : ConnectionState} {bytes : Nat} (books : r.Books lost k state bytes) (kept : ¬lost) :
    ∃ record, r.record? k = some record ∧ record.state = state := by
  cases there : r.record? k with
  | none => exact absurd (books.there there) kept
  | some record => exact ⟨record, rfl, (books.tells record there).2.1⟩

/-- A turn after the detector was asked comes to what the failure policy wants. A turn that is late
still takes an opinion that has come meanwhile. -/
theorem Traffic.Reachable.decides {t : Traffic} (reachable : t.Reachable) {x : Admission}
    (present : x ∈ t.admissions) (under_way : x.isOver = false) {now : Instant} {stop : Bool}
    {p : Progress} {left : Gate}
    (turn : x.proceed t.gate now stop = ({ x with progress := some p }, left))
    {record : ConnectionRecord} {h : Handshake}
    (asked : (Point.resting p).trail.getLast? = some (.question record h)) :
    let s := t.gate.settings.detection
    ∃ g c q since, Path now stop t.gate x.outset g (.awaiting c q) ∧
      q.deadline = since + s.classifyTimeout ∧
      (now ≤ q.deadline ∨ x.deadline? = some q.deadline) ∧
      s.failurePolicy.Decides ((t.gate.detector.classify record h).within
        (max s.classifyTimeout (now - since))) now stop g c q p left ∧
      ∀ a rest trail, p = .finished (.accepted a) rest trail → a.key ∉ t.released →
        ∃ r, left.registry.record? a.key = some r ∧ r.state = .admitted := by
  intro s
  have sound := reachable.sound
  have posed := reachable.posed x present
  have booked := (Admission.proceed_sound under_way
    ((sound.each x present).toPoint under_way sound.numbered) now stop).record
  obtain ⟨g, c, q, path, taken, last, awaited⟩ :=
    Admission.proceed_awaits under_way posed turn asked
  obtain ⟨since, record', put⟩ := path.posed posed
  obtain ⟨rfl, rfl⟩ : record' = record ∧ q.handshake = h := by
    simpa using put.last.symm.trans last
  rw [← path.settings, ← path.detector] at put
  have decides := @Gate.await_decides g now c q since record' put stop
  rw [awaited, path.settings, path.detector] at decides
  rw [path.settings] at put
  refine ⟨g, c, q, since, path, put.deadline, taken, decides, ?_⟩
  rintro a rest trail rfl kept
  rw [Admission.point, turn] at booked
  exact Registry.Books.found booked kept

theorem Visit.Shows.deadline {v : Visit} {x : Admission} (shows : v.Shows (some x))
    {deadline : Instant} (waits : x.deadline? = some deadline) :
    ∃ c w, v.stage = .waiting c w ∧ w.timer = deadline := by
  simp only [Admission.deadline?] at waits
  split at waits
  · rename_i c q progress
    exact ⟨c, .opinion q, shows.stage progress, Option.some.inj waits⟩
  · cases waits

/-- Once the detector was asked about a connection, its admission goes on waiting, or is cancelled
without being told to, only while no opinion has come; otherwise it ends as the failure policy
wants it. Only what the detector says in its time counts, since a visit is taken up when it is due
and so is never late. All visits get to their ends, by turns such as these. -/
theorem Visit.settled_by_policy {lost : ConnectionKey → Prop} {first : Instant} {g₀ : Gate}
    {vs₀ : List Visit} (numbered : g₀.registry.Numbered)
    (coming : ∀ v ∈ vs₀, ∃ peer, v.stage = .coming peer) (spares : ∀ v ∈ vs₀, v.Spares lost) :
    let s := g₀.settings.detection
    (∀ v ∈ (runAll first g₀ vs₀).2.1, ∃ ended outcome, v.stage = .over ended outcome ∧
      ended ≤ max first v.start + longestStay g₀.settings ∧
      ∀ o ∈ outcome, ∃ found v' rest trail left,
        Turned lost first g₀ vs₀ ended found v' (.finished o rest trail) left) ∧
    ∀ {now found v p left record h}, Turned lost first g₀ vs₀ now found v p left →
      (Point.resting p).trail.getLast? = some (.question record h) →
      ∃ x g c q, v.Shows (some x) ∧ Path now v.stop found x.outset g (.awaiting c q) ∧
        s.failurePolicy.Decides ((g₀.detector.classify record h).within s.classifyTimeout)
          now v.stop g c q p left ∧
        ∀ a rest trail, p = .finished (.accepted a) rest trail → ¬lost a.key →
          ∃ r, left.registry.record? a.key = some r ∧ r.state = .admitted := by
  intro s
  refine ⟨fun v member => ?_, fun {now found v p left record h} turned asked => ?_⟩
  · obtain ⟨ended, outcome, stage, timely⟩ := (runAll_over first g₀ vs₀ coming).2 v member
    refine ⟨ended, outcome, stage, timely, ?_⟩
    rintro o rfl
    exact told_runAll coming v member ended o stage
  obtain ⟨settings, onTime⟩ := turned.onTime coming
  obtain ⟨t, x, reachable, rfl, present, released, shows, under_way, turn⟩ :=
    turned.traffic numbered coming spares
  obtain ⟨g, c, q, since, path, deadline, taken, decides, kept⟩ :=
    reachable.decides present under_way turn asked
  have punctual : now ≤ q.deadline := by
    rcases taken with early | waits
    · exact early
    · obtain ⟨c, w, stage, timer⟩ := shows.deadline waits
      simp only [OnTime, stage] at onTime
      exact timer ▸ onTime.1
  have soon : max s.classifyTimeout (now - since) = s.classifyTimeout := by
    rw [deadline, settings] at punctual
    exact Nat.max_eq_left (Nat.sub_le_iff_le_add'.mpr punctual)
  rw [settings, turned.detector, soon] at decides
  exact ⟨x, g, c, q, shows, path, decides, fun a rest trail same spared =>
    kept a rest trail same fun member => spared (released _ member)⟩

namespace Sample

/-- A gate that fails open, and whose detector lets everybody pass a nanosecond too late. -/
def tardy : Gate :=
  let script : Script := { otherwise := { opinion := .verdict .allow, delay := 250000001 } }
  { gate with detector := .engine script.engine }

def newcomer : Visit where
  address := arrived.address
  start := 0
  stage := .coming arrived.peer

def greeted : Gate × List Visit := Visit.round 0 tardy [newcomer]

def questioned : Gate × List Visit := Visit.round 500 greeted.1 greeted.2

def undecided : Gate × List Visit := Visit.interrupted 250000500 questioned.1 questioned.2

def unjudged : Option (Progress × Gate) :=
  undecided.2.head?.bind (Visit.turn? 250000500 undecided.1)

theorem underway_questioned :
    Visit.Underway (fun _ => False) 0 tardy [newcomer] 250000500 questioned.1 questioned.2 := by
  have begun : Visit.Underway (fun _ => False) 0 tardy [newcomer] 0 tardy [newcomer] := .opened
  have first : Visit.earliest? greeted.1 greeted.2 = some 500 := by decide +kernel
  have second : Visit.earliest? questioned.1 questioned.2 = some 250000500 := by decide +kernel
  have midway := begun.round (Nat.zero_le 500) fun t soonest =>
    Nat.le_of_eq (Option.some.inj (first.symm.trans soonest))
  exact midway.round (by decide) fun t soonest =>
    Nat.le_of_eq (Option.some.inj (second.symm.trans soonest))

/-- The connection is accepted, and marked as one that nobody gave a verdict on. -/
theorem accepted_unjudged :
    ∃ v found a rest trail left record h,
      Visit.Turned (fun _ => False) 0 tardy [newcomer] 250000500 found v
        (.finished (.accepted a) rest trail) left ∧
      a.degraded = true ∧
      ((tardy.detector.classify record h).within
        tardy.settings.detection.classifyTimeout).bind Opinion.verdict? = none ∧
      ∃ r, left.registry.record? a.key = some r ∧ r.state = .admitted := by
  have marked : unjudged.bind (fun r =>
      ({ arrived with progress := some r.1 } : Admission).connection?.map Accepted.degraded) =
        some true := by decide +kernel
  have last : unjudged.bind (fun r => (Point.resting r.1).trail.getLast?.map (·.kind)) =
      some .question := by decide +kernel
  obtain ⟨⟨p, left⟩, ends, accepted⟩ := Option.bind_eq_some_iff.mp marked
  obtain ⟨a, found, degraded⟩ := Option.map_eq_some_iff.mp accepted
  obtain ⟨rest, trail, progress⟩ := Admission.progress_of_connection? found
  obtain rfl : p = .finished (.accepted a) rest trail := Option.some.inj progress
  rw [ends] at last
  obtain ⟨result, asked, kind⟩ := Option.map_eq_some_iff.mp last
  obtain ⟨v, first, turn⟩ := Option.bind_eq_some_iff.mp ends
  obtain ⟨others, here⟩ := List.head?_eq_some_iff.mp first
  have turned : Visit.Turned (fun _ => False) 0 tardy [newcomer] 250000500 undecided.1 v
      (.finished (.accepted a) rest trail) left :=
    ⟨questioned.1, questioned.2, [], others, underway_questioned, here,
      by simp only [Visit.each, undecided], turn⟩
  cases result with
  | question record h =>
      have numbered : tardy.registry.Numbered := Registry.numbered_ofSettings {}
      have coming : ∀ v ∈ [newcomer], ∃ peer, v.stage = .coming peer := by
        simp only [List.mem_singleton, forall_eq]
        exact ⟨arrived.peer, rfl⟩
      have spares : ∀ v ∈ [newcomer], v.Spares fun _ => False := by
        simp only [List.mem_singleton, forall_eq]
        exact fun i member => absurd member List.not_mem_nil
      obtain ⟨-, settled⟩ := @Visit.settled_by_policy _ 0 _ _ numbered coming spares
      obtain ⟨x, g, c, q, -, -, decides, kept⟩ := settled turned asked
      refine ⟨v, undecided.1, a, rest, trail, left, record, h, turned, degraded, ?_⟩
      cases decides with
      | settled settles =>
          exact ⟨(settles.degraded_iff a rfl).mp degraded, kept a rest trail rfl id⟩
  | _ => cases kind

end Sample

end AdmissionGate
