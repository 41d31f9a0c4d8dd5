import AdmissionGate.Proofs.Gate.Soundness

/-!
The order of the stages in traffic. However admissions are interleaved, each goes through its
stages in order, a stage that refuses is its last, and it ends with an accepted connection only
after the registration, an allowing check, the greeting and one question about its own record.
-/

namespace AdmissionGate

/-- What the trail of an admission shows; its delays may sum to `patience`. -/
structure Admission.Orderly (x : Admission) (patience : Duration) : Prop where
  /-- Each stage comes after the success of those before it. -/
  ordered : ∃ phase, Phase.arrived.along patience x.trail = some phase
  /-- Only the check is repeated. -/
  once : ∀ kind, kind ≠ .check → (x.trail.map (·.kind)).count kind ≤ 1
  /-- An admission is over as soon as a stage has refused. -/
  refused : ∀ k, Phase.arrived.along patience x.trail = some (.refused k) →
    ∃ o rest, x.progress = some (.finished o rest x.trail) ∧ ∀ c, o ≠ .accepted c
  /-- Without a registration nothing is read, and no number is given out. -/
  unregistered : Phase.arrived.along patience x.trail = some (.refused none) →
    ∃ r, x.progress = some (.finished (.rejected r) x.peer x.trail) ∧
      r.connectionId = none ∧ r.state = .new
  accepted : ∀ c rest trail, x.progress = some (.finished (.accepted c) rest trail) →
    ∃ (throttles : List Verdict) (record : ConnectionRecord),
      (∀ v ∈ throttles, v.isThrottled = true) ∧
        trail = .registration (.ok c.key) :: throttles.map .check ++
          [.check .allow, .greeting (.ok c.handshake), .question record c.handshake] ∧
        record.key = c.key ∧ record.state = .handshakeValidated ∧ c.key.address = x.address

namespace Admission

variable {x : Admission} {patience : Duration}

theorem along_of_staged (staged : x.point.Staged patience x.address x.peer) :
    ∃ phase, Phase.arrived.along patience x.trail = some phase := by
  obtain ⟨a, peer, progress⟩ := x
  match progress with
  | none => exact ⟨_, rfl⟩
  | some (.waiting c w) => cases w <;> exact ⟨_, staged.2⟩
  | some (.finished (.accepted c) rest trail) => exact ⟨_, staged.2⟩
  | some (.finished (.rejected r) rest trail) | some (.finished .cancelled rest trail) =>
      obtain ⟨phase, leads, -⟩ := staged
      exact ⟨phase, leads⟩

theorem over_of_refused (staged : x.point.Staged patience x.address x.peer)
    {k : Option ConnectionKey}
    (refused : Phase.arrived.along patience x.trail = some (.refused k)) :
    ∃ o rest, x.progress = some (.finished o rest x.trail) ∧ (∀ c, o ≠ .accepted c) ∧
      (k = none → rest = x.peer ∧ ∃ r, o = .rejected r ∧ r.connectionId = none ∧ r.state = .new) := by
  obtain ⟨a, peer, progress⟩ := x
  match progress with
  | none => cases refused
  | some (.waiting c w) =>
      have leads : ∃ phase, Phase.arrived.along patience c.trail = some phase ∧
          ∀ k, phase ≠ .refused k := by
        cases w <;> exact ⟨_, staged.2, fun _ same => by cases same⟩
      obtain ⟨phase, leads, other⟩ := leads
      have same := leads.symm.trans refused
      exact (other k (Option.some.inj same)).elim
  | some (.finished (.accepted c) rest trail) =>
      have same := staged.2.symm.trans refused
      cases same
  | some (.finished (.rejected r) rest trail) | some (.finished .cancelled rest trail) =>
      obtain ⟨phase, leads, untouched⟩ := staged
      cases leads.symm.trans refused
      refine ⟨_, _, rfl, ?_, ?_⟩
      · intro c same
        cases same
      · intro unregistered
        exact untouched (congrArg Phase.refused unregistered)

theorem orderly_of_staged (staged : x.point.Staged patience x.address x.peer) :
    x.Orderly patience where
  ordered := along_of_staged staged
  once kind other := by
    obtain ⟨phase, leads⟩ := along_of_staged staged
    exact Nat.le_trans (Phase.count_along other leads) (by split <;> decide)
  refused k refused := by
    obtain ⟨o, rest, ended, unaccepted, -⟩ := over_of_refused staged refused
    exact ⟨o, rest, ended, unaccepted⟩
  unregistered refused := by
    obtain ⟨o, rest, ended, -, untouched⟩ := over_of_refused staged refused
    obtain ⟨rfl, r, rfl, number, state⟩ := untouched rfl
    exact ⟨r, ended, number, state⟩
  accepted c rest trail ended := by
    simp only [point, ended] at staged
    obtain ⟨throttles, record, throttled, whole, own, validated⟩ :=
      Phase.asked_of_arrived staged.2
    exact ⟨throttles, record, throttled, whole, own, validated, staged.1⟩

/-- An address that is blocked is refused before anything else, and leaves nothing behind in
the registry and in the limiter. -/
theorem proceed_of_blocked {g : Gate} {now : Instant} {block : BlockStatus}
    (begins : x.progress = none) (blocked : g.blocklist.status? x.address now = some block)
    (stop : Bool) :
    ∃ r, (x.proceed g now stop).1.progress =
        some (.finished (.rejected r) x.peer
          [.registration (.error (.blocked x.address block.reason))]) ∧
      r.connectionId = none ∧ (x.proceed g now stop).2.registry = g.registry ∧
        (x.proceed g now stop).2.limiter = g.limiter := by
  have refused : g.registry.register g.blocklist g.blocklist x.address now =
      (.error (.blocked x.address block.reason), g.registry) := by
    simp only [Registry.register, blocked]
  simp only [proceed, begins, Gate.receive, Gate.register, refused]
  exact ⟨_, rfl, rfl, rfl, rfl⟩

end Admission

theorem Traffic.Reachable.stages_in_order {t : Traffic} (reachable : t.Reachable)
    {x : Admission} (present : x ∈ t.admissions) :
    x.Orderly t.gate.settings.pipeline.maxThrottleWait ∧
      ∀ now stop block, x.progress = none →
        t.gate.blocklist.status? x.address now = some block →
        ∃ r, (x.proceed t.gate now stop).1.progress =
            some (.finished (.rejected r) x.peer
              [.registration (.error (.blocked x.address block.reason))]) ∧
          r.connectionId = none ∧ (x.proceed t.gate now stop).2.registry = t.gate.registry ∧
            (x.proceed t.gate now stop).2.limiter = t.gate.limiter := by
  have staged := (reachable.sound.each x present).trail
  refine ⟨Admission.orderly_of_staged staged, ?_⟩
  intro now stop block begins blocked
  exact Admission.proceed_of_blocked begins blocked stop

theorem Sample.accepted_in_order :
    Sample.accepted.1.trail.map (·.kind) = [.registration, .check, .greeting, .question] ∧
      Sample.accepted.1.Orderly Sample.finale.gate.settings.pipeline.maxThrottleWait := by
  have present : Sample.accepted.1 ∈ Sample.finale.admissions := List.mem_singleton_self _
  have ordered := Traffic.Reachable.stages_in_order Sample.finale_reachable present
  refine ⟨?_, ordered.1⟩
  decide +kernel

end AdmissionGate
