import AdmissionGate.Proofs.Gate.Checks
import AdmissionGate.Proofs.Gate.Course
import AdmissionGate.Proofs.Gate.Custody
import AdmissionGate.Proofs.Gate.FailurePolicy
import AdmissionGate.Proofs.Gate.Silence
import AdmissionGate.Proofs.Gate.Standing

/-!
What an admission leaves behind that the connection went away from. Wherever that happens, the
gate has told nobody of the connection and has no record of it, and of what is held against its
address the checks of the limiter are all that it has had a part in. And if the connection was to
go away before its admission began, the gate neither listens to its peer nor asks the detector.
-/

namespace AdmissionGate

open StageResult (verdicts verdicts_append)

/-- The address was checked, with these verdicts. Entries whose block had ended may have gone
besides, and nothing else was done. -/
inductive Guard.Checked (a : Address) (now : Instant) : Guard → List Verdict → Guard → Prop
  | none (g : Guard) : Checked a now g [] g
  | lapse {g g' : Guard} {b : Blocklist} {vs : List Verdict} (lapse : g.blocklist.Lapse now b)
      (rest : Checked a now ⟨g.limiter, b⟩ vs g') : Checked a now g vs g'
  | check {g g' : Guard} {vs : List Verdict}
      (rest : Checked a now ⟨(g.limiter.check g.blocklist a now).limiter,
        (g.limiter.check g.blocklist a now).blocklist⟩ vs g') :
      Checked a now g ((g.limiter.check g.blocklist a now).answer :: vs) g'

theorem Guard.Checked.trans {a : Address} {now : Instant} {g g₁ g' : Guard} {vs vs' : List Verdict}
    (first : Checked a now g vs g₁) (second : Checked a now g₁ vs' g') :
    Checked a now g (vs ++ vs') g' := by
  induction first with
  | none => exact second
  | lapse lapse _ ih => exact .lapse lapse (ih second)
  | check _ ih => exact .check (ih second)

namespace Gate

variable {g g₁ g' : Gate} {a : Address} {k : ConnectionKey} {now : Instant}
  {gained later : List StageResult} {cancelled n : Nat}

theorem checked_of_check {v : Verdict} (answer : g.check a now = (v, g')) :
    g.guard.Checked a now [v] g'.guard := by
  cases answer
  exact .check (.none _)

theorem checked_of_register {result : Except GateError ConnectionKey}
    (answer : g.register a now = (result, g')) : g.guard.Checked a now [] g'.guard := by
  have lapse := lapse_of_register answer
  cases answer
  exact .lapse lapse (.none _)

/-- What an admission has done to a gate that it neither was accepted at nor turned away from,
while it went through some stages. -/
structure Neutral (k : ConnectionKey) (now : Instant) (g : Gate) (gained : List StageResult)
    (cancelled : Nat) (g' : Gate) : Prop where
  silent : g.Silent g'
  counters : g'.counters =
    { g.counters with
      throttled := g.counters.throttled + (verdicts gained).countP (·.isThrottled)
      cancelled := g.counters.cancelled + cancelled }
  guard : g.guard.Checked k.address now (verdicts gained) g'.guard
  registry : g.registry.Beside k g'.registry

namespace Neutral

theorem refl (k : ConnectionKey) (now : Instant) (g : Gate) : g.Neutral k now [] 0 g :=
  ⟨.refl g, rfl, .none _, .refl k _⟩

theorem trans (first : g.Neutral k now gained 0 g₁) (second : g₁.Neutral k now later n g') :
    g.Neutral k now (gained ++ later) n g' where
  silent := first.silent.trans second.silent
  counters := by
    rw [second.counters, first.counters, verdicts_append, List.countP_append, ← Nat.add_assoc]
    simp only [Nat.add_zero]
  guard := verdicts_append gained later ▸ first.guard.trans second.guard
  registry := first.registry.trans second.registry

/-- A stage that has nothing to do with the limiter. -/
theorem aside {r : StageResult} (calm : r.verdict? = none) (silent : g.Silent g')
    (counters : g'.counters = g.counters) (guard : g'.guard = g.guard)
    (registry : g.registry.Beside k g'.registry) : g.Neutral k now [r] 0 g' := by
  have nothing : verdicts [r] = [] := by simp [verdicts, calm]
  refine ⟨silent, ?_, ?_, registry⟩
  · rw [nothing, counters]
    rfl
  · rw [nothing, guard]
    exact .none _

/-- Something that is no stage. -/
theorem between (silent : g.Silent g') (counters : g'.counters = g.counters)
    (guard : g'.guard = g.guard) (registry : g'.registry = g.registry) :
    g.Neutral k now [] 0 g' where
  silent := silent
  counters := counters
  guard := guard ▸ .none _
  registry := registry ▸ .refl k _

end Neutral

end Gate

/-- The connection whose key is held is the one that the trail begins with. -/
def Point.Rooted (p : Point) : Prop :=
  ∀ k, p.held? = some k → p.trail.head? = some (.registration (.ok k))

theorem Leads.rooted {now : Instant} {stop : Bool} {g g' : Gate} {p p' : Point}
    (edge : Leads now stop g p g' p') (before : p.Rooted) : p'.Rooted := by
  have on (same : p'.held? = p.held?) : p'.Rooted := by
    intro k held
    obtain ⟨later, grown⟩ := edge.trail_prefix
    rw [← grown, List.head?_append, before k (same ▸ held)]
    rfl
  cases edge with
  | registered =>
      rintro _ ⟨⟩
      rfl
  | refused =>
      rw [Gate.refuse_eq]
      exact fun _ held => nomatch held
  | rejected | cancelled => exact fun _ held => nomatch held
  | _ => exact on rfl

open Registry in
theorem Leads.balanced {now : Instant} {stop : Bool} {g g' : Gate} {p p' : Point}
    (edge : Leads now stop g p g' p') (before : g.registry.Balanced) : g'.registry.Balanced := by
  have tended {k : ConnectionKey} (own : p.Of k) : g'.registry.Balanced :=
    before.tended ((edge.tended own).2 _ .refl)
  have registered {g₁ : Gate} {a : Address} {result : Except GateError ConnectionKey}
      (answer : g.register a now = (result, g₁)) : g₁.registry.Balanced := by
    have balanced := before.register g.blocklist g.blocklist a now
    rwa [Gate.registry_of_register _ _ answer] at balanced
  cases edge with
  | registered free => exact registered free
  | refused no =>
      rw [Gate.registry_refuse]
      exact registered no
  | _ => exact tended rfl

open Registry in
theorem Gate.balanced_perform {g : Gate} (balanced : g.registry.Balanced) (now : Instant)
    (o : Operation) : (g.perform now o).registry.Balanced := by
  cases o with
  | register a => exact balanced.register g.blocklist g.blocklist a now
  | update k bytes => exact balanced.tended (.update .refl bytes now)
  | move k state => exact balanced.tended (.setState .refl state)
  | rate k score => exact balanced.tended (.setReputation .refl score)
  | release k => exact balanced.release k now
  | sweep => exact balanced.purge now
  | unblock a =>
      rw [perform, registry_unblock]
      exact balanced
  | _ => exact balanced

theorem preserved_rooted (d : Detector) :
    Preserved (fun _ g => g.detector = d ∧ g.registry.Balanced)
      fun _ _ p => p.Rooted ∧ p.Noted d where
  later _ gate := gate
  arriving _ _ _ _ := ⟨fun _ held => (nomatch held), trivial⟩
  edge edge gate point := by
    obtain ⟨rfl, balanced⟩ := gate
    exact ⟨⟨edge.detector, edge.balanced balanced⟩, edge.rooted point.1,
      edge.detector ▸ edge.noted point.2⟩
  resumed {_ _ _ w} point _ _ := by cases w <;> exact point
  perform gate o :=
    ⟨(Gate.detector_perform ..).trans gate.1, Gate.balanced_perform gate.2 _ o⟩

/-- What was done since the gate `g₀`, as long as the matter is open or if the connection has gone
away; `early` is the trail of that time. -/
def Point.Neutral (now : Instant) (g₀ : Gate) (early : List StageResult) (g : Gate) : Point → Prop
  | .arriving _ _ => g = g₀ ∧ early = []
  | .considering c | .delayed c _ | .greeting c _ | .greeted c _ | .asking c _ | .awaiting c _
  | .cancelling c | .resting (.waiting c _) =>
      ∃ gained, c.trail = early ++ gained ∧ g₀.Neutral c.key now gained 0 g
  | .resting (.finished .cancelled _ trail) =>
      ∃ k gained, trail.head? = some (.registration (.ok k)) ∧ trail = early ++ gained ∧
        g₀.Neutral k now gained 1 g ∧ g.registry.record? k = none
  | _ => True

/-- One more step on the way. -/
theorem Gate.Neutral.extend {g₀ g g' : Gate} {k : ConnectionKey} {now : Instant}
    {early trail : List StageResult} {n : Nat}
    (before : ∃ gained, trail = early ++ gained ∧ g₀.Neutral k now gained 0 g)
    {later : List StageResult} (step : g.Neutral k now later n g') :
    ∃ gained, trail ++ later = early ++ gained ∧ g₀.Neutral k now gained n g' := by
  obtain ⟨gained, rfl, neutral⟩ := before
  exact ⟨gained ++ later, List.append_assoc .., neutral.trans step⟩

open Gate Registry in
/-- An edge on which the matter stays open does no more than it may. -/
theorem Leads.neutral {now : Instant} {stop : Bool} {g g' : Gate} {p p' : Point}
    (edge : Leads now stop g p g' p') (numbered : g.registry.Numbered) (rooted : p.Rooted)
    (noted : p.Noted g.detector) {g₀ : Gate} {early : List StageResult}
    (before : p.Neutral now g₀ early g) : p'.Neutral now g₀ early g' := by
  have beside {k : ConnectionKey} (own : p.Of k) : g.registry.Beside k g'.registry :=
    ((edge.tended own).2 _ .refl).beside numbered
  have between {c : Candidate} (silent : g.Silent g') (counters : g'.counters = g.counters)
      (guard : g'.guard = g.guard) (registry : g'.registry = g.registry)
      (before : ∃ gained, c.trail = early ++ gained ∧ g₀.Neutral c.key now gained 0 g) :
      ∃ gained, c.trail = early ++ gained ∧ g₀.Neutral c.key now gained 0 g' := by
    have step : g.Neutral c.key now [] 0 g' := .between silent counters guard registry
    simpa only [List.append_nil] using Neutral.extend before step
  cases edge with
  | registered free =>
      obtain ⟨rfl, rfl⟩ := before
      have registered := registry_of_register _ _ free
      obtain ⟨rfl, -⟩ := register_ok registered
      refine ⟨_, rfl, .of_register free, ?_, checked_of_register free,
        numbered.register_beside registered⟩
      cases congrArg Prod.snd free
      rfl
  | allowed v =>
      refine Neutral.extend before ⟨.of_check v, ?_, checked_of_check v, beside rfl⟩
      cases congrArg Prod.snd v
      rfl
  | throttled v within =>
      have guard := checked_of_check v
      refine Neutral.extend before ⟨?_, ?_, guard, beside rfl⟩
      · exact (Silent.of_check v).trans ⟨rfl, rfl, _, rfl, by simp⟩
      · cases congrArg Prod.snd v
        rfl
  | delayStopped | delayLeft | delayOver | delayLasts | greetingStopped | opinionStopped =>
      exact between (.refl g) rfl rfl rfl before
  | greetingRead | greetingLate | greetingLasts =>
      exact between (.noteReads ..) rfl rfl rfl before
  | welcomed =>
      refine Neutral.extend before (.aside rfl ?_ ?_ ?_ (beside rfl))
      · exact (Silent.update ..).trans ((Silent.setState ..).trans (.sampleReputation ..))
      · simp only [sampleReputation]
        split <;> rfl
      · simp only [sampleReputation]
        split <;> rfl
  | disconnected =>
      exact Neutral.extend before (.aside rfl ⟨rfl, rfl, _, rfl, by simp⟩ rfl rfl (beside rfl))
  | asked => exact Neutral.extend before (.aside rfl (.refl g) rfl rfl (beside rfl))
  | opinionLeft | opinionLasts => exact between (.noteDue g now noted) rfl rfl rfl before
  | @cancelled c =>
      obtain ⟨gained, same, neutral⟩ := before
      let counted := Gate.note { g with counters.cancelled := g.counters.cancelled + 1 }
        [.cancelled c.key]
      have noted : g.Silent counted := ⟨rfl, rfl, _, rfl, by simp⟩
      have told : g.Silent (g.cancel now c).2 := noted.trans (.release counted c.key now)
      have step : g.Neutral c.key now [] 1 (g.cancel now c).2 :=
        ⟨told, rfl, .none _, (Tended.refl.release now).beside numbered⟩
      have gone : (g.cancel now c).2.registry.record? c.key = none :=
        (record?_release ..).trans (if_pos rfl)
      exact ⟨c.key, gained ++ [], rooted c.key rfl, by simp [same], neutral.trans step, gone⟩
  | _ => trivial

theorem Path.neutral {now : Instant} {stop : Bool} {g g' : Gate} {p p' : Point}
    (path : Path now stop g p g' p') (balanced : g.registry.Balanced) (rooted : p.Rooted)
    (noted : p.Noted g.detector) {early : List StageResult} (before : p.Neutral now g early g) :
    p'.Neutral now g early g' := by
  have preserved := preserved_rooted g.detector
  refine (path.preserves (I := fun g' p' =>
    ((g'.detector = g.detector ∧ g'.registry.Balanced) ∧ p'.Rooted ∧ p'.Noted g.detector) ∧
      p'.Neutral now g early g') ?_ ⟨⟨⟨rfl, balanced⟩, rooted, noted⟩, before⟩).2
  rintro g₁ p₁ _ _ edge ⟨⟨gate, point⟩, before⟩
  have noted : p₁.Noted g₁.detector := gate.1 ▸ point.2
  exact ⟨preserved.edge edge gate point, edge.neutral gate.2.numbered point.1 noted before⟩

theorem Admission.neutral_outset {x : Admission} (under_way : x.isOver = false) (now : Instant)
    (g : Gate) : x.outset.Neutral now g x.trail g := by
  obtain ⟨a, peer, progress⟩ := x
  match progress with
  | none => exact ⟨rfl, rfl⟩
  | some (.waiting c w) =>
      cases w <;> exact ⟨[], (List.append_nil _).symm, .refl ..⟩
  | some (.finished ..) => contradiction

def Point.From (a : Address) : Point → Prop
  | .arriving b _ => b = a
  | p => ∀ k, .registration (.ok k) ∈ p.trail → k.address = a

theorem Leads.comes_from {now : Instant} {stop : Bool} {g g' : Gate} {p p' : Point}
    (edge : Leads now stop g p g' p') {a : Address} (before : p.From a) : p'.From a := by
  cases edge with
  | registered free =>
      obtain rfl := before
      obtain ⟨rfl, -⟩ := Registry.register_ok (Gate.registry_of_register _ _ free)
      intro k registered
      cases List.mem_singleton.mp registered
      rfl
  | refused =>
      intro k registered
      cases List.mem_singleton.mp registered
  | allowed | blocked | exhausted | throttled | welcomed | disconnected | malformed | asked =>
      intro k registered
      refine before k ((List.mem_append.mp registered).resolve_right fun last => ?_)
      cases List.mem_singleton.mp last
  | _ => exact before

theorem Turns.comes_from {x y : Admission} {turns : List Turn} (all : Turns x turns y)
    {a : Address} (before : x.outset.From a) : y.outset.From a := by
  induction all with
  | none => exact before
  | @next t p _ _ taken _ ih =>
      obtain ⟨stop, path⟩ := taken.path
      have rests : (Point.resting p).From a :=
        path.preserves (I := fun _ p => p.From a) (fun edge before => edge.comes_from before) before
      apply ih
      rw [taken.after]
      match p with
      | .waiting _ w => cases w <;> exact rests
      | .finished .. => exact rests

theorem Turn.Taken.neutral {t : Turn} {p : Progress} (taken : t.Taken p)
    (balanced : t.found.registry.Balanced) (rooted : t.before.outset.Rooted)
    (noted : t.before.outset.Noted t.found.detector) :
    (Point.resting p).Neutral t.now t.found t.before.trail t.left := by
  obtain ⟨stop, path⟩ := taken.path
  exact path.neutral balanced rooted noted (Admission.neutral_outset taken.under_way _ _)

namespace Course

variable {g : Gate} {a : Address} {peer : Peer} {steps : List (Instant × CourseStep)} {t : Turn}

/-- What each turn finds at a gate that was opened with balanced slots. -/
theorem turn_found (balanced : g.registry.Balanced)
    (member : t ∈ ((arrival { gate := g } a peer).run steps).1) :
    (t.found.registry.Balanced ∧ t.before.outset.Rooted ∧
        t.before.outset.Noted t.found.detector) ∧
      t.left.registry.Balanced ∧ t.after.outset.Rooted := by
  obtain ⟨⟨⟨same, found⟩, before⟩, left, after⟩ :=
    (preserved_rooted g.detector).turns (c := arrival { gate := g } a peer)
      (Service.open_of_gate g) ⟨⟨rfl, balanced⟩, fun _ there => nomatch there⟩
      (fun _ => ⟨fun _ held => (nomatch held), trivial⟩) steps t member
  exact ⟨⟨found, before.1, same ▸ before.2⟩, left.2, after.1⟩

/-- A turn after which the admission waits. -/
theorem waiting_neutral (balanced : g.registry.Balanced)
    (member : t ∈ ((arrival { gate := g } a peer).run steps).1) {c : Candidate} {w : Wait}
    (taken : t.Taken (.waiting c w)) :
    t.after.trail.head? = some (.registration (.ok c.key)) ∧
      t.found.Neutral c.key t.now t.gained 0 t.left := by
  obtain ⟨⟨found, rooted, noted⟩, -, after⟩ := turn_found balanced member
  obtain ⟨gained, grown, neutral⟩ := taken.neutral found rooted noted
  have trail : t.after.trail = c.trail := by
    rw [taken.after]
    rfl
  have same : t.gained = gained :=
    List.append_cancel_left (taken.trail.trans (trail.trans grown))
  rw [taken.after] at after
  refine ⟨trail ▸ ?_, same ▸ neutral⟩
  cases w <;> exact after c.key rfl

/-- The turn in which the admission is given up. -/
theorem cancelled_neutral (balanced : g.registry.Balanced)
    (member : t ∈ ((arrival { gate := g } a peer).run steps).1) {rest : Peer}
    (taken : t.Taken (.finished .cancelled rest t.after.trail)) :
    ∃ k, t.after.trail.head? = some (.registration (.ok k)) ∧
      t.found.Neutral k t.now t.gained 1 t.left ∧ t.left.registry.record? k = none ∧
      t.left.registry.active = (t.found.registry.keys.filter (· ≠ k)).length := by
  obtain ⟨⟨found, rooted, noted⟩, left, -⟩ := turn_found balanced member
  obtain ⟨k, gained, head, grown, neutral, gone⟩ := taken.neutral found rooted noted
  have same : t.gained = gained := List.append_cancel_left (taken.trail.trans grown)
  refine ⟨k, head, same ▸ neutral, gone, ?_⟩
  rw [left.active_beside gone]
  exact neutral.registry.keys.length_eq

end Course

namespace Gate

/-- Told to go away, a candidate is turned away by the limiter or cancelled, whatever its peer
sends and whoever the detector is. -/
theorem considering_told (g : Gate) (now : Instant) (c : Candidate) :
    ∃ (o : Outcome) (v : Verdict) (left : Gate), (∀ accepted, o ≠ .accepted accepted) ∧
      ∀ (peer : Peer) (d : Detector),
        Path now true { g with detector := d } (.considering { c with peer })
          { left with detector := d } (.resting (.finished o peer (c.trail ++ [.check v]))) := by
  rcases answer : g.check c.address now with ⟨v, g₁⟩
  have checked (d : Detector) :
      check { g with detector := d } c.address now = (v, { g₁ with detector := d }) := by
    cases answer
    rfl
  cases v with
  | allow =>
      refine ⟨.cancelled, .allow, (g₁.cancel now c).2, nofun, fun peer d => ?_⟩
      exact .step (.allowed (checked d)) (.step (.greetingStopped rfl) (.one .cancelled))
  | block reason length =>
      refine ⟨.rejected ⟨c.address, some c.key.id, reason, .registered, length⟩,
        .block reason length, (g₁.reject now c .registered reason length none).2, nofun,
        fun peer d => ?_⟩
      exact .step (.blocked (checked d)) (.one .rejected)
  | throttle reason retryAfter =>
      let waited := Duration.plus c.waited (max retryAfter leastDelay)
      by_cases beyond : g₁.settings.pipeline.maxThrottleWait < waited
      · refine ⟨.rejected ⟨c.address, some c.key.id, reason, .registered, none⟩,
          .throttle reason retryAfter,
          ((g₁.note [.waitExhausted c.address waited]).reject now c .registered reason none none).2,
          nofun, fun peer d => ?_⟩
        exact .step (.exhausted (checked d) beyond) (.one .rejected)
      · refine ⟨.cancelled, .throttle reason retryAfter, (cancel (Gate.note
          { g₁ with counters.throttled := g₁.counters.throttled + 1 }
          [.waiting c.key (max retryAfter leastDelay)]) now c).2, nofun, fun peer d => ?_⟩
        exact .step (.throttled (checked d) beyond) (.step (.delayStopped rfl) (.one .cancelled))

/-- An arrival ends at once, without an acceptance. No handshake is read for and no question is
put, and the peer and the detector could be any others. -/
structure Overlooks (g : Gate) (now : Instant) (a : Address) (o : Outcome)
    (trail : List StageResult) (left : Gate) : Prop where
  unaccepted : ∀ accepted, o ≠ .accepted accepted
  stages : (∃ e, trail = [.registration (.error e)]) ∨
    ∃ k v, trail = [.registration (.ok k), .check v]
  alike : ∀ (peer : Peer) (d : Detector), receive { g with detector := d } now a peer true =
    (.finished o peer trail, { left with detector := d })

theorem receive_told (g : Gate) (now : Instant) (a : Address) :
    ∃ o trail left, g.Overlooks now a o trail left := by
  rcases answer : g.register a now with ⟨result, g₁⟩
  have registered (d : Detector) :
      register { g with detector := d } a now = (result, { g₁ with detector := d }) := by
    cases answer
    rfl
  cases result with
  | error e =>
      refine ⟨.rejected ⟨a, none, e.reason, .new, (g₁.refusal now e).1⟩, _,
        (g₁.refuse now a [] e).2, nofun, .inl ⟨e, rfl⟩, fun peer d => ?_⟩
      simp only [receive, registered]
      cases e <;> rfl
  | ok key =>
      obtain ⟨o, v, left, unaccepted, path⟩ := g₁.considering_told now
        { key, peer := [], trail := [.registration (.ok key)] }
      refine ⟨o, _, left, unaccepted, .inr ⟨key, v, rfl⟩, fun peer d => ?_⟩
      have whole : Path now true { g with detector := d } (.arriving a peer)
          { left with detector := d }
          (.resting (.finished o peer [.registration (.ok key), .check v])) :=
        .step (.registered (registered d)) (path peer d)
      obtain ⟨progress, gate⟩ := (receive_follows _ now a peer true).unique whole
      exact Prod.ext progress gate

end Gate

/-- The turns of a connection from the address `a` that was registered under the key `k` and has
gone away in the last one. -/
structure Course.Unmarked (a : Address) (k : ConnectionKey) (early : List Turn) (last : Turn) :
    Prop where
  address : k.address = a
  registered : last.after.trail.head? = some (.registration (.ok k))
  stages : (early ++ [last]).flatMap (·.gained) = last.after.trail
  waiting : ∀ t ∈ early, t.found.Neutral k t.now t.gained 0 t.left
  leaving : last.found.Neutral k last.now last.gained 1 last.left
  gone : last.left.registry.record? k = none
  active : last.left.registry.active = (last.found.registry.keys.filter (· ≠ k)).length

/-- An admission that is given up leaves no mark: at the gate it told nobody, and moved no more
than the checks of its address, its own record and the two counters that are meant for it. If it
was told to go away before it began, it was neither accepted nor looked at. -/
theorem Course.cancelled_without_a_mark {g : Gate} (balanced : g.registry.Balanced) :
    (∀ a peer steps,
      ((arrival { gate := g } a peer).run steps).2.admission.outcome? = some .cancelled →
      ∃ k early last, ((arrival { gate := g } a peer).run steps).1 = early ++ [last] ∧
        Unmarked a k early last) ∧
    ∀ now a, ∃ o trail left, g.Overlooks now a o trail left := by
  refine ⟨fun a peer steps cancelled => ?_, g.receive_told⟩
  have all := (arrival { gate := g } a peer).turns_run steps
  obtain ⟨early, last, rest, turns, final, ending, waits⟩ := all.ended rfl cancelled
  have member {t : Turn} (there : t ∈ early ++ [last]) :
      t ∈ ((arrival { gate := g } a peer).run steps).1 :=
    turns ▸ there
  rw [← final] at ending cancelled
  obtain ⟨k, head, neutral, gone, active⟩ :=
    cancelled_neutral balanced (member (List.mem_append_right _ (List.mem_singleton_self _))) ending
  refine ⟨k, early, last, turns, ?_, head, ?_, ?_, neutral, gone, active⟩
  · have own : last.after.outset.From a := final ▸ all.comes_from rfl
    rw [ending.after] at own
    exact own k (List.mem_of_mem_head? head)
  · rw [← turns, final, ← all.trail]
    rfl
  · intro t there
    obtain ⟨c, w, taken⟩ := waits t there
    have there := member (List.mem_append_left _ there)
    obtain ⟨own, waited⟩ := waiting_neutral balanced there taken
    -- The trail of the turn is where the whole trail begins, and so its key is the same.
    obtain ⟨later, grown⟩ := all.trail_prefix t there
    rw [final, ← grown, List.head?_append, own] at head
    cases head
    exact waited

namespace Sample

def departing : List (Instant × CourseStep) := [(0, .turn false), (250, .turn true)]

def departedTurns : List Turn × Course :=
  (Course.arrival { gate := strict } arrived.address arrived.peer).run departing

theorem departed_without_a_mark :
    departedTurns.2.admission.outcome? = some .cancelled ∧
      ∃ k early last, departedTurns.1 = early ++ [last] ∧
        Course.Unmarked arrived.address k early last := by
  have cancelled : departedTurns.2.admission.outcome? = some .cancelled := by decide +kernel
  have balanced : strict.registry.Balanced := Registry.Balanced.ofSettings strictSettings.registry
  rw [departedTurns] at cancelled ⊢
  exact ⟨cancelled, (Course.cancelled_without_a_mark balanced).1 _ _ _ cancelled⟩

end Sample

end AdmissionGate
