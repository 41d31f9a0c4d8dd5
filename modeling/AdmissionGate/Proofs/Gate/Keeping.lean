import AdmissionGate.Proofs.Gate.Custody
import AdmissionGate.Proofs.Registry.Progression

/-!
What a connection finds in the registry on its way through the gate. The gate never asks how far
a record has come before it moves it on; it goes by where the connection stands. At every point
the record of the connection is there and in the state that goes with that point, so each move
that the gate asks for is made; and the records of others stay as they are.
-/

namespace AdmissionGate

/-- The record of the connection is there, and as far as it has to be at this point. -/
def Point.Kept (g : Gate) : Point → Prop
  | .considering c | .delayed c _ | .greeting c _ | .greeted c _ =>
      g.registry.state? c.key = some .registered
  | .asking c _ | .awaiting c _ | .concluding c _ _ | .unjudged c _ _ =>
      g.registry.state? c.key = some .handshakeValidated
  | .judged c _ _ | .accepting c _ _ => g.registry.state? c.key = some .classified
  | .rejecting c state _ _ _ => g.registry.state? c.key = some state ∧ state.isTerminal = false
  | .cancelling c => g.registry.isLive c.key = true
  | .resting (.waiting c w) => g.registry.state? c.key = some w.state
  | .resting (.finished (.accepted c) _ _) => g.registry.state? c.key = some .admitted
  | .arriving .. | .resting (.finished ..) => True

/-- The move that the gate asks for on its edge from a point, under this policy. -/
def Point.move? (policy : FailurePolicy) : Point → Option (ConnectionKey × ConnectionState)
  | .greeted c (.ok _) => some (c.key, .handshakeValidated)
  | .concluding c _ (some (.verdict _)) => some (c.key, .classified)
  | .unjudged c _ _ => if policy = .failOpen then some (c.key, .classified) else none
  | .rejecting c _ _ _ _ => some (c.key, .rejected)
  | .accepting c _ _ => some (c.key, .admitted)
  | _ => none

namespace Point.Kept

variable {g : Gate} {p : Point} {k : ConnectionKey} {s : ConnectionState}

theorem live (kept : p.Kept g) (held : p.held? = some k) : g.registry.isLive k = true := by
  cases p with
  | arriving => cases held
  | cancelling =>
      cases held
      exact kept
  | rejecting =>
      cases held
      exact Registry.isLive_of_state? kept.1
  | resting p =>
      cases p with
      | waiting =>
          cases held
          exact Registry.isLive_of_state? kept
      | finished o =>
          cases o <;> cases held
          exact Registry.isLive_of_state? kept
  | _ =>
      cases held
      exact Registry.isLive_of_state? kept

/-- When the detector is to be asked about a connection its record is found. -/
theorem found {c : Candidate} {h : Handshake} (kept : (asking c h).Kept g) :
    ∃ record, g.registry.record? c.key = some record :=
  Registry.isLive_iff.mp (kept.live rfl)

/-- A move that the gate asks for may be made. -/
theorem may (kept : p.Kept g) {policy : FailurePolicy} (asked : p.move? policy = some (k, s)) :
    g.registry.canMove k s = true := by
  rw [Registry.canMove_iff]
  cases p with
  | greeted _ result =>
      cases result <;> cases asked
      exact ⟨_, kept, rfl⟩
  | concluding _ _ o =>
      rcases o with _ | _ | _ | _ <;> cases asked
      exact ⟨_, kept, rfl⟩
  | unjudged =>
      rw [move?] at asked
      split at asked <;> cases asked
      exact ⟨_, kept, rfl⟩
  | rejecting =>
      cases asked
      exact ⟨_, kept.1, by simp [ConnectionState.canMoveTo, kept.2]⟩
  | accepting =>
      cases asked
      exact ⟨_, kept, rfl⟩
  | _ => cases asked

end Point.Kept

namespace Gate

variable {g g' : Gate} {k other : ConnectionKey} {s : ConnectionState} {now : Instant}

theorem state?_sampleReputation (g : Gate) (k other : ConnectionKey) (now : Instant) :
    (g.sampleReputation k now).registry.state? other = g.registry.state? other := by
  simp only [sampleReputation]
  split
  · exact Registry.state?_setReputation ..
  · rfl

theorem state?_counted (g : Gate) (now : Instant) (c : Candidate) (q : Question)
    (k : ConnectionKey) : (g.counted now c q).registry.state? k = g.registry.state? k := by
  simp only [counted]
  split
  · rfl
  · exact Registry.state?_update ..

/-- The state after a move that may be made. -/
theorem state?_setState {old : ConnectionState} (before : g.registry.state? k = some old)
    (may : old.canMoveTo s = true) : (g.setState k s).registry.state? k = some s :=
  (Registry.state?_setState ..).trans
    (if_pos ⟨rfl, Registry.canMove_iff.mpr ⟨old, before, may⟩⟩)

end Gate

open Registry Gate in
/-- What every edge preserves, for the state of a record. -/
theorem Leads.kept {now : Instant} {stop : Bool} {g g' : Gate} {p p' : Point}
    (edge : Leads now stop g p g' p') (numbered : g.registry.Numbered) (before : p.Kept g) :
    p'.Kept g' := by
  have unchanged {r : Registry} {k : ConnectionKey} {s : ConnectionState}
      (same : r = g.registry) (state : g.registry.state? k = some s) : r.state? k = some s :=
    same ▸ state
  cases edge with
  | registered free =>
      exact (numbered.state?_register (registry_of_register _ _ free) _).trans (if_pos rfl)
  | refused =>
      rw [refuse_eq]
      trivial
  | allowed v | throttled v _ =>
      have same := registry_of_check _ _ v
      exact unchanged same before
  | blocked v | exhausted v _ =>
      have same := registry_of_check _ _ v
      exact ⟨unchanged same before, rfl⟩
  | @welcomed c =>
      have counted := (state?_update g.registry c.key c.key c.buffered.length now).trans before
      exact (state?_sampleReputation ..).trans (Gate.state?_setState (g := g.update ..) counted rfl)
  | disconnected => exact isLive_of_state? ((state?_update ..).trans before)
  | malformed _ penalty =>
      rw [Point.Kept, registry_of_penalize _ _ penalty]
      exact ⟨(state?_update ..).trans before, rfl⟩
  | vanished gone =>
      -- This edge is never taken.
      obtain ⟨record, there⟩ := before.found
      cases gone.symm.trans there
  | delayStopped | delayLeft | greetingStopped | opinionStopped | opinionLeft =>
      exact isLive_of_state? before
  | ruled => exact Gate.state?_setState ((state?_counted ..).trans before) rfl
  | failed | crashed | tooLate => exact (state?_counted ..).trans before
  | suspected penalty _ =>
      have same := registry_of_penalizeBy _ _ penalty
      exact unchanged same before
  | convicted penalty => exact ⟨unchanged (registry_of_penalizeBy _ _ penalty) before, rfl⟩
  | turnedAway penalty | failsClosed _ penalty =>
      exact ⟨unchanged (registry_of_penalize _ _ penalty) before, rfl⟩
  | banned penalty block =>
      have same := (registry_of_block _ _ block).trans (registry_of_penalize _ _ penalty)
      exact ⟨unchanged same before, rfl⟩
  | failsOpen | accepted => exact Gate.state?_setState before rfl
  | rejected | cancelled => trivial
  | delayOver | delayLasts | greetingRead | greetingLate | greetingLasts | asked | answered
  | unanswered | opinionLasts | passed => exact before

theorem Point.Of.held {p : Point} {k other : ConnectionKey} (own : p.Of k)
    (held : p.held? = some other) : other = k := by
  cases p with
  | arriving => cases own
  | resting p =>
      cases p with
      | waiting =>
          cases held
          exact own
      | finished o =>
          cases o <;> cases held
          exact own
  | _ =>
      cases held
      exact own

open Registry Gate in
/-- An edge leaves the states of other connections alone, and does not come to hold them. -/
theorem Leads.frame {now : Instant} {stop : Bool} {g g' : Gate} {p p' : Point}
    (edge : Leads now stop g p g' p') (numbered : g.registry.Numbered) :
    g.registry.nextId ≤ g'.registry.nextId ∧
      ∀ k, k.id < g.registry.nextId → p.held? ≠ some k →
        g'.registry.state? k = g.registry.state? k ∧ p'.held? ≠ some k := by
  have tended {own : ConnectionKey} (of : p.Of own) (held : p.held? = some own) :
      g.registry.nextId ≤ g'.registry.nextId ∧
        ∀ k, k.id < g.registry.nextId → p.held? ≠ some k →
          g'.registry.state? k = g.registry.state? k ∧ p'.held? ≠ some k := by
    obtain ⟨after, tends⟩ := edge.tended of
    have tends := tends _ .refl
    refine ⟨Nat.le_of_eq tends.nextId.symm, ?_⟩
    intro k _ other
    have ne : k ≠ own := fun same => other (same ▸ held)
    exact ⟨state?_of_record? (tends.record?_of_ne ne), fun again => ne (after.held again)⟩
  cases edge with
  | registered free =>
      obtain ⟨supply, others⟩ := register_frame numbered free
      obtain ⟨rfl, -⟩ := register_ok (registry_of_register _ _ free)
      refine ⟨supply, ?_⟩
      intro k issued _
      refine ⟨state?_of_record? (others k issued), ?_⟩
      rintro ⟨⟩
      exact Nat.lt_irrefl _ issued
  | refused no =>
      obtain ⟨supply, others⟩ := register_frame numbered no
      rw [registry_refuse, refuse_eq]
      refine ⟨supply, ?_⟩
      intro k issued _
      exact ⟨state?_of_record? (others k issued), fun held => nomatch held⟩
  | _ => exact tended rfl rfl

theorem Path.frame {now : Instant} {stop : Bool} {g g' : Gate} {p p' : Point}
    (path : Path now stop g p g' p') (numbered : g.registry.Numbered) {k : ConnectionKey}
    (issued : k.id < g.registry.nextId) (other : p.held? ≠ some k) :
    g'.registry.state? k = g.registry.state? k ∧ p'.held? ≠ some k := by
  have all := path.preserves
    (I := fun g' p' => g'.registry.Numbered ∧ k.id < g'.registry.nextId ∧
      g'.registry.state? k = g.registry.state? k ∧ p'.held? ≠ some k)
    (fun edge before => by
      obtain ⟨numbered, issued, same, other⟩ := before
      obtain ⟨supply, frame⟩ := edge.frame numbered
      obtain ⟨still, other⟩ := frame k issued other
      exact ⟨edge.numbered numbered, Nat.lt_of_lt_of_le issued supply, still.trans same, other⟩)
    ⟨numbered, issued, rfl, other⟩
  exact all.2.2

end AdmissionGate
