import AdmissionGate.Proofs.Gate.Passage
import AdmissionGate.Proofs.Registry.Numbering

/-!
What the functions of the gate leave alone. No edge changes the settings, and from the
registration on the edges of an admission tend to the record of its own key and to no other.
-/

namespace AdmissionGate

namespace Gate

variable (g : Gate) (now : Instant) (a : Address) (k : ConnectionKey)

@[simp] theorem settings_note (entries : List JournalEntry) :
    (g.note entries).settings = g.settings := rfl

@[simp] theorem settings_update (bytes : Nat) :
    (g.update k bytes now).settings = g.settings := rfl

@[simp] theorem settings_setState (state : ConnectionState) :
    (g.setState k state).settings = g.settings := rfl

@[simp] theorem settings_sampleReputation :
    (g.sampleReputation k now).settings = g.settings := by
  simp only [sampleReputation]
  split <;> rfl

@[simp] theorem settings_counted (c : Candidate) (q : Question) :
    (g.counted now c q).settings = g.settings := by
  simp only [counted]
  split <;> rfl

@[simp] theorem settings_turnAway (r : Rejection) (key : Option ConnectionKey)
    (detail : Option String) : (g.turnAway now r key detail).settings = g.settings := by
  cases key <;> rfl

@[simp] theorem settings_refuse (peer : Peer) (e : GateError) :
    (g.refuse now a peer e).2.settings = g.settings := by
  cases e <;> rfl

theorem settings_of_register {g g' : Gate} {result : Except GateError ConnectionKey}
    (answer : g.register a now = (result, g')) : g'.settings = g.settings := by
  cases answer
  rfl

theorem settings_of_check {g g' : Gate} {v : Verdict} (answer : g.check a now = (v, g')) :
    g'.settings = g.settings := by
  cases answer
  rfl

theorem settings_of_penalizeBy {g g' : Gate} {amount : Float} {v : Option Verdict}
    (answer : g.penalizeBy a amount now = (v, g')) : g'.settings = g.settings := by
  cases answer
  rfl

theorem settings_of_penalize {g g' : Gate} {reason : Reason} {length : Option Duration}
    (answer : g.penalize a reason now = (length, g')) : g'.settings = g.settings := by
  cases answer
  rfl

theorem settings_of_block {g g' : Gate} {reason : Reason} {requested length : Option Duration}
    (answer : g.block a reason requested now = (length, g')) : g'.settings = g.settings := by
  cases answer
  rfl

@[simp] theorem registry_note (entries : List JournalEntry) :
    (g.note entries).registry = g.registry := rfl

theorem registry_of_register {g g' : Gate} {result : Except GateError ConnectionKey}
    (answer : g.register a now = (result, g')) :
    g.registry.register g.blocklist g.blocklist a now = (result, g'.registry) := by
  cases answer
  rfl

theorem registry_of_check {g g' : Gate} {v : Verdict} (answer : g.check a now = (v, g')) :
    g'.registry = g.registry := by
  cases answer
  rfl

theorem registry_of_penalizeBy {g g' : Gate} {amount : Float} {v : Option Verdict}
    (answer : g.penalizeBy a amount now = (v, g')) : g'.registry = g.registry := by
  cases answer
  rfl

theorem registry_of_penalize {g g' : Gate} {reason : Reason} {length : Option Duration}
    (answer : g.penalize a reason now = (length, g')) : g'.registry = g.registry := by
  cases answer
  rfl

theorem registry_of_block {g g' : Gate} {reason : Reason} {requested length : Option Duration}
    (answer : g.block a reason requested now = (length, g')) : g'.registry = g.registry := by
  cases answer
  rfl

@[simp] theorem registry_refuse (peer : Peer) (e : GateError) :
    (g.refuse now a peer e).2.registry = g.registry := by
  cases e <;> rfl

theorem tended_sampleReputation {r : Registry} (before : r.Tended k g.registry) :
    r.Tended k (g.sampleReputation k now).registry := by
  simp only [sampleReputation]
  split
  · exact before.setReputation _
  · exact before

theorem tended_counted (c : Candidate) {q : Question} {r : Registry}
    (before : r.Tended c.key g.registry) : r.Tended c.key (g.counted now c q).registry := by
  simp only [counted]
  split
  · exact before
  · exact before.update _ _

end Gate

open Gate in
/-- No edge changes the settings. -/
theorem Leads.settings {now : Instant} {stop : Bool} {g g' : Gate} {p p' : Point}
    (edge : Leads now stop g p g' p') : g'.settings = g.settings := by
  cases edge with
  | registered free => exact settings_of_register _ _ free
  | refused no => rw [settings_refuse, settings_of_register _ _ no]
  | allowed v | blocked v => exact settings_of_check _ _ v
  | exhausted v _ => rw [settings_note, settings_of_check _ _ v]
  | throttled v _ =>
      have same := settings_of_check _ _ v
      exact same
  | welcomed => rw [settings_sampleReputation, settings_setState, settings_update]
  | malformed _ penalty =>
      rw [settings_of_penalize _ _ penalty, settings_note, settings_update]
  | ruled => rw [settings_setState, settings_counted]
  | failed | crashed | tooLate => rw [settings_note, settings_counted]
  | suspected penalty _ => rw [settings_note, settings_of_penalizeBy _ _ penalty]
  | convicted penalty => exact settings_of_penalizeBy _ _ penalty
  | turnedAway penalty => exact settings_of_penalize _ _ penalty
  | banned penalty block =>
      rw [settings_of_block _ _ block, settings_of_penalize _ _ penalty]
  | failsClosed _ penalty => exact settings_of_penalize _ _ penalty
  | rejected => exact settings_turnAway ..
  | _ => rfl

def Point.Of (k : ConnectionKey) : Point → Prop
  | .arriving _ _ => False
  | .considering c | .delayed c _ | .greeting c _ | .greeted c _ | .asking c _ | .awaiting c _
  | .concluding c _ _ | .judged c _ _ | .unjudged c _ _ | .rejecting c _ _ _ _ | .cancelling c
  | .accepting c _ _ | .resting (.waiting c _) => c.key = k
  | .resting (.finished (.accepted c) _ _) => c.key = k
  | .resting (.finished _ _ _) => True

open Registry Gate in
/-- An edge of a connection does nothing to the registry but tend to its record. -/
theorem Leads.tended {now : Instant} {stop : Bool} {g g' : Gate} {p p' : Point}
    (edge : Leads now stop g p g' p') {k : ConnectionKey} (own : p.Of k) :
    p'.Of k ∧ ∀ r : Registry, r.Tended k g.registry → r.Tended k g'.registry := by
  cases edge with
  | registered | refused => cases own
  | allowed v | blocked v =>
      rw [registry_of_check _ _ v]
      exact ⟨own, fun _ before => before⟩
  | exhausted v _ =>
      rw [registry_note, registry_of_check _ _ v]
      exact ⟨own, fun _ before => before⟩
  | throttled v _ =>
      rw [registry_note, registry_of_check _ _ v]
      exact ⟨own, fun _ before => before⟩
  | welcomed =>
      cases own
      exact ⟨rfl, fun _ before => tended_sampleReputation _ _ _ ((before.update _ _).setState _)⟩
  | malformed _ penalty =>
      cases own
      rw [registry_of_penalize _ _ penalty]
      exact ⟨rfl, fun _ before => before.update _ _⟩
  | disconnected =>
      cases own
      exact ⟨rfl, fun _ before => before.update _ _⟩
  | ruled =>
      cases own
      exact ⟨rfl, fun _ before => (tended_counted _ _ _ before).setState _⟩
  | failed | crashed | tooLate =>
      cases own
      exact ⟨rfl, fun _ before => tended_counted _ _ _ before⟩
  | suspected penalty _ =>
      rw [registry_note, registry_of_penalizeBy _ _ penalty]
      exact ⟨own, fun _ before => before⟩
  | convicted penalty =>
      rw [registry_of_penalizeBy _ _ penalty]
      exact ⟨own, fun _ before => before⟩
  | turnedAway penalty | failsClosed _ penalty =>
      rw [registry_of_penalize _ _ penalty]
      exact ⟨own, fun _ before => before⟩
  | banned penalty block =>
      rw [registry_of_block _ _ block, registry_of_penalize _ _ penalty]
      exact ⟨own, fun _ before => before⟩
  | failsOpen =>
      cases own
      exact ⟨rfl, fun _ before => before.setState _⟩
  | rejected =>
      cases own
      exact ⟨trivial, fun _ before => (before.setState _).release _⟩
  | cancelled =>
      cases own
      exact ⟨trivial, fun _ before => before.release _⟩
  | accepted =>
      cases own
      exact ⟨rfl, fun _ before => before.setState _⟩
  | _ => exact ⟨own, fun _ before => before⟩

end AdmissionGate
