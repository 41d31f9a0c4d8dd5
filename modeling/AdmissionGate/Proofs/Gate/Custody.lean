import AdmissionGate.Proofs.Gate.Service
import AdmissionGate.Proofs.Registry.Balance

/-!
Who holds which live connection. A connection is held by its admission from the registration
on, and by its lease after it was accepted; every other end releases it. So in a service that
nobody else registers at or releases from, the live connections are those that are held.
-/

namespace AdmissionGate

/-- The key that an admission holds at a point; one that has accepted hands it on. -/
def Point.held? : Point → Option ConnectionKey
  | .arriving _ _ => none
  | .considering c | .delayed c _ | .greeting c _ | .greeted c _ | .asking c _ | .awaiting c _
  | .concluding c _ _ | .judged c _ _ | .unjudged c _ _ | .rejecting c _ _ _ _ | .cancelling c
  | .accepting c _ _ | .resting (.waiting c _) => some c.key
  | .resting (.finished o _ _) => o.key?

/-- The live connections are the one that is held at the point, and `others`. -/
structure Point.Held (others : List ConnectionKey) (g : Gate) (p : Point) : Prop where
  balanced : g.registry.Balanced
  keys : g.registry.keys.Perm (p.held?.toList ++ others)

namespace Gate

variable (g : Gate) (k : ConnectionKey) (now : Instant)

theorem alike_sampleReputation : g.registry.Alike (g.sampleReputation k now).registry := by
  simp only [sampleReputation]
  split
  · exact Registry.alike_setReputation ..
  · exact .refl _

theorem alike_counted (c : Candidate) (q : Question) :
    g.registry.Alike (g.counted now c q).registry := by
  simp only [counted]
  split
  · exact .refl _
  · exact Registry.alike_update ..

end Gate

open Registry Gate in
/-- On an edge the same connections stay live, but for the one that is held. -/
theorem Leads.held {now : Instant} {stop : Bool} {g g' : Gate} {p p' : Point}
    (edge : Leads now stop g p g' p') {others : List ConnectionKey}
    (before : p.Held others g) : p'.Held others g' := by
  have numbered := edge.numbered before.balanced.numbered
  have alike (same : g.registry.Alike g'.registry) (held : p'.held? = p.held?) :
      p'.Held others g' :=
    ⟨before.balanced.alike same numbered, held ▸ same.keys.trans before.keys⟩
  have unchanged (same : g'.registry = g.registry) (held : p'.held? = p.held?) :
      p'.Held others g' :=
    alike (same ▸ .refl _) held
  cases edge with
  | @registered _ a _ key free =>
      have answer := registry_of_register _ _ free
      have balanced := before.balanced.register g.blocklist g.blocklist a now
      rw [answer] at balanced
      have keys : g'.registry.keys.Perm (key :: g.registry.keys) :=
        (register_adds answer).1.map ConnectionRecord.key
      exact ⟨balanced, keys.trans (before.keys.cons key)⟩
  | refused no =>
      have refused := registry_of_register _ _ no
      refine alike ?_ ?_
      · rw [registry_refuse]
        exact alike_register_of_error refused
      · simp only [refuse_eq]
        rfl
  | allowed v | blocked v => exact unchanged (registry_of_check _ _ v) rfl
  | exhausted v _ | throttled v _ =>
      have same := registry_of_check _ _ v
      exact unchanged same rfl
  | welcomed =>
      refine alike (Alike.trans ?_ (alike_sampleReputation ..)) rfl
      exact (alike_update ..).trans (alike_setState ..)
  | disconnected => exact alike (alike_update ..) rfl
  | malformed _ penalty =>
      refine alike ?_ rfl
      rw [registry_of_penalize _ _ penalty]
      exact alike_update ..
  | ruled => exact alike ((alike_counted ..).trans (alike_setState ..)) rfl
  | failed | crashed | tooLate => exact alike (alike_counted ..) rfl
  | suspected penalty _ =>
      have same := registry_of_penalizeBy _ _ penalty
      exact unchanged same rfl
  | convicted penalty => exact unchanged (registry_of_penalizeBy _ _ penalty) rfl
  | turnedAway penalty | failsClosed _ penalty =>
      exact unchanged (registry_of_penalize _ _ penalty) rfl
  | banned penalty block =>
      refine unchanged ?_ rfl
      rw [registry_of_block _ _ block, registry_of_penalize _ _ penalty]
  | failsOpen | accepted => exact alike (alike_setState ..) rfl
  | @rejected c _ _ _ _ =>
      have moved := alike_setState g.registry c.key .rejected
      have tended : g.registry.Tended c.key (g.registry.setState c.key .rejected) :=
        .setState .refl _
      have balanced := before.balanced.tended tended
      exact ⟨balanced.release c.key now,
        balanced.release_keys (moved.keys.trans before.keys) now⟩
  | @cancelled c =>
      exact ⟨before.balanced.release c.key now, before.balanced.release_keys before.keys now⟩
  | vanished | asked | delayStopped | delayLeft | delayOver | delayLasts | greetingStopped
  | greetingRead | greetingLate | greetingLasts | opinionStopped | answered | unanswered
  | opinionLeft | opinionLasts | passed => exact unchanged rfl rfl

theorem Path.held {now : Instant} {stop : Bool} {g g' : Gate} {p p' : Point}
    (path : Path now stop g p g' p') {others : List ConnectionKey} (before : p.Held others g) :
    p'.Held others g' :=
  path.preserves (fun edge => edge.held) before

theorem Admission.held?_outset {x : Admission} (under_way : x.isOver = false) :
    x.outset.held? = x.key? := by
  obtain ⟨a, peer, progress⟩ := x
  match progress with
  | none => rfl
  | some (.waiting c w) => cases w <;> rfl
  | some (.finished ..) => contradiction

def Operation.sparing : Operation → Bool
  | register _ | release _ => false
  | _ => true

theorem Gate.alike_perform (g : Gate) (now : Instant) {o : Operation} (sparing : o.sparing = true) :
    g.registry.Alike (g.perform now o).registry := by
  cases o with
  | register | release => contradiction
  | update => exact Registry.alike_update ..
  | move => exact Registry.alike_setState ..
  | rate => exact Registry.alike_setReputation ..
  | sweep => exact Registry.alike_purge ..
  | unblock a =>
      rw [perform, registry_unblock]
      exact .refl _
  | _ => exact .refl _

def Happening.sparing : Happening → Bool
  | operation o => o.sparing
  | _ => true

namespace Service

def holders (v : Service) : List ConnectionKey := v.admissions.filterMap (·.key?) ++ v.leases

structure Custody (v : Service) : Prop where
  balanced : v.gate.registry.Balanced
  keys : v.gate.registry.keys.Perm v.holders

/-- The holders, with one admission in front. -/
theorem holders_perm (before after : List Admission) (x : Admission) (g : Gate)
    (leases : List ConnectionKey) :
    (holders ⟨g, before ++ x :: after, leases⟩).Perm
      (x.key?.toList ++ holders ⟨g, before ++ after, leases⟩) := by
  have one : (x :: (before ++ after)).filterMap (·.key?) =
      x.key?.toList ++ (before ++ after).filterMap (·.key?) := by
    cases found : x.key? <;> simp [found]
  rw [holders, holders, ← List.append_assoc, ← one]
  exact (List.perm_middle.filterMap _).append_right _

theorem Stepped.custody {v : Service} {now : Instant} {h : Happening} {r : Option Ending × Service}
    (stepped : v.Stepped now h r) (sparing : h.sparing = true) (before : v.Custody) :
    r.2.Custody := by
  obtain ⟨balanced, keys⟩ := before
  have apart {l₁ l₂ : List Admission} {x : Admission} (here : v.admissions = l₁ ++ x :: l₂) :
      v.gate.registry.keys.Perm (x.key?.toList ++ holders { v with admissions := l₁ ++ l₂ }) := by
    refine keys.trans ?_
    rw [holders, here]
    exact holders_perm l₁ l₂ x v.gate v.leases
  cases stepped with
  | idle => exact ⟨balanced, keys⟩
  | arrival a peer =>
      refine ⟨balanced, ?_⟩
      simpa [holders, List.filterMap_append, Admission.key?] using keys
  | @turn _ _ l₁ l₂ x _ c w here under_way path =>
      have start := apart here
      rw [← Admission.held?_outset under_way] at start
      obtain ⟨balanced, keys⟩ := path.held ⟨balanced, start⟩
      have waits := holders_perm l₁ l₂ { x with progress := some (.waiting c w) } v.gate v.leases
      exact ⟨balanced, keys.trans waits.symm⟩
  | ending here under_way path =>
      have start := apart here
      rw [← Admission.held?_outset under_way] at start
      obtain ⟨balanced, keys⟩ := path.held ⟨balanced, start⟩
      refine ⟨balanced, keys.trans ?_⟩
      simp only [Point.held?, holders]
      exact List.perm_append_comm_assoc ..
  | @abandonment _ _ _ x here =>
      have start := apart here
      obtain ⟨a, peer, progress⟩ := x
      rcases progress with _ | ⟨c, w⟩ | _
      · exact ⟨balanced, start⟩
      · exact ⟨balanced.release c.key now, balanced.release_keys start now⟩
      · exact ⟨balanced, start⟩
  | @drop k held =>
      refine ⟨balanced.release k now, balanced.release_keys (keys.trans ?_) now⟩
      exact ((List.perm_cons_erase held).append_left _).trans List.perm_middle
  | operation o =>
      have alike := v.gate.alike_perform now sparing
      have numbered := (v.gate.perform_frame balanced.numbered now o).1
      exact ⟨balanced.alike alike numbered, alike.keys.trans keys⟩

theorem custody_run {v : Service} (opened : v.Open) (custody : v.Custody)
    {steps : List (Instant × Happening)} (sparing : ∀ s ∈ steps, s.2.sparing = true) :
    (v.run steps).2.Custody := by
  induction steps generalizing v with
  | nil => exact custody
  | cons s rest ih =>
      have stepped := step_cases opened s.1 s.2
      exact ih (stepped.opened opened)
        (stepped.custody (sparing s (List.mem_cons_self ..)) custody)
        fun s member => sparing s (List.mem_cons_of_mem _ member)

/-- The live count under custody. -/
theorem Custody.active {v : Service} (custody : v.Custody) :
    v.gate.registry.active = v.admissions.countP (·.key?.isSome) + v.leases.length := by
  have length := custody.keys.length_eq
  rw [Registry.keys, List.length_map, holders, List.length_append,
    List.length_filterMap_eq_countP] at length
  rw [custody.balanced.counted, length]

end Service

end AdmissionGate
