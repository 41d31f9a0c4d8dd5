import AdmissionGate.Proofs.Gate.Service

/-!
Where the verdicts come from that connections are judged by. Nothing exchanges the detector of a
gate, and a verdict is what the detector has answered to a question of the trail.
-/

namespace AdmissionGate

namespace Gate

@[simp] theorem detector_sampleReputation (g : Gate) (k : ConnectionKey) (now : Instant) :
    (g.sampleReputation k now).detector = g.detector := by
  simp only [sampleReputation]
  split <;> rfl

@[simp] theorem detector_counted (g : Gate) (now : Instant) (c : Candidate) (q : Question) :
    (g.counted now c q).detector = g.detector := by
  simp only [counted]
  split <;> rfl

@[simp] theorem detector_turnAway (g : Gate) (now : Instant) (r : Rejection)
    (key : Option ConnectionKey) (detail : Option String) :
    (g.turnAway now r key detail).detector = g.detector := by
  cases key <;> rfl

theorem detector_refuse (g : Gate) (now : Instant) (a : Address) (peer : Peer) (e : GateError) :
    (g.refuse now a peer e).2.detector = g.detector := by
  cases e <;> rfl

theorem detector_perform (g : Gate) (now : Instant) (o : Operation) :
    (g.perform now o).detector = g.detector := by
  cases o with
  | unblock a =>
      simp only [perform, Gate.unblock]
      split <;> rfl
  | _ => rfl

end Gate

/-- The gate that a function leaves behind has the detector of the gate it was used on. -/
theorem Gate.detector_of_eq {α : Type} {g g' : Gate} {r : α × Gate} {a : α}
    (answer : r = (a, g')) (same : r.2.detector = g.detector) : g'.detector = g.detector := by
  rw [answer] at same
  exact same

open Gate in
theorem Leads.detector {now : Instant} {stop : Bool} {g g' : Gate} {p p' : Point}
    (edge : Leads now stop g p g' p') : g'.detector = g.detector := by
  cases edge with
  | registered free => exact detector_of_eq free rfl
  | refused no => exact (detector_refuse ..).trans (detector_of_eq no rfl)
  | allowed v | blocked v => exact detector_of_eq v rfl
  | exhausted v _ | throttled v _ =>
      have same : _ = g.detector := detector_of_eq v rfl
      exact same
  | malformed _ penalty | convicted penalty | turnedAway penalty | failsClosed _ penalty =>
      exact detector_of_eq penalty rfl
  | suspected penalty _ =>
      have same : _ = g.detector := detector_of_eq penalty rfl
      exact same
  | banned penalty block =>
      have between : _ = g.detector := detector_of_eq penalty rfl
      rw [← between]
      exact detector_of_eq block rfl
  | welcomed => exact detector_sampleReputation ..
  | ruled | failed | crashed | tooLate => exact detector_counted ..
  | rejected => exact detector_turnAway ..
  | _ => rfl

/-- The detector answers a question of the trail with this verdict, sooner or later. -/
def Detector.Answers (d : Detector) (trail : List StageResult) (v : Verdict) : Prop :=
  ∃ record h delay, .question record h ∈ trail ∧
    (d.classify record h).answer = some (delay, .verdict v)

def Point.Consulted (d : Detector) : Point → Prop
  | .awaiting c q | .resting (.waiting c (.opinion q)) =>
      ∀ due v, q.answer = some (due, .verdict v) → d.Answers c.trail v
  | .concluding c _ (some (.verdict v)) | .judged c _ v => d.Answers c.trail v
  | _ => True

theorem Leads.consulted {now : Instant} {stop : Bool} {g g' : Gate} {p p' : Point}
    (edge : Leads now stop g p g' p') (before : p.Consulted g.detector) :
    p'.Consulted g'.detector := by
  rw [edge.detector]
  cases edge with
  | @asked _ h record found =>
      intro due v answer
      simp only [Gate.question, Consultation.delayed, Option.map_eq_some_iff, Prod.mk.injEq]
        at answer
      obtain ⟨⟨delay, o⟩, answer, -, rfl⟩ := answer
      exact ⟨record, h, delay, List.mem_append_right _ (List.mem_singleton_self _), answer⟩
  | @answered _ _ due o _ answer =>
      cases o with
      | verdict v => exact before due v (Option.filter_eq_some_iff.mp answer).1
      | fault | crash => trivial
  | opinionLasts | ruled => exact before
  | _ => trivial

theorem preserved_consulted (d : Detector) :
    Preserved (fun _ g => g.detector = d) fun _ _ p => p.Consulted d where
  later _ own := own
  arriving _ _ _ _ := trivial
  edge edge own before := by
    subst own
    exact ⟨edge.detector, edge.detector ▸ edge.consulted before⟩
  resumed {_ _ _ w} waits _ _ := by
    cases w with
    | delay | greeting => trivial
    | opinion => exact waits
  perform own o := (Gate.detector_perform ..).trans own

end AdmissionGate
