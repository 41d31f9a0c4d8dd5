import AdmissionGate.Proofs.Gate.Consultation

/-!
The one question of an admission. Only one edge puts it, and from there on the trail stays as it
is; so an admission whose trail ends with the question has come by the point where the opinion is
awaited, and what it waits for there is what the detector answers. Since no more than one edge
goes on from a point, what comes of it is what `Gate.await` says.
-/

namespace AdmissionGate

variable {now : Instant} {stop : Bool} {g g' : Gate} {p p' : Point}

/-- At most one edge goes on from a point. -/
theorem Leads.unique {g₁ g₂ : Gate} {p₁ p₂ : Point} (first : Leads now stop g p g₁ p₁)
    (second : Leads now stop g p g₂ p₂) : g₁ = g₂ ∧ p₁ = p₂ := by
  cases first <;> cases second
  -- Where the same answer leads two ways, a condition on it rules out one of them.
  case throttled.exhausted v within _ _ _ v' beyond =>
      cases v.symm.trans v'
      exact absurd beyond within
  case suspected.convicted v penalty lenient _ _ penalty' =>
      cases penalty.symm.trans penalty'
      exact absurd rfl (lenient _ _)
  all_goals simp_all

theorem Path.unique {g₁ g₂ : Gate} {r₁ r₂ : Progress} (first : Path now stop g p g₁ (.resting r₁))
    (second : Path now stop g p g₂ (.resting r₂)) : r₁ = r₂ ∧ g₁ = g₂ := by
  generalize ends : Point.resting r₁ = p₁ at first
  induction first with
  | here =>
      subst ends
      cases second with
      | here => exact ⟨rfl, rfl⟩
      | step edge _ => cases edge
  | step edge _ ih =>
      cases second with
      | here => cases edge
      | step edge' rest =>
          obtain ⟨rfl, rfl⟩ := edge.unique edge'
          exact ih rest ends

/-- A path from where an opinion is awaited ends as `Gate.await` says. -/
theorem Path.awaited {c : Candidate} {q : Question} {r : Progress}
    (path : Path now stop g (.awaiting c q) g' (.resting r)) : g.await now c q stop = (r, g') := by
  obtain ⟨same, same'⟩ := (g.await_follows now c stop q).unique path
  exact Prod.ext same same'

def Point.trail : Point → List StageResult
  | .arriving _ _ => []
  | .considering c | .delayed c _ | .greeting c _ | .greeted c _ | .asking c _ | .awaiting c _
  | .concluding c _ _ | .judged c _ _ | .unjudged c _ _ | .rejecting c _ _ _ _ | .cancelling c
  | .accepting c _ _ | .resting (.waiting c _) => c.trail
  | .resting (.finished _ _ trail) => trail

def Unasked (trail : List StageResult) : Prop :=
  ∀ record h, trail.getLast? ≠ some (.question record h)

theorem unasked_passed (c : Candidate) {r : StageResult} (other : r.kind ≠ .question) :
    Unasked (c.passed r).trail := by
  intro record h last
  simp only [Candidate.passed, List.getLast?_concat, Option.some.injEq] at last
  exact other (last ▸ rfl)

theorem unasked_refuse (g : Gate) (now : Instant) (a : Address) (peer : Peer) (e : GateError) :
    Unasked (Point.resting (g.refuse now a peer e).1).trail := by
  cases e <;> exact fun _ _ last => nomatch last

theorem Leads.unasked (edge : Leads now stop g p g' p') (before : Unasked p.trail) :
    Unasked p'.trail ∨ ∃ c q, p' = .awaiting c q ∧ now ≤ q.deadline := by
  cases edge with
  | registered => exact .inl fun _ _ last => nomatch last
  | refused => exact .inl (unasked_refuse _ _ _ _ _)
  | allowed | blocked | exhausted | throttled => exact .inl (unasked_passed _ nofun)
  | welcomed | disconnected | malformed => exact .inl (unasked_passed _ nofun)
  | asked => exact .inr ⟨_, _, rfl, Nat.le_add_right ..⟩
  | _ => exact .inl before

/-- A path either gets nowhere near a question, or an opinion is awaited on it. -/
theorem Path.unasked (path : Path now stop g p g' p') (before : Unasked p.trail) :
    Unasked p'.trail ∨ ∃ g₁ c q, Path now stop g p g₁ (.awaiting c q) ∧
      Path now stop g₁ (.awaiting c q) g' p' ∧ now ≤ q.deadline := by
  induction path with
  | here => exact .inl before
  | step edge rest ih =>
      rcases edge.unasked before with unasked | ⟨c, q, rfl, punctual⟩
      · rcases ih unasked with unasked | ⟨g₁, c, q, there, on⟩
        · exact .inl unasked
        · exact .inr ⟨g₁, c, q, .step edge there, on⟩
      · exact .inr ⟨_, c, q, .one edge, rest, punctual⟩

theorem Gate.trail_await (g : Gate) (now : Instant) (c : Candidate) (q : Question) (stop : Bool) :
    (Point.resting (g.await now c q stop).1).trail = c.trail := by
  have without (g : Gate) (h : Handshake) (reason : Reason) :
      (Point.resting (g.withoutVerdict now c h reason).1).trail = c.trail := by
    simp only [withoutVerdict]
    split <;> rfl
  have concludes (g : Gate) (o : Option Opinion) :
      (Point.resting (g.conclude now c q o).1).trail = c.trail := by
    rcases o with _ | v | f | _
    case some.verdict =>
        simp only [conclude, withVerdict]
        split
        · rfl
        · split <;> rfl
        · split <;> rfl
    all_goals exact without ..
  simp only [await]
  split
  · rfl
  split
  · exact concludes ..
  split
  · exact concludes ..
  simp only [keepWatch]
  split <;> rfl

/-- A question as it was put at some instant, behind a trail. -/
structure Question.Put (q : Question) (s : DetectionSettings) (d : Detector)
    (trail : List StageResult) (asked : Instant) (record : ConnectionRecord) : Prop where
  last : trail.getLast? = some (.question record q.handshake)
  answer : q.answer = ((d.classify record q.handshake).delayed asked).answer
  deadline : q.deadline = asked + s.classifyTimeout

/-- A question is awaited as it was put, and nobody waits for anything else behind one. -/
def Point.Posed (s : DetectionSettings) (d : Detector) : Point → Prop
  | .awaiting c q | .resting (.waiting c (.opinion q)) =>
      ∃ asked record, q.Put s d c.trail asked record
  | .considering c | .delayed c _ | .greeting c _ | .greeted c _ | .asking c _
  | .resting (.waiting c _) => Unasked c.trail
  | _ => True

theorem Leads.posed (edge : Leads now stop g p g' p')
    (before : p.Posed g.settings.detection g.detector) :
    p'.Posed g'.settings.detection g'.detector := by
  rw [edge.settings, edge.detector]
  cases edge with
  | registered => exact fun _ _ last => nomatch last
  | allowed | throttled | welcomed => exact unasked_passed _ nofun
  | asked => exact ⟨now, _, ⟨by simp [Candidate.passed, Gate.question], rfl, rfl⟩⟩
  | delayOver | delayLasts | greetingRead | greetingLate | greetingLasts => exact before
  | opinionLasts =>
      obtain ⟨asked, record, last, answer, deadline⟩ := before
      exact ⟨asked, record, last, answer, deadline⟩
  | _ => trivial

theorem Path.detector (path : Path now stop g p g' p') : g'.detector = g.detector :=
  path.preserves (I := fun g' _ => g'.detector = g.detector)
    (fun edge before => edge.detector.trans before) rfl

theorem Path.posed (path : Path now stop g p g' p')
    (before : p.Posed g.settings.detection g.detector) :
    p'.Posed g.settings.detection g.detector := by
  have after : p'.Posed g'.settings.detection g'.detector :=
    path.preserves (I := fun g p => p.Posed g.settings.detection g.detector) Leads.posed before
  rwa [path.settings, path.detector] at after

namespace Admission

variable {x : Admission}

/-- An admission is taken up where it rests. -/
theorem outset_posed {s : DetectionSettings} {d : Detector} {r : Progress}
    (rests : (Point.resting r).Posed s d) : ({ x with progress := some r }).outset.Posed s d := by
  match r with
  | .waiting c w => cases w <;> exact rests
  | .finished o rest trail => trivial

/-- The question of an admission that goes on is still to come, or is awaited. -/
theorem unasked_or_awaiting {s : DetectionSettings} {d : Detector} (under_way : x.isOver = false)
    (posed : x.outset.Posed s d) :
    Unasked x.outset.trail ∨ ∃ c q, x.progress = some (.waiting c (.opinion q)) := by
  obtain ⟨a, peer, progress⟩ := x
  match progress with
  | none => exact .inl fun _ _ last => nomatch last
  | some (.waiting c (.delay ends)) | some (.waiting c (.greeting deadline)) => exact .inl posed
  | some (.waiting c (.opinion q)) => exact .inr ⟨c, q, rfl⟩
  | some (.finished ..) => contradiction

theorem abandoned_keeps (x : Admission) (g : Gate) (now : Instant) :
    (x.abandoned g now).settings = g.settings ∧ (x.abandoned g now).detector = g.detector := by
  simp only [abandoned]
  split <;> exact ⟨rfl, rfl⟩

end Admission

/-- In traffic every question is awaited as it was put to the detector of the gate. -/
theorem Traffic.Reachable.posed {t : Traffic} (reachable : t.Reachable) :
    ∀ x ∈ t.admissions, x.outset.Posed t.gate.settings.detection t.gate.detector := by
  induction reachable with
  | opened => exact fun _ => nofun
  | @next t t' now before later step ih =>
      cases step with
      | arrival a peer =>
          intro x member
          rcases List.mem_append.mp member with old | new
          · exact ih x old
          · rw [List.mem_singleton.mp new]
            trivial
      | @turn stop l₁ l₂ x here =>
          obtain ⟨r, same, path⟩ := x.proceed_follows t.gate now stop
          rw [here] at ih
          intro y member
          simp only [path.settings, path.detector]
          rcases List.mem_cons.mp (List.perm_middle.mem_iff.mp member) with rfl | other
          · rw [same]
            exact Admission.outset_posed
              (path.posed (ih x (List.mem_append_right _ (List.mem_cons_self ..))))
          · exact ih y (List.perm_middle.mem_iff.mpr (List.mem_cons_of_mem _ other))
      | @abandonment l₁ l₂ x here =>
          obtain ⟨settings, detector⟩ := x.abandoned_keeps t.gate now
          rw [here] at ih
          intro y other
          simp only [settings, detector]
          exact ih y (List.perm_middle.mem_iff.mpr (List.mem_cons_of_mem _ other))
      | operation o =>
          simp only [t.gate.settings_perform, t.gate.detector_perform]
          exact ih

end AdmissionGate
