import AdmissionGate.Proofs.Gate.Questions

/-!
One admission among everything else that happens at its gate. In a course the admission has its
turns, and between them the others go on in any order. Each turn tells the gate as it was found
and as it was left, so that what the admission itself does can be told from what the others do.
-/

namespace AdmissionGate

structure Turn where
  now : Instant
  before : Admission
  after : Admission
  found : Gate
  left : Gate

structure Course where
  admission : Admission
  /-- The gate, and all others who are there. -/
  others : Service

inductive CourseStep where
  /-- The admission begins or is taken up again; `stop` tells it to go away. -/
  | turn (stop : Bool)
  | other (h : Happening)

def Admission.outcome? (x : Admission) : Option Outcome :=
  match x.progress with
  | some (.finished o _ _) => some o
  | _ => none

namespace Course

def arrival (v : Service) (a : Address) (peer : Peer) : Course :=
  { admission := { address := a, peer }, others := v }

/-- An admission that is over has no turns any more. -/
def step (c : Course) (now : Instant) : CourseStep → Option Turn × Course
  | .turn stop =>
      if c.admission.isOver then (none, c)
      else
        let (x, gate) := c.admission.proceed c.others.gate now stop
        (some { now, before := c.admission, after := x, found := c.others.gate, left := gate },
          { admission := x, others := { c.others with gate } })
  | .other h => (none, { c with others := (c.others.step now h).2 })

def run (c : Course) : List (Instant × CourseStep) → List Turn × Course
  | [] => ([], c)
  | (now, s) :: rest =>
      let (turn, c) := c.step now s
      let (turns, c) := c.run rest
      (turn.toList ++ turns, c)

theorem run_cons (c : Course) (now : Instant) (s : CourseStep)
    (rest : List (Instant × CourseStep)) :
    c.run ((now, s) :: rest) =
      ((c.step now s).1.toList ++ ((c.step now s).2.run rest).1, ((c.step now s).2.run rest).2) :=
  rfl

end Course

/-- Trails grow along the way. -/
theorem Leads.trail_prefix {now : Instant} {stop : Bool} {g g' : Gate} {p p' : Point}
    (edge : Leads now stop g p g' p') : p.trail <+: p'.trail := by
  cases edge with
  | registered | refused => exact List.nil_prefix
  | allowed | blocked | exhausted | throttled | welcomed | disconnected | malformed | asked =>
      exact List.prefix_append ..
  | _ => exact List.prefix_refl _

theorem Path.trail_prefix {now : Instant} {stop : Bool} {g g' : Gate} {p p' : Point}
    (path : Path now stop g p g' p') : p.trail <+: p'.trail :=
  path.preserves (I := fun _ p' => p.trail <+: p'.trail)
    (fun edge before => before.trans edge.trail_prefix) (List.prefix_refl _)

theorem Admission.isOver_of_outcome? {x : Admission} {o : Outcome} (ended : x.outcome? = some o) :
    x.isOver = true := by
  obtain ⟨a, peer, progress⟩ := x
  match progress with
  | none | some (.waiting ..) => cases ended
  | some (.finished ..) => rfl

theorem Admission.trail_outset (x : Admission) : x.outset.trail = x.trail := by
  obtain ⟨a, peer, progress⟩ := x
  match progress with
  | none => rfl
  | some (.waiting c w) => cases w <;> rfl
  | some (.finished ..) => rfl

namespace Turn

def gained (t : Turn) : List StageResult := t.after.trail.drop t.before.trail.length

/-- The turn took an admission that was not over along a path of the gate. -/
structure Taken (t : Turn) (p : Progress) : Prop where
  under_way : t.before.isOver = false
  after : t.after = { t.before with progress := some p }
  path : ∃ stop, Path t.now stop t.found t.before.outset t.left (.resting p)

theorem Taken.trail {t : Turn} {p : Progress} (taken : t.Taken p) :
    t.before.trail ++ t.gained = t.after.trail := by
  obtain ⟨stop, path⟩ := taken.path
  have grown := path.trail_prefix
  have rests : (Point.resting p).trail = t.after.trail := by
    rw [taken.after]
    cases p <;> rfl
  rw [Admission.trail_outset, rests] at grown
  exact List.prefix_iff_eq_append.mp grown

end Turn

/-- Turns of one admission, each taken from where the one before it left off. -/
inductive Turns : Admission → List Turn → Admission → Prop
  | none (x : Admission) : Turns x [] x
  | next {t : Turn} {p : Progress} {rest : List Turn} {y : Admission} (taken : t.Taken p)
      (later : Turns t.after rest y) : Turns t.before (t :: rest) y

namespace Turns

variable {x y : Admission} {turns : List Turn}

theorem trail (all : Turns x turns y) : x.trail ++ turns.flatMap (·.gained) = y.trail := by
  induction all with
  | none => simp
  | next taken _ ih =>
      rw [List.flatMap_cons, ← List.append_assoc, taken.trail]
      exact ih

theorem trail_prefix (all : Turns x turns y) : ∀ t ∈ turns, t.after.trail <+: y.trail := by
  induction all with
  | none => exact fun _ member => nomatch member
  | next taken later ih =>
      intro t member
      rcases List.mem_cons.mp member with rfl | there
      · exact ⟨_, later.trail⟩
      · exact ih t there

/-- An admission that is over is left alone. -/
theorem of_isOver (all : Turns x turns y) (ended : x.isOver = true) : turns = [] ∧ y = x := by
  cases all with
  | none => exact ⟨rfl, rfl⟩
  | next taken _ =>
      rw [taken.under_way] at ended
      contradiction

/-- If the admission is over in the end, the last turn has ended it; after the others it waits. -/
theorem ended (all : Turns x turns y) (fresh : x.isOver = false) {o : Outcome}
    (ended : y.outcome? = some o) :
    ∃ early last rest, turns = early ++ [last] ∧ last.after = y ∧
      last.Taken (.finished o rest y.trail) ∧ ∀ t ∈ early, ∃ c w, t.Taken (.waiting c w) := by
  induction all with
  | none =>
      rw [Admission.isOver_of_outcome? ended] at fresh
      contradiction
  | @next t p rest y taken later ih =>
      cases p with
      | waiting c w =>
          have waits : t.after.isOver = false := by
            rw [taken.after]
            rfl
          obtain ⟨early, last, peer, rfl, final, ending, before⟩ := ih waits ended
          refine ⟨t :: early, last, peer, rfl, final, ending, ?_⟩
          intro t' member
          rcases List.mem_cons.mp member with rfl | earlier
          · exact ⟨c, w, taken⟩
          · exact before t' earlier
      | finished o' peer trail =>
          obtain ⟨rfl, rfl⟩ := later.of_isOver (by rw [taken.after]; rfl)
          have same : o' = o ∧ t.after.trail = trail := by
            rw [taken.after] at ended ⊢
            cases ended
            exact ⟨rfl, rfl⟩
          obtain ⟨rfl, trail⟩ := same
          exact ⟨[], t, peer, rfl, rfl, trail ▸ taken, fun _ member => nomatch member⟩

end Turns

namespace Course

theorem turns_run (c : Course) (steps : List (Instant × CourseStep)) :
    Turns c.admission (c.run steps).1 (c.run steps).2.admission := by
  induction steps generalizing c with
  | nil => exact .none _
  | cons s rest ih =>
      obtain ⟨now, s⟩ := s
      rw [run_cons]
      have later := ih (c.step now s).2
      cases s with
      | other h => exact later
      | turn stop =>
          cases ended : c.admission.isOver with
          | true =>
              simp only [step, ended, if_true] at later ⊢
              exact later
          | false =>
              simp only [step, ended, Bool.false_eq_true, if_false] at later ⊢
              obtain ⟨p, after, path⟩ := c.admission.proceed_follows c.others.gate now stop
              exact .next (t := ⟨now, c.admission, _, c.others.gate, _⟩) ⟨ended, after, stop, path⟩
                later

end Course

/-- What is preserved, whatever the time, holds of every gate that a turn finds and of where the
turn takes the admission up, and again when the turn is over. -/
theorem Preserved.turns {G : Gate → Prop} {P : Point → Prop}
    (preserved : Preserved (fun _ g => G g) fun _ _ p => P p) {c : Course}
    (opened : c.others.Open) (others : At (fun _ g => G g) (fun _ _ p => P p) 0 c.others)
    (own : c.admission.isOver = false → P c.admission.outset)
    (steps : List (Instant × CourseStep)) :
    ∀ t ∈ (c.run steps).1,
      (G t.found ∧ P t.before.outset) ∧ G t.left ∧ P t.after.outset := by
  -- The admission is not one of those that the service keeps, so what holds of it goes beside.
  induction steps generalizing c with
  | nil => exact fun _ member => nomatch member
  | cons s rest ih =>
      obtain ⟨now, s⟩ := s
      rw [Course.run_cons]
      cases s with
      | other h =>
          have stepped := Service.step_cases opened now h
          have before : At (fun _ g => G g) (fun _ _ p => P p) now c.others :=
            ⟨others.gate, others.points⟩
          obtain ⟨gate, points⟩ := (preserved.step stepped before).1
          exact ih (c := { c with others := (c.others.step now h).2 }) (stepped.opened opened)
            ⟨gate, points⟩ own
      | turn stop =>
          cases ended : c.admission.isOver with
          | true =>
              simp only [Course.step, ended, if_true]
              exact ih opened others own
          | false =>
              simp only [Course.step, ended, Bool.false_eq_true, if_false]
              obtain ⟨p, after, path⟩ := c.admission.proceed_follows c.others.gate now stop
              obtain ⟨left, rests⟩ := preserved.path path others.gate (own ended)
              have taken_up : P (c.admission.proceed c.others.gate now stop).1.outset := by
                rw [after]
                cases p with
                | waiting => exact @resumed _ _ preserved now c.others.gate _ _ rests now c.others.gate
                | finished => exact rests
              intro t member
              rcases List.mem_append.mp member with here | later
              · cases List.mem_singleton.mp here
                exact ⟨⟨others.gate, own ended⟩, left, taken_up⟩
              · exact ih (c := ⟨(c.admission.proceed c.others.gate now stop).1,
                    { c.others with gate := (c.admission.proceed c.others.gate now stop).2 }⟩)
                  opened ⟨left, others.points⟩ (fun _ => taken_up) t later

end AdmissionGate
