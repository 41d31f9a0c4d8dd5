import AdmissionGate.Proofs.Gate.Horizon
import AdmissionGate.Proofs.Gate.Questions
import AdmissionGate.Proofs.Gate.Schedule

/-!
The turns of a run of visits. The clock goes on from round to round and never beyond what is due
next, whatever else is done to the gate between two rounds. So no visit is taken up after its
timer, and every outcome of a run is what some turn has come to.
-/

namespace AdmissionGate

namespace Visit

/-- What comes of a visit at an instant, if it is time to start it or to go on with it. -/
def turn? (now : Instant) (g : Gate) (v : Visit) : Option (Progress × Gate) :=
  match v.stage with
  | .coming peer => if v.start ≤ now then some (g.receive now v.address peer v.stop) else none
  | .waiting c w =>
      if v.stop || g.wakeAt c w ≤ now then some (g.resume now c w v.stop) else none
  | .over .. => none

theorem proceed_eq (now : Instant) (g : Gate) (v : Visit) :
    proceed now g v =
      match v.turn? now g with
      | some (p, left) => (left, v.advanced now p)
      | none => (g, v) := by
  obtain ⟨a, start, interruptions, stage, stop⟩ := v
  cases stage with
  | coming | waiting =>
      simp only [proceed, turn?]
      split <;> rfl
  | _ => rfl

variable {lost : ConnectionKey → Prop} {first now next horizon : Instant} {g₀ g : Gate}
  {vs₀ vs : List Visit}

/-- Where a run can be before the round of an instant. Between two rounds others may do to the gate
what they like, as long as they keep off the records of the visits that are under way and release
connections with the keys `lost` only. -/
inductive Underway (lost : ConnectionKey → Prop) (first : Instant) (g₀ : Gate)
    (vs₀ : List Visit) : Instant → Gate → List Visit → Prop
  | opened : Underway lost first g₀ vs₀ first g₀ vs₀
  | round {now next : Instant} {g : Gate} {vs : List Visit}
      (before : Underway lost first g₀ vs₀ now g vs) (later : now ≤ next)
      (soonest : ∀ t, earliest? (round now g vs).1 (round now g vs).2 = some t → next ≤ t) :
      Underway lost first g₀ vs₀ next (round now g vs).1 (round now g vs).2
  | operation {now : Instant} {g : Gate} {vs : List Visit}
      (before : Underway lost first g₀ vs₀ now g vs) (o : Operation)
      (own : ∀ v ∈ vs, ∀ c w, v.stage = .waiting c w → o.writes? ≠ some c.key)
      (releases : ∀ k, o.releases? = some k → lost k) :
      Underway lost first g₀ vs₀ now (g.perform now o) vs

/-- At the instant `now` of a run the visit `v` has a turn, which finds the gate `found`, comes to
`p` and leaves the gate `left`. -/
def Turned (lost : ConnectionKey → Prop) (first : Instant) (g₀ : Gate) (vs₀ : List Visit)
    (now : Instant) (found : Gate) (v : Visit) (p : Progress) (left : Gate) : Prop :=
  ∃ g vs before after, Underway lost first g₀ vs₀ now g vs ∧
    (interrupted now g vs).2 = before ++ v :: after ∧
    (each (proceed now) (interrupted now g vs).1 before).1 = found ∧
    v.turn? now found = some (p, left)

/-- The rounds of a run lead from one such state to the next. -/
theorem Underway.exists_run (begun : Underway lost first g₀ vs₀ now g vs) (horizon : Instant) :
    ∃ g' vs', Underway lost first g₀ vs₀ (run horizon now g vs).2.2 g' vs' ∧
      (Visit.round (run horizon now g vs).2.2 g' vs').1 = (run horizon now g vs).1 ∧
      (Visit.round (run horizon now g vs).2.2 g' vs').2 = (run horizon now g vs).2.1 := by
  induction now, g, vs using run.induct horizon with
  | case1 now g vs g' vs' all none =>
      rw [Visit.run, all]
      simp only [none]
      exact ⟨g, vs, begun, by rw [all], by rw [all]⟩
  | case2 now g vs g' vs' all t soonest within ih =>
      rw [Visit.run, all]
      simp only [soonest, within, and_self, dite_true]
      have soon (t' : Instant)
          (found : earliest? (Visit.round now g vs).1 (Visit.round now g vs).2 = some t') :
          t ≤ t' := by
        rw [all, soonest] at found
        cases found
        exact Nat.le_refl t
      have going := begun.round (Nat.le_of_lt within.1) soon
      rw [all] at going
      exact ih going
  | case3 now g vs g' vs' all t soonest without =>
      rw [Visit.run, all]
      simp only [soonest, without, dite_false]
      exact ⟨g, vs, begun, by rw [all], by rw [all]⟩

theorem Underway.onTime (begun : Underway lost first g₀ vs₀ now g vs)
    (coming : ∀ v ∈ vs₀, ∃ peer, v.stage = .coming peer) :
    g.settings = g₀.settings ∧ ∀ v ∈ vs, v.OnTime g₀.settings first now := by
  induction begun with
  | opened =>
      refine ⟨rfl, fun v member => ?_⟩
      obtain ⟨peer, stage⟩ := coming v member
      simp only [OnTime, stage]
      exact Nat.le_max_left ..
  | @round now next g vs before later soonest ih =>
      obtain ⟨settings, -, after⟩ := round_keeps ih.1 ih.2
      exact ⟨settings, due_onTime settings after soonest⟩
  | operation _ o _ _ ih => exact ⟨(Gate.settings_perform ..).trans ih.1, ih.2⟩

theorem interrupt_detector (now : Instant) (g : Gate) (v : Visit) (i : Interruption) :
    (interrupt now g v i).1.detector = g.detector := by
  cases i with
  | abandon =>
      simp only [interrupt]
      split <;> rfl
  | cancel => rfl
  | release k => exact g.detector_perform now (.release k)
  | block a length => exact g.detector_perform now (.block a .manualBlock length)
  | unblock a => exact g.detector_perform now (.unblock a)
  | penalize a amount => exact g.detector_perform now (.penalize a amount)

theorem interruptDue_detector (now : Instant) (g : Gate) (v : Visit)
    (due : List (Instant × Interruption)) : (interruptDue now g v due).1.detector = g.detector := by
  induction due generalizing g v with
  | nil => rfl
  | cons i rest ih =>
      simp only [interruptDue]
      split
      · exact (ih ..).trans (interrupt_detector ..)
      · rfl

theorem proceed_detector (now : Instant) (g : Gate) (v : Visit) :
    (proceed now g v).1.detector = g.detector := by
  simp only [proceed]
  split
  · split
    · exact (g.receive_follows ..).detector
    · rfl
  · split
    · exact (g.resume_follows ..).detector
    · rfl
  · rfl

theorem each_detector {f : Gate → Visit → Gate × Visit}
    (keeps : ∀ g v, (f g v).1.detector = g.detector) (g : Gate) (vs : List Visit) :
    (each f g vs).1.detector = g.detector := by
  induction vs generalizing g with
  | nil => rfl
  | cons v rest ih => exact (ih _).trans (keeps g v)

theorem interrupted_detector (now : Instant) (g : Gate) (vs : List Visit) :
    (interrupted now g vs).1.detector = g.detector :=
  each_detector (fun g v => interruptDue_detector now g v _) g vs

theorem Underway.detector (begun : Underway lost first g₀ vs₀ now g vs) :
    g.detector = g₀.detector := by
  induction begun with
  | opened => rfl
  | round before _ _ ih =>
      exact (each_detector (proceed_detector _) ..).trans ((interrupted_detector ..).trans ih)
  | operation _ o _ _ ih => exact (Gate.detector_perform ..).trans ih

/-- The gate and the visits of a run are as reachable traffic leaves them. -/
theorem Underway.play (begun : Underway lost first g₀ vs₀ now g vs)
    (numbered : g₀.registry.Numbered) (coming : ∀ v ∈ vs₀, ∃ peer, v.stage = .coming peer)
    (spares : ∀ v ∈ vs₀, v.Spares lost) : Play lost now g vs := by
  induction begun with
  | opened => exact play_coming numbered first coming spares
  | round _ later _ ih => exact ih.round.later later
  | operation _ o own releases ih => exact ih.operation own releases

namespace Turned

variable {found left : Gate} {v : Visit} {p : Progress}

/-- No visit has its turn after its timer. -/
theorem onTime (turned : Turned lost first g₀ vs₀ now found v p left)
    (coming : ∀ v ∈ vs₀, ∃ peer, v.stage = .coming peer) :
    found.settings = g₀.settings ∧ v.OnTime g₀.settings first now := by
  obtain ⟨g, vs, before, after, underway, parts, rfl, -⟩ := turned
  obtain ⟨settings, onTime⟩ := underway.onTime coming
  obtain ⟨settings, -, onTime⟩ := interrupted_keeps settings onTime
  rw [parts] at onTime
  obtain ⟨earlier, others⟩ := List.forall_mem_append.mp onTime
  exact ⟨(each_proceed_keeps settings earlier).1, (others v (List.mem_cons_self ..)).1⟩

theorem detector (turned : Turned lost first g₀ vs₀ now found v p left) :
    found.detector = g₀.detector := by
  obtain ⟨g, vs, before, after, underway, -, rfl, -⟩ := turned
  exact (each_detector (proceed_detector now) ..).trans
    ((interrupted_detector now g vs).trans underway.detector)

/-- A turn of a run is a turn of an admission in reachable traffic. -/
theorem traffic (turned : Turned lost first g₀ vs₀ now found v p left)
    (numbered : g₀.registry.Numbered) (coming : ∀ v ∈ vs₀, ∃ peer, v.stage = .coming peer)
    (spares : ∀ v ∈ vs₀, v.Spares lost) :
    ∃ (t : Traffic) (x : Admission), t.Reachable ∧ t.gate = found ∧ x ∈ t.admissions ∧
      (∀ k ∈ t.released, lost k) ∧ v.Shows (some x) ∧ x.isOver = false ∧
      x.proceed found now v.stop = ({ x with progress := some p }, left) := by
  obtain ⟨g, vs, before, after, underway, parts, rfl, turn⟩ := turned
  have play := (underway.play numbered coming spares).each (treats_interruptDue lost now)
  change Play lost now (Visit.interrupted now g vs).1 (Visit.interrupted now g vs).2 at play
  rw [parts] at play
  obtain ⟨here, xs, ys, shows, -, t, reachable, -, same, admissions, released⟩ :=
    play.meets (treats_proceed lost now)
  have present {x : Admission} (there : here = some x) : x ∈ t.admissions := by
    rw [admissions, there]
    exact List.mem_append_right _ (List.mem_cons_self ..)
  simp only [turn?] at turn
  split at turn
  · rename_i peer stage
    split at turn
    · cases shows.coming stage
      refine ⟨t, _, reachable, same, present rfl, released, shows, rfl, ?_⟩
      simp only [Admission.proceed, Option.some.inj turn]
    · cases turn
  · rename_i c w stage
    split at turn
    · obtain ⟨peer, rfl⟩ := shows.waiting stage
      refine ⟨t, _, reachable, same, present rfl, released, shows, rfl, ?_⟩
      simp only [Admission.proceed, Option.some.inj turn]
    · cases turn
  · cases turn

end Turned

theorem interruptDue_outcome {v : Visit} {ended : Instant} {o : Outcome}
    {due : List (Instant × Interruption)}
    (finished : (interruptDue now g v due).2.stage = .over ended (some o)) :
    v.stage = .over ended (some o) := by
  induction due generalizing g v with
  | nil => exact finished
  | cons i rest ih =>
      simp only [interruptDue] at finished
      split at finished
      · have finished := ih finished
        revert finished
        cases i.2 with
        | abandon =>
            simp only [interrupt]
            split
            · intro same
              cases same
            · intro same
              cases same
            · exact id
        | _ => exact id
      · exact finished

theorem each_parts {f : Gate → Visit → Gate × Visit} {v' : Visit}
    (member : v' ∈ (each f g vs).2) :
    ∃ before v after, vs = before ++ v :: after ∧ v' = (f (each f g before).1 v).2 := by
  induction vs generalizing g with
  | nil => cases member
  | cons v rest ih =>
      rcases List.mem_cons.mp member with rfl | later
      · exact ⟨[], v, rest, rfl, rfl⟩
      · obtain ⟨before, w, after, rfl, same⟩ := ih later
        exact ⟨v :: before, w, after, rfl, same⟩

/-- Each outcome of these visits is what one of the turns of the run has come to. -/
def Told (lost : ConnectionKey → Prop) (first : Instant) (g₀ : Gate) (vs₀ vs : List Visit) : Prop :=
  ∀ v ∈ vs, ∀ ended o, v.stage = .over ended (some o) → ∃ found v' rest trail left,
    Turned lost first g₀ vs₀ ended found v' (.finished o rest trail) left

theorem Underway.told_round (underway : Underway lost first g₀ vs₀ now g vs)
    (told : Told lost first g₀ vs₀ vs) : Told lost first g₀ vs₀ (Visit.round now g vs).2 := by
  intro v' member ended o finished
  obtain ⟨before, v, after, parts, rfl⟩ := each_parts member
  rw [proceed_eq] at finished
  split at finished
  · rename_i p left turn
    cases p with
    | waiting c w => cases finished
    | finished o rest trail =>
        cases finished
        exact ⟨_, v, rest, trail, left, g, vs, before, after, underway, parts, rfl, turn⟩
  · -- The visit was over before, since an interruption brings no outcome.
    have among : v ∈ (interrupted now g vs).2 := by
      rw [interrupted, parts]
      exact List.mem_append_right _ (List.mem_cons_self ..)
    obtain ⟨before, v, after, rfl, rfl⟩ := each_parts among
    exact told v (List.mem_append_right _ (List.mem_cons_self ..)) ended o
      (interruptDue_outcome finished)

theorem Underway.told (underway : Underway lost first g₀ vs₀ now g vs)
    (coming : ∀ v ∈ vs₀, ∃ peer, v.stage = .coming peer) : Told lost first g₀ vs₀ vs := by
  induction underway with
  | opened =>
      intro v member ended o finished
      obtain ⟨peer, stage⟩ := coming v member
      cases stage.symm.trans finished
  | round before _ _ ih => exact before.told_round ih
  | operation _ _ _ _ ih => exact ih

theorem told_runAll (coming : ∀ v ∈ vs₀, ∃ peer, v.stage = .coming peer) :
    Told lost first g₀ vs₀ (runAll first g₀ vs₀).2.1 := by
  rw [runAll]
  generalize (vs₀.map (·.start)).foldl max first + longestStay g₀.settings = horizon
  have begun : Underway lost first g₀ vs₀ first g₀ vs₀ := .opened
  obtain ⟨g, vs, last, -, ends⟩ := begun.exists_run horizon
  rw [← ends]
  exact last.told_round (last.told coming)

end Visit

end AdmissionGate
