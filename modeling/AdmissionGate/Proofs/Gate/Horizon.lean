import AdmissionGate.Proofs.Gate.Deadlines

/-!
Visits on the clock that jumps from one instant to the next. After a round nothing is due any more
at its instant, and whatever is due next is due for a visit that can still end in time. So the
clock always moves on, it never gets to the horizon with a visit under way, and a run of visits
ends when all of them are over.
-/

namespace AdmissionGate

namespace Visit

variable {s : Settings} {first now next : Instant} {g g' : Gate} {v : Visit} {vs : List Visit}

def latestEnd (s : Settings) (first start : Instant) : Instant := max first start + longestStay s

/-- Where a visit may stand when its turn comes at an instant. -/
def OnTime (s : Settings) (first now : Instant) (v : Visit) : Prop :=
  match v.stage with
  | .coming _ => now ≤ max first v.start
  | .waiting c w => now ≤ w.timer ∧ w.InTime s (max first v.start) c
  | .over ended _ => ended ≤ latestEnd s first v.start

/-- Nothing is left to do for a visit at an instant, whatever is done to the gate then. -/
def Settled (s : Settings) (now : Instant) (v : Visit) : Prop :=
  match v.stage with
  | .coming _ => now < v.start
  | .waiting c w => ∀ g : Gate, g.settings = s → now < g.wakeAt c w
  | .over .. => True

def Quiet (now : Instant) (v : Visit) : Prop :=
  v.isOver = false → ∀ i ∈ v.interruptions.head?, now < i.1

theorem OnTime.le (onTime : v.OnTime s first now) (going : v.isOver = false) :
    now ≤ latestEnd s first v.start := by
  simp only [OnTime, isOver] at onTime going
  split at onTime
  · exact Nat.le_add_right_of_le onTime
  · exact Nat.le_trans onTime.1 onTime.2.timer_le
  · rename_i ended
    simp [ended] at going

/-- What is done to a visit keeps the settings of the gate and the times of the visit. -/
structure Keeps (s : Settings) (first now : Instant) (v : Visit) (r : Gate × Visit) : Prop where
  settings : r.1.settings = s
  start : r.2.start = v.start
  onTime : r.2.OnTime s first now

theorem interrupt_keeps (same : g.settings = s) (onTime : v.OnTime s first now)
    (going : v.isOver = false) (i : Interruption) :
    Keeps s first now v (interrupt now g v i) := by
  cases i with
  | cancel => exact ⟨same, rfl, onTime⟩
  | abandon =>
      simp only [interrupt]
      split
      · exact ⟨same, rfl, onTime.le going⟩
      · exact ⟨same, rfl, onTime.le going⟩
      · exact ⟨same, rfl, onTime⟩
  | release k => exact ⟨same, rfl, onTime⟩
  | block a length => exact ⟨same, rfl, onTime⟩
  | unblock a => exact ⟨(g.settings_perform now (.unblock a)).trans same, rfl, onTime⟩
  | penalize a amount => exact ⟨same, rfl, onTime⟩

theorem interruptDue_keeps (same : g.settings = s) (onTime : v.OnTime s first now)
    (due : List (Instant × Interruption)) :
    Keeps s first now v (interruptDue now g v due) ∧ (interruptDue now g v due).2.Quiet now := by
  induction due generalizing g v with
  | nil => exact ⟨⟨same, rfl, onTime⟩, fun _ _ => nofun⟩
  | cons i rest ih =>
      simp only [interruptDue]
      split
      · rename_i ready
        simp only [Bool.and_eq_true, Bool.not_eq_true'] at ready
        have done := interrupt_keeps same onTime ready.2 i.2
        obtain ⟨later, quiet⟩ := ih done.settings done.onTime
        exact ⟨⟨later.settings, later.start.trans done.start, later.onTime⟩, quiet⟩
      · rename_i early
        refine ⟨⟨same, rfl, onTime⟩, fun going j member => ?_⟩
        simp only [List.head?_cons, Option.mem_some_iff] at member
        subst member
        have going : v.isOver = false := going
        simpa [going] using early

theorem advanced_keeps {stop : Bool} {p : Point} {r : Progress × Gate}
    (follows : g.Follows now stop p r) (same : g.settings = s)
    (inTime : p.InTime s (max first v.start) now)
    (moving : ∀ c w, p ≠ .resting (.waiting c w)) :
    Keeps s first now v (r.2, v.advanced now r.1) ∧ (v.advanced now r.1).Settled s now := by
  have settings := follows.settings.trans same
  have kept := follows.inTime same inTime
  rcases r with ⟨p', g'⟩
  cases p' with
  | waiting c w =>
      refine ⟨⟨settings, rfl, kept⟩, fun g'' alike => ?_⟩
      exact (follows.rests rfl moving).2 g'' (alike.trans same.symm)
  | finished o rest trail => exact ⟨⟨settings, rfl, kept⟩, trivial⟩

theorem Quiet.advanced (quiet : v.Quiet now) (going : v.isOver = false) (p : Progress) :
    (v.advanced now p).Quiet now := by
  cases p with
  | waiting c w => exact fun _ => quiet going
  | finished o rest trail => exact nofun

theorem proceed_keeps (same : g.settings = s) (onTime : v.OnTime s first now)
    (quiet : v.Quiet now) :
    Keeps s first now v (proceed now g v) ∧ (proceed now g v).2.Settled s now ∧
      (proceed now g v).2.Quiet now := by
  obtain ⟨a, start, interruptions, stage, stop⟩ := v
  cases stage with
  | coming peer =>
      simp only [proceed]
      split
      · obtain ⟨kept, settled⟩ :=
          advanced_keeps (g.receive_follows now a peer stop) same onTime fun _ _ => nofun
        exact ⟨kept, settled, quiet.advanced rfl _⟩
      · rename_i early
        exact ⟨⟨same, rfl, onTime⟩, Nat.lt_of_not_le early, quiet⟩
  | waiting c w =>
      simp only [proceed]
      split
      · obtain ⟨kept, settled⟩ :=
          advanced_keeps (g.resume_follows now c w stop) same (onTime.2.point onTime.1)
            (by cases w <;> exact fun _ _ => nofun)
        exact ⟨kept, settled, quiet.advanced rfl _⟩
      · rename_i early
        simp only [Bool.or_eq_true, decide_eq_true_eq, not_or] at early
        refine ⟨⟨same, rfl, onTime⟩, fun g'' alike => ?_, quiet⟩
        rw [Gate.wakeAt_congr (alike.trans same.symm)]
        exact Nat.lt_of_not_le early.2
  | _ => exact ⟨⟨same, rfl, onTime⟩, trivial, quiet⟩

theorem each_keeps {f : Gate → Visit → Gate × Visit} {P Q : Visit → Prop}
    (treats : ∀ {g v}, g.settings = s → P v →
      (f g v).1.settings = s ∧ (f g v).2.start = v.start ∧ Q (f g v).2)
    (same : g.settings = s) (before : ∀ v ∈ vs, P v) :
    (each f g vs).1.settings = s ∧
      (each f g vs).2.map (·.start) = vs.map (·.start) ∧ ∀ v ∈ (each f g vs).2, Q v := by
  induction vs generalizing g with
  | nil => exact ⟨same, rfl, fun _ => nofun⟩
  | cons v rest ih =>
      obtain ⟨settings, start, after⟩ := treats same (before v (List.mem_cons_self ..))
      obtain ⟨settings, starts, others⟩ :=
        ih settings fun v member => before v (List.mem_cons_of_mem _ member)
      refine ⟨settings, ?_, fun v' member => ?_⟩
      · simp only [each, List.map_cons, start, starts]
      · rcases List.mem_cons.mp member with rfl | later
        · exact after
        · exact others v' later

/-- The gate and the visits after the interruptions of a round. -/
def interrupted (now : Instant) (g : Gate) (vs : List Visit) : Gate × List Visit :=
  each (fun g v => interruptDue now g v v.interruptions) g vs

theorem interrupted_keeps (same : g.settings = s) (onTime : ∀ v ∈ vs, v.OnTime s first now) :
    (interrupted now g vs).1.settings = s ∧
      (interrupted now g vs).2.map (·.start) = vs.map (·.start) ∧
      ∀ v ∈ (interrupted now g vs).2, v.OnTime s first now ∧ v.Quiet now :=
  each_keeps
    (fun same onTime => by
      obtain ⟨kept, quiet⟩ := interruptDue_keeps same onTime _
      exact ⟨kept.settings, kept.start, kept.onTime, quiet⟩) same onTime

theorem each_proceed_keeps (same : g.settings = s)
    (before : ∀ v ∈ vs, v.OnTime s first now ∧ v.Quiet now) :
    (each (proceed now) g vs).1.settings = s ∧
      (each (proceed now) g vs).2.map (·.start) = vs.map (·.start) ∧
      ∀ v ∈ (each (proceed now) g vs).2, v.OnTime s first now ∧ v.Settled s now ∧ v.Quiet now :=
  each_keeps
    (fun same before => by
      obtain ⟨kept, settled, quiet⟩ := proceed_keeps same before.1 before.2
      exact ⟨kept.settings, kept.start, kept.onTime, settled, quiet⟩) same before

/-- After a round nothing is left to do at its instant. -/
theorem round_keeps (same : g.settings = s) (onTime : ∀ v ∈ vs, v.OnTime s first now) :
    (round now g vs).1.settings = s ∧
      (round now g vs).2.map (·.start) = vs.map (·.start) ∧
      ∀ v ∈ (round now g vs).2, v.OnTime s first now ∧ v.Settled s now ∧ v.Quiet now := by
  obtain ⟨same, starts, onTime⟩ := interrupted_keeps same onTime
  obtain ⟨same, starts', after⟩ := each_proceed_keeps same onTime
  exact ⟨same, starts'.trans starts, after⟩

theorem nextDue?_interrupted {own : Instant}
    (due : nextDue? g { v with interruptions := [] } = some own) (later : now < own)
    (going : v.isOver = false) (quiet : v.Quiet now) :
    ∃ t, v.nextDue? g = some t ∧ now < t ∧ t ≤ own := by
  obtain ⟨a, start, interruptions, stage, stop⟩ := v
  cases interruptions with
  | nil => exact ⟨own, due, later, Nat.le_refl _⟩
  | cons i rest =>
      refine ⟨min own i.1, ?_, Nat.lt_min.mpr ⟨later, quiet going i rfl⟩, Nat.min_le_left ..⟩
      cases stage with
      | coming | waiting =>
          cases due
          rfl
      | _ => cases due

/-- What is due next for a visit is due later, and is not too late for it. -/
theorem nextDue?_cases (same : g.settings = s) (onTime : v.OnTime s first now)
    (settled : v.Settled s now) (quiet : v.Quiet now) :
    (v.nextDue? g = none ∧ v.isOver = true) ∨
      ∃ t, v.nextDue? g = some t ∧ now < t ∧ v.isOver = false ∧
        ∀ next ≤ t, v.OnTime s first next := by
  obtain ⟨a, start, interruptions, stage, stop⟩ := v
  cases stage with
  | coming peer =>
      obtain ⟨t, due, later, le⟩ := nextDue?_interrupted (g := g) rfl settled rfl quiet
      refine .inr ⟨t, due, later, rfl, fun next early => ?_⟩
      exact Nat.le_trans early (Nat.le_trans le (Nat.le_max_right ..))
  | waiting c w =>
      obtain ⟨t, due, later, le⟩ := nextDue?_interrupted rfl (settled g same) rfl quiet
      refine .inr ⟨t, due, later, rfl, fun next early => ⟨?_, onTime.2⟩⟩
      exact Nat.le_trans early (Nat.le_trans le (g.wakeAt_le_timer c w))
  | _ => exact .inl ⟨rfl, rfl⟩

theorem OnTime.ended (onTime : v.OnTime s first now) (finished : v.isOver = true) :
    ∃ ended o, v.stage = .over ended o ∧ ended ≤ latestEnd s first v.start := by
  obtain ⟨a, start, interruptions, stage, stop⟩ := v
  cases stage with
  | coming peer => cases finished
  | waiting c w => cases finished
  | _ ended o => exact ⟨ended, o, rfl, onTime⟩

theorem nothing_due (idle : earliest? g vs = none) : ∀ v ∈ vs, v.nextDue? g = none := by
  rw [earliest?, List.min?_eq_none_iff] at idle
  exact List.filterMap_eq_nil_iff.mp idle

theorem earliest?_attained (soonest : earliest? g vs = some next) :
    ∃ v ∈ vs, v.nextDue? g = some next :=
  List.mem_filterMap.mp (List.min?_mem soonest)

theorem earliest?_le {t : Instant} (member : v ∈ vs) (due : v.nextDue? g = some t) :
    ∃ next, earliest? g vs = some next ∧ next ≤ t := by
  have among : t ∈ vs.filterMap (nextDue? g) := List.mem_filterMap.mpr ⟨v, member, due⟩
  obtain ⟨next, soonest⟩ := Option.isSome_iff_exists.mp (List.isSome_min?_of_mem among)
  exact ⟨next, soonest, (List.min?_eq_some_iff.mp soonest).2 t among⟩

/-- Up to what is due next nothing is late. -/
theorem due_onTime (same : g.settings = s)
    (after : ∀ v ∈ vs, v.OnTime s first now ∧ v.Settled s now ∧ v.Quiet now)
    (early : ∀ t, earliest? g vs = some t → next ≤ t) : ∀ v ∈ vs, v.OnTime s first next := by
  intro v member
  obtain ⟨onTime, settled, quiet⟩ := after v member
  obtain ⟨-, finished⟩ | ⟨t, due, -, -, before⟩ := nextDue?_cases same onTime settled quiet
  · obtain ⟨ended, o, stage, timely⟩ := onTime.ended finished
    simpa only [OnTime, stage] using timely
  · obtain ⟨t', soonest, le⟩ := earliest?_le member due
    exact before next (Nat.le_trans (early t' soonest) le)

/-- No visit is under way beyond its latest end, and none stays under way for ever. -/
theorem run_over (horizon : Instant) (same : g.settings = s)
    (onTime : ∀ v ∈ vs, v.OnTime s first now)
    (bounded : ∀ start ∈ vs.map (·.start), latestEnd s first start ≤ horizon) :
    (run horizon now g vs).2.1.map (·.start) = vs.map (·.start) ∧
      ∀ v ∈ (run horizon now g vs).2.1,
        ∃ ended o, v.stage = .over ended o ∧ ended ≤ latestEnd s first v.start := by
  induction now, g, vs using run.induct horizon with
  | case1 now g vs g' vs' all idle =>
      obtain ⟨same, starts, after⟩ := round_keeps same onTime
      rw [Visit.run, all]
      simp only [all] at same starts after
      simp only [idle]
      refine ⟨starts, fun v member => ?_⟩
      obtain ⟨onTime, settled, quiet⟩ := after v member
      obtain ⟨-, finished⟩ | ⟨t, due, -⟩ := nextDue?_cases same onTime settled quiet
      · exact onTime.ended finished
      · exact nomatch (nothing_due idle v member).symm.trans due
  | case2 now g vs g' vs' all t soonest within ih =>
      obtain ⟨same, starts, after⟩ := round_keeps same onTime
      simp only [all] at same starts after
      have soon (t' : Instant) (found : earliest? g' vs' = some t') : t ≤ t' :=
        Nat.le_of_eq (Option.some.inj (soonest.symm.trans found))
      have onTime := due_onTime same after soon
      obtain ⟨starts', ended⟩ := ih same onTime (by rwa [starts])
      rw [Visit.run, all]
      simp only [soonest, within, and_self, dite_true]
      exact ⟨starts'.trans starts, ended⟩
  | case3 now g vs g' vs' all t soonest without =>
      obtain ⟨same, starts, after⟩ := round_keeps same onTime
      simp only [all] at same starts after
      obtain ⟨v, member, due⟩ := earliest?_attained soonest
      obtain ⟨onTime, settled, quiet⟩ := after v member
      obtain ⟨nothing, -⟩ | ⟨t', due', later, going, before⟩ :=
        nextDue?_cases same onTime settled quiet
      · exact nomatch nothing.symm.trans due
      -- A visit for which something is due is not late for it, so this is before the horizon.
      obtain rfl : t' = t := Option.some.inj (due'.symm.trans due)
      refine absurd ⟨later, Nat.le_trans ((before t' (Nat.le_refl t')).le going) ?_⟩ without
      exact bounded _ (starts ▸ List.mem_map_of_mem member)

theorem le_foldl_max (first : Instant) (starts : List Instant) :
    first ≤ starts.foldl max first ∧ ∀ start ∈ starts, start ≤ starts.foldl max first := by
  induction starts generalizing first with
  | nil => exact ⟨Nat.le_refl _, fun _ => nofun⟩
  | cons start rest ih =>
      obtain ⟨reached, others⟩ := ih (max first start)
      refine ⟨Nat.le_trans (Nat.le_max_left ..) reached, fun start' member => ?_⟩
      rcases List.mem_cons.mp member with rfl | later
      · exact Nat.le_trans (Nat.le_max_right ..) reached
      · exact others start' later

/-- However visits to one gate meet, all of them get to their end, and each in time. -/
theorem runAll_over (now : Instant) (g : Gate) (vs : List Visit)
    (new : ∀ v ∈ vs, ∃ peer, v.stage = .coming peer) :
    (runAll now g vs).2.1.map (·.start) = vs.map (·.start) ∧
      ∀ v ∈ (runAll now g vs).2.1, ∃ ended o, v.stage = .over ended o ∧
        ended ≤ max now v.start + longestStay g.settings := by
  obtain ⟨reached, others⟩ := le_foldl_max now (vs.map (·.start))
  refine run_over _ rfl (fun v member => ?_) fun start member => ?_
  · obtain ⟨peer, stage⟩ := new v member
    simp only [OnTime, stage]
    exact Nat.le_max_left ..
  · exact Nat.add_le_add_right (Nat.max_le.mpr ⟨reached, others start member⟩) _

end Visit

end AdmissionGate
