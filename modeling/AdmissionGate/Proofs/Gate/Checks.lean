import AdmissionGate.Proofs.Gate.Service
import AdmissionGate.Proofs.Limiter.Blocks

/-!
The checks that an admission has made. Every verdict on its trail is what the limiter answers on
the gate as one of the steps has found it, each step with one check at most. Between the start of
a turn and its check only the record of the connection is made, and a block that has ended is
taken off the list; neither makes a difference to what the limiter answers.
-/

namespace AdmissionGate

variable {a : Address} {now : Instant}

theorem Blocklist.settle_settle (b : Blocklist) (a : Address) (now : Instant) :
    (b.settle a now).settle a now = b.settle a now := by
  cases listed : b.entries.get? a with
  | none => simp only [settle, listed]
  | some e =>
      by_cases expired : e.isExpired now = true
      · have erased : (b.entries.erase a).get? a = none :=
          (AddressMap.get?_erase ..).trans (if_pos rfl)
        simp only [settle, listed, expired, if_true, erased]
      · simp only [settle, listed, expired, Bool.false_eq_true, if_false]

theorem Limiter.check_settle (l : Limiter) (b : Blocklist) (a : Address) (now : Instant) :
    (l.check (b.settle a now) a now).answer = (l.check b a now).answer := by
  have same := (Blocklist.Lapse.settle b a now).status?_eq a
  simp only [check, same, Blocklist.settle_settle]
  split
  · rfl
  · split <;> rfl

def StageResult.verdict? : StageResult → Option Verdict
  | check v => some v
  | _ => none

def StageResult.verdicts (trail : List StageResult) : List Verdict := trail.filterMap verdict?

theorem StageResult.verdicts_append (first second : List StageResult) :
    verdicts (first ++ second) = verdicts first ++ verdicts second :=
  List.filterMap_append ..

open StageResult (verdicts verdicts_append)

/-- The verdicts on a trail are answers about the address, on some of the gates that steps have
found, in their order. -/
def Looked (found : List (Instant × Gate)) (a : Address) (trail : List StageResult) : Prop :=
  ∃ looks : List (Instant × Gate), looks.Sublist found ∧
    verdicts trail = looks.map fun p => (p.2.limiter.check p.2.blocklist a p.1).answer

namespace Looked

variable {past : List (Instant × Gate)} {trail : List StageResult}

theorem none (past : List (Instant × Gate)) (a : Address)
    (result : Except GateError ConnectionKey) : Looked past a [.registration result] :=
  ⟨[], List.nil_sublist _, rfl⟩

theorem later (before : Looked past a trail) (step : Instant × Gate) :
    Looked (past ++ [step]) a trail := by
  obtain ⟨looks, among, verdicts⟩ := before
  exact ⟨looks, among.trans (List.sublist_append_left ..), verdicts⟩

theorem passed (before : Looked past a trail) {s : StageResult} (other : s.verdict? = Option.none) :
    Looked past a (trail ++ [s]) := by
  obtain ⟨looks, among, verdicts⟩ := before
  refine ⟨looks, among, ?_⟩
  rw [verdicts_append, verdicts]
  simp [StageResult.verdicts, other]

theorem checked (before : Looked past a trail) {g : Gate} {v : Verdict}
    (answer : (g.limiter.check g.blocklist a now).answer = v) :
    Looked (past ++ [(now, g)]) a (trail ++ [.check v]) := by
  obtain ⟨looks, among, verdicts⟩ := before
  refine ⟨looks ++ [(now, g)], among.append (.refl _), ?_⟩
  rw [verdicts_append, verdicts, List.map_append]
  simp [StageResult.verdicts, StageResult.verdict?, answer]

end Looked

/-- A gate on the way of a turn that has found `g₀`, as long as the limiter was not asked. -/
structure Gate.Unasked (g₀ g : Gate) (a : Address) (now : Instant) : Prop where
  limiter : g.limiter = g₀.limiter
  blocklist : g.blocklist.settle a now = g₀.blocklist.settle a now

theorem Gate.Unasked.answer {g₀ g g' : Gate} (unasked : g₀.Unasked g a now) {v : Verdict}
    (answer : g.check a now = (v, g')) : (g₀.limiter.check g₀.blocklist a now).answer = v := by
  have found : (g.limiter.check g.blocklist a now).answer = v := congrArg Prod.fst answer
  rw [← Limiter.check_settle, unasked.limiter, unasked.blocklist, Limiter.check_settle] at found
  exact found

def Point.Looked (past : List (Instant × Gate)) (g₀ : Gate) (now : Instant) (g : Gate) :
    Point → Prop
  | .arriving .. => g = g₀
  | .considering c => AdmissionGate.Looked past c.address c.trail ∧ g₀.Unasked g c.address now
  | .delayed c ends =>
      AdmissionGate.Looked (past ++ [(now, g₀)]) c.address c.trail ∧
        (ends ≤ now → AdmissionGate.Looked past c.address c.trail ∧ g₀.Unasked g c.address now)
  | .greeting c _ | .greeted c _ | .asking c _ | .awaiting c _ | .concluding c _ _ | .judged c _ _
  | .unjudged c _ _ | .rejecting c _ _ _ _ | .cancelling c | .accepting c _ _
  | .resting (.waiting c _) => AdmissionGate.Looked (past ++ [(now, g₀)]) c.address c.trail
  | .resting (.finished o _ trail) =>
      ∃ a, AdmissionGate.Looked (past ++ [(now, g₀)]) a trail ∧
        ∀ r, o = .rejected r → r.address = a

open Gate in
theorem Leads.looked {stop : Bool} {g g' : Gate} {p p' : Point} (edge : Leads now stop g p g' p')
    {past : List (Instant × Gate)} {g₀ : Gate} (before : p.Looked past g₀ now g) :
    p'.Looked past g₀ now g' := by
  cases edge with
  | @registered _ a _ key free =>
      obtain rfl : g = g₀ := before
      obtain ⟨rfl, -⟩ := Registry.register_ok (registry_of_register _ _ free)
      obtain rfl : (g.register a now).2 = g' := congrArg Prod.snd free
      exact ⟨.none .., rfl, Blocklist.settle_settle ..⟩
  | refused no =>
      simp only [refuse_eq]
      exact ⟨_, .none .., fun r same => by cases same; rfl⟩
  | allowed v | blocked v | exhausted v _ => exact before.1.checked (before.2.answer v)
  | @throttled _ _ reason retryAfter v within =>
      refine ⟨before.1.checked (before.2.answer v), fun elapsed => ?_⟩
      have some_time : 0 < max retryAfter leastDelay :=
        Nat.lt_of_lt_of_le (by decide) (Nat.le_max_right retryAfter leastDelay)
      exact absurd elapsed (Nat.not_le.mpr (Nat.lt_add_of_pos_right some_time))
  | delayOver untold there elapsed => exact before.2 elapsed
  | delayStopped | delayLeft | delayLasts => exact before.1
  | welcomed | disconnected | malformed | asked => exact before.passed rfl
  | rejected => exact ⟨_, before, fun r same => by cases same; rfl⟩
  | cancelled | accepted => exact ⟨_, before, fun r same => nomatch same⟩
  | _ => exact before

def Admission.Looked (past : List (Instant × Gate)) (x : Admission) : Prop :=
  ∀ c w, x.progress = some (.waiting c w) → AdmissionGate.Looked past c.address c.trail

theorem Admission.Looked.outset {x : Admission} {past : List (Instant × Gate)}
    (before : x.Looked past) (under_way : x.isOver = false) (g : Gate) (now : Instant) :
    x.outset.Looked past g now g := by
  obtain ⟨a, peer, progress⟩ := x
  match progress with
  | none => exact rfl
  | some (.waiting c w) =>
      have looked := before c w rfl
      cases w with
      | delay ends => exact ⟨looked.later _, fun _ => ⟨looked, rfl, rfl⟩⟩
      | greeting | opinion => exact looked.later _
  | some (.finished ..) => contradiction

theorem Path.looked {stop : Bool} {g g' : Gate} {p' : Point} {x : Admission}
    {past : List (Instant × Gate)} (path : Path now stop g x.outset g' p')
    (before : x.Looked past) (under_way : x.isOver = false) : p'.Looked past g now g' :=
  path.preserves (I := fun g' p => p.Looked past g now g') (fun edge => edge.looked)
    (before.outset under_way g now)

def Ending.Looked (found : List (Instant × Gate)) (e : Ending) : Prop :=
  ∃ a, AdmissionGate.Looked found a e.trail ∧ ∀ r, e.outcome = .rejected r → r.address = a

namespace Service

/-- The gate as each step of a run finds it. -/
def found (v : Service) : List (Instant × Happening) → List (Instant × Gate)
  | [] => []
  | (now, h) :: rest => (now, v.gate) :: found (v.step now h).2 rest

theorem Stepped.looked {v : Service} {h : Happening} {r : Option Ending × Service}
    (stepped : v.Stepped now h r) {past : List (Instant × Gate)}
    (before : ∀ x ∈ v.admissions, x.Looked past) :
    (∀ e ∈ r.1, e.Looked (past ++ [(now, v.gate)])) ∧
      ∀ x ∈ r.2.admissions, x.Looked (past ++ [(now, v.gate)]) := by
  have later {x : Admission} (looked : x.Looked past) : x.Looked (past ++ [(now, v.gate)]) :=
    fun c w waits => (looked c w waits).later _
  have all {xs : List Admission} (among : ∀ x ∈ xs, x ∈ v.admissions) :
      ∀ x ∈ xs, x.Looked (past ++ [(now, v.gate)]) :=
    fun x member => later (before x (among x member))
  have others {l₁ l₂ : List Admission} {x : Admission} (here : v.admissions = l₁ ++ x :: l₂) :
      x ∈ v.admissions ∧ ∀ y ∈ l₁ ++ l₂, y ∈ v.admissions := by
    rw [here]
    exact ⟨List.mem_append_right _ (List.mem_cons_self ..), fun y other =>
      List.perm_middle.mem_iff.mpr (List.mem_cons_of_mem _ other)⟩
  cases stepped with
  | idle | drop | operation => exact ⟨fun _ same => (nomatch same), all fun _ => id⟩
  | arrival a peer =>
      refine ⟨fun _ same => (nomatch same), fun x member => ?_⟩
      rcases List.mem_append.mp member with old | new
      · exact later (before x old)
      · rw [List.mem_singleton.mp new]
        exact fun _ _ waits => nomatch waits
  | @turn _ _ _ _ _ _ c w here under_way path =>
      obtain ⟨own, rest⟩ := others here
      refine ⟨fun _ same => (nomatch same), fun y member => ?_⟩
      rcases List.mem_cons.mp (List.perm_middle.mem_iff.mp member) with rfl | other
      · intro c' w' waits
        cases waits
        exact path.looked (before _ own) under_way
      · exact later (before y (rest y other))
  | ending here under_way path =>
      obtain ⟨own, rest⟩ := others here
      refine ⟨fun e same => ?_, all rest⟩
      cases same
      exact path.looked (before _ own) under_way
  | abandonment here => exact ⟨fun _ same => (nomatch same), all (others here).2⟩

theorem looked_run {v : Service} (opened : v.Open) {past : List (Instant × Gate)}
    (before : ∀ x ∈ v.admissions, x.Looked past) (steps : List (Instant × Happening)) :
    ∀ e ∈ (v.run steps).1, e.Looked (past ++ v.found steps) := by
  induction steps generalizing v past with
  | nil => exact fun _ member => nomatch member
  | cons s rest ih =>
      obtain ⟨now, h⟩ := s
      have stepped := step_cases opened now h
      obtain ⟨ended, after⟩ := stepped.looked before
      have later := ih (stepped.opened opened) after
      rw [List.append_assoc] at later
      intro e member
      rcases List.mem_append.mp member with first | next
      · obtain ⟨a, ⟨looks, among, verdicts⟩, own⟩ := ended e (Option.mem_toList.mp first)
        refine ⟨a, ⟨looks, among.trans ?_, verdicts⟩, own⟩
        exact (List.Sublist.refl past).append (List.singleton_sublist.mpr (List.mem_cons_self ..))
      · exact later e next

end Service

end AdmissionGate
