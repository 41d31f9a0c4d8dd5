import AdmissionGate.Proofs.Gate.Soundness

/-!
A gate in service: admissions beside each other, and what comes of them. A run is a list of
happenings at instants, in any order, and it tells how admissions end, one after the other.
What every edge preserves, and everything else that is done to the gate, holds after every run.
-/

namespace AdmissionGate

structure Ending where
  outcome : Outcome
  trail : List StageResult

def Outcome.key? : Outcome → Option ConnectionKey
  | accepted c => some c.key
  | _ => none

structure Service where
  gate : Gate
  /-- Those that are not over. -/
  admissions : List Admission := []
  /-- Keys of accepted connections whose leases are held. -/
  leases : List ConnectionKey := []

inductive Happening where
  | arrival (a : Address) (peer : Peer)
  /-- An admission begins or is taken up again; `stop` tells it to go away. -/
  | turn (index : Nat) (stop : Bool)
  | abandonment (index : Nat)
  | drop (k : ConnectionKey)
  | operation (o : Operation)

namespace Service

def step (v : Service) (now : Instant) : Happening → Option Ending × Service
  | .arrival a peer => (none, { v with admissions := v.admissions ++ [{ address := a, peer }] })
  | .turn i stop =>
      match v.admissions[i]? with
      | none => (none, v)
      | some x =>
          let (y, gate) := x.proceed v.gate now stop
          match y.progress with
          | some (.finished o _ trail) =>
              (some ⟨o, trail⟩,
                { gate
                  admissions := v.admissions.eraseIdx i
                  leases := o.key?.toList ++ v.leases })
          | _ => (none, { v with gate, admissions := v.admissions.set i y })
  | .abandonment i =>
      match v.admissions[i]? with
      | none => (none, v)
      | some x =>
          (none, { v with gate := x.abandoned v.gate now, admissions := v.admissions.eraseIdx i })
  | .drop k =>
      if k ∈ v.leases then
        (none, { v with gate := v.gate.release k now, leases := v.leases.erase k })
      else (none, v)
  | .operation o => (none, { v with gate := v.gate.perform now o })

/-- Lets things happen in their order, and tells which admissions ended. -/
def run (v : Service) : List (Instant × Happening) → List Ending × Service
  | [] => ([], v)
  | (now, h) :: rest =>
      let (ending, v) := v.step now h
      let (endings, v) := v.run rest
      (ending.toList ++ endings, v)

theorem run_cons (v : Service) (now : Instant) (h : Happening)
    (rest : List (Instant × Happening)) :
    v.run ((now, h) :: rest) =
      ((v.step now h).1.toList ++ ((v.step now h).2.run rest).1, ((v.step now h).2.run rest).2) :=
  rfl

end Service

/-- The length of the block that a refusal goes with, and the gate after it was found out. -/
def Gate.refusal (g : Gate) (now : Instant) : GateError → Option Duration × Gate
  | .blocked a _ => ((g.lookUp a now).1.bind (·.remaining), (g.lookUp a now).2)
  | .connectionLimit a _ _ => g.penalize a .connectionLimit now
  | .configuration _ | .internal _ => (none, g)

theorem Gate.refuse_eq (g : Gate) (now : Instant) (a : Address) (peer : Peer) (e : GateError) :
    let r : Rejection := ⟨a, none, e.reason, .new, (g.refusal now e).1⟩
    g.refuse now a peer e =
      (.finished (.rejected r) peer [.registration (.error e)],
        ((g.refusal now e).2.note [.registrationRefused a e]).turnAway now r none none) := by
  cases e <;> rfl

namespace Admission

def outset (x : Admission) : Point :=
  match x.progress with
  | none => .arriving x.address x.peer
  | some (.waiting c w) => w.point c
  | some (.finished o rest trail) => .resting (.finished o rest trail)

/-- What holds of arrivals and wherever admissions are taken up holds of the point from which
one that is not over goes on. -/
theorem outset_of {x : Admission} (under_way : x.isOver = false) {P : Point → Prop}
    (arriving : ∀ a peer, P (.arriving a peer)) (taken_up : ∀ c (w : Wait), P (w.point c)) :
    P x.outset := by
  obtain ⟨a, peer, progress⟩ := x
  match progress with
  | none => exact arriving a peer
  | some (.waiting c w) => exact taken_up c w
  | some (.finished ..) => contradiction

theorem proceed_follows (x : Admission) (g : Gate) (now : Instant) (stop : Bool) :
    ∃ p, (x.proceed g now stop).1 = { x with progress := some p } ∧
      Path now stop g x.outset (x.proceed g now stop).2 (.resting p) := by
  obtain ⟨a, peer, progress⟩ := x
  match progress with
  | none => exact ⟨_, rfl, g.receive_follows now a peer stop⟩
  | some (.waiting c w) => exact ⟨_, rfl, g.resume_follows now c w stop⟩
  | some (.finished o rest trail) => exact ⟨_, rfl, .here⟩

end Admission

namespace Service

/-- No admission is over: those that end leave the service. -/
def Open (v : Service) : Prop := ∀ x ∈ v.admissions, x.isOver = false

inductive Stepped (v : Service) (now : Instant) : Happening → Option Ending × Service → Prop
  | idle {h : Happening} : Stepped v now h (none, v)
  | arrival (a : Address) (peer : Peer) :
      Stepped v now (.arrival a peer)
        (none, { v with admissions := v.admissions ++ [{ address := a, peer }] })
  | turn {i : Nat} {stop : Bool} {before after : List Admission} {x : Admission} {g' : Gate}
      {c : Candidate} {w : Wait} (here : v.admissions = before ++ x :: after)
      (under_way : x.isOver = false)
      (path : Path now stop v.gate x.outset g' (.resting (.waiting c w))) :
      Stepped v now (.turn i stop)
        (none,
          { v with
            gate := g'
            admissions := before ++ { x with progress := some (.waiting c w) } :: after })
  | ending {i : Nat} {stop : Bool} {before after : List Admission} {x : Admission} {g' : Gate}
      {o : Outcome} {rest : Peer} {trail : List StageResult}
      (here : v.admissions = before ++ x :: after) (under_way : x.isOver = false)
      (path : Path now stop v.gate x.outset g' (.resting (.finished o rest trail))) :
      Stepped v now (.turn i stop)
        (some ⟨o, trail⟩,
          { gate := g', admissions := before ++ after, leases := o.key?.toList ++ v.leases })
  | abandonment {i : Nat} {before after : List Admission} {x : Admission}
      (here : v.admissions = before ++ x :: after) :
      Stepped v now (.abandonment i)
        (none, { v with gate := x.abandoned v.gate now, admissions := before ++ after })
  | drop {k : ConnectionKey} (held : k ∈ v.leases) :
      Stepped v now (.drop k)
        (none, { v with gate := v.gate.release k now, leases := v.leases.erase k })
  | operation (o : Operation) :
      Stepped v now (.operation o) (none, { v with gate := v.gate.perform now o })

/-- An admission among those that are there, and what is done at its place. -/
theorem split_at {xs : List Admission} {i : Nat} {x : Admission} (found : xs[i]? = some x) :
    xs = xs.take i ++ x :: xs.drop (i + 1) ∧
      (∀ y, xs.set i y = xs.take i ++ y :: xs.drop (i + 1)) ∧
      xs.eraseIdx i = xs.take i ++ xs.drop (i + 1) := by
  obtain ⟨inside, same⟩ := List.getElem?_eq_some_iff.mp found
  refine ⟨?_, ?_, List.eraseIdx_eq_take_drop_succ ..⟩
  · rw [← same, ← List.drop_eq_getElem_cons inside, List.take_append_drop]
  · intro y
    exact List.set_eq_take_append_cons_drop.trans (if_pos inside)

theorem step_cases {v : Service} (opened : v.Open) (now : Instant) (h : Happening) :
    v.Stepped now h (v.step now h) := by
  cases h with
  | arrival a peer => exact .arrival a peer
  | operation o => exact .operation o
  | drop k =>
      simp only [step]
      split
      · rename_i held
        exact .drop held
      · exact .idle
  | abandonment i =>
      simp only [step]
      split
      · exact .idle
      · rename_i x found
        obtain ⟨here, -, erased⟩ := split_at found
        rw [erased]
        exact .abandonment here
  | turn i stop =>
      simp only [step]
      split
      · exact .idle
      rename_i x found
      obtain ⟨here, replaced, erased⟩ := split_at found
      have under_way := opened x (List.mem_of_getElem? found)
      obtain ⟨p, same, path⟩ := x.proceed_follows v.gate now stop
      rw [same]
      cases p with
      | waiting c w =>
          simp only [replaced]
          exact .turn here under_way path
      | finished o rest trail =>
          simp only [erased]
          exact .ending here under_way path

theorem Stepped.opened {v : Service} {now : Instant} {h : Happening} {r : Option Ending × Service}
    (stepped : v.Stepped now h r) (opened : v.Open) : r.2.Open := by
  cases stepped with
  | arrival a peer =>
      intro x member
      rcases List.mem_append.mp member with old | new
      · exact opened x old
      · rw [List.mem_singleton.mp new]
        rfl
  | turn here under_way path =>
      intro y member
      rcases List.mem_cons.mp (List.perm_middle.mem_iff.mp member) with rfl | other
      · rfl
      · exact opened y (here ▸ List.perm_middle.mem_iff.mpr (List.mem_cons_of_mem _ other))
  | ending here | abandonment here =>
      intro y other
      exact opened y (here ▸ List.perm_middle.mem_iff.mpr (List.mem_cons_of_mem _ other))
  | idle | drop | operation => exact opened

theorem open_of_gate (g : Gate) : Open { gate := g } := fun _ member => nomatch member

end Service

/-- A property of the gate and one of points that hold whatever happens. What holds where an
admission waits has to hold whenever it is taken up again. -/
structure Preserved (G : Instant → Gate → Prop) (P : Instant → Gate → Point → Prop) : Prop where
  later : ∀ {now next g}, now ≤ next → G now g → G next g
  arriving : ∀ now g a peer, P now g (.arriving a peer)
  edge : ∀ {now stop g p g' p'}, Leads now stop g p g' p' → G now g → P now g p →
    G now g' ∧ P now g' p'
  resumed : ∀ {now g c w}, P now g (.resting (.waiting c w)) → ∀ next g', P next g' (w.point c)
  perform : ∀ {now g}, G now g → ∀ o, G now (g.perform now o)

namespace Preserved

variable {G : Instant → Gate → Prop} {P : Instant → Gate → Point → Prop} {v : Service}
  {now last : Instant}

theorem path (preserved : Preserved G P) {stop : Bool} {g g' : Gate} {p p' : Point}
    (path : Path now stop g p g' p') (gate : G now g) (point : P now g p) :
    G now g' ∧ P now g' p' :=
  path.preserves (I := fun g p => G now g ∧ P now g p)
    (fun edge before => preserved.edge edge before.1 before.2) ⟨gate, point⟩

/-- What is known of a service: of its gate, and of each admission that is not over. -/
structure At (G : Instant → Gate → Prop) (P : Instant → Gate → Point → Prop) (now : Instant)
    (v : Service) : Prop where
  gate : G now v.gate
  points : ∀ x ∈ v.admissions, ∀ next g, P next g x.outset

def Ends (G : Instant → Gate → Prop) (P : Instant → Gate → Point → Prop) (e : Ending) : Prop :=
  ∃ now g rest, G now g ∧ P now g (.resting (.finished e.outcome rest e.trail))

theorem step (preserved : Preserved G P) {h : Happening} {r : Option Ending × Service}
    (stepped : v.Stepped now h r) (before : At G P now v) :
    At G P now r.2 ∧ ∀ e ∈ r.1, Ends G P e := by
  obtain ⟨gate, points⟩ := before
  have others {l₁ l₂ : List Admission} {x : Admission} (here : v.admissions = l₁ ++ x :: l₂) :
      (∀ next g, P next g x.outset) ∧ ∀ y ∈ l₁ ++ l₂, ∀ next g, P next g y.outset := by
    refine ⟨points x (here ▸ List.mem_append_right _ (List.mem_cons_self ..)), ?_⟩
    intro y other
    exact points y (here ▸ List.perm_middle.mem_iff.mpr (List.mem_cons_of_mem _ other))
  cases stepped with
  | idle => exact ⟨⟨gate, points⟩, fun _ same => nomatch same⟩
  | arrival a peer =>
      refine ⟨⟨gate, ?_⟩, fun _ same => nomatch same⟩
      intro x member next g
      rcases List.mem_append.mp member with old | new
      · exact points x old next g
      · rw [List.mem_singleton.mp new]
        exact preserved.arriving next g a peer
  | turn here under_way path =>
      obtain ⟨own, rest⟩ := others here
      obtain ⟨gate', waits⟩ := preserved.path path gate (own now v.gate)
      refine ⟨⟨gate', ?_⟩, fun _ same => nomatch same⟩
      intro y member
      rcases List.mem_cons.mp (List.perm_middle.mem_iff.mp member) with rfl | other
      · exact preserved.resumed waits
      · exact rest y other
  | ending here under_way path =>
      obtain ⟨own, rest⟩ := others here
      obtain ⟨gate', ended⟩ := preserved.path path gate (own now v.gate)
      refine ⟨⟨gate', rest⟩, ?_⟩
      intro e same
      cases same
      exact ⟨now, _, _, gate', ended⟩
  | @abandonment _ _ _ x here =>
      refine ⟨⟨?_, (others here).2⟩, fun _ same => nomatch same⟩
      simp only [Admission.abandoned]
      split
      · rename_i c w _
        exact preserved.perform gate (.release c.key)
      · exact gate
  | @drop k _ =>
      exact ⟨⟨preserved.perform gate (.release k), points⟩, fun _ same => nomatch same⟩
  | operation o => exact ⟨⟨preserved.perform gate o, points⟩, fun _ same => nomatch same⟩

/-- What is preserved holds after a run, and wherever an admission has ended in it. -/
theorem run (preserved : Preserved G P) (opened : v.Open) (before : At G P last v)
    {steps : List (Instant × Happening)}
    (ordered : (last :: steps.map (·.1)).Pairwise (· ≤ ·)) :
    (∀ now, last ≤ now → (∀ s ∈ steps, s.1 ≤ now) → At G P now (v.run steps).2) ∧
      ∀ e ∈ (v.run steps).1, Ends G P e := by
  induction steps generalizing v last with
  | nil =>
      refine ⟨fun now le _ => ⟨preserved.later le before.gate, before.points⟩, ?_⟩
      exact fun _ member => nomatch member
  | cons s rest ih =>
      obtain ⟨now, h⟩ := s
      rw [List.map_cons, List.pairwise_cons] at ordered
      have le : last ≤ now := ordered.1 now (List.mem_cons_self ..)
      have stepped := Service.step_cases opened now h
      obtain ⟨here, ended⟩ := preserved.step stepped ⟨preserved.later le before.gate, before.points⟩
      obtain ⟨after, endings⟩ := ih (stepped.opened opened) here ordered.2
      refine ⟨?_, ?_⟩
      · intro next _ past
        exact after next (past _ (List.mem_cons_self ..)) fun s member =>
          past s (List.mem_cons_of_mem _ member)
      · intro e member
        rcases List.mem_append.mp member with first | later
        · exact ended e (Option.mem_toList.mp first)
        · exact endings e later

end Preserved

namespace Service

theorem open_run {v : Service} (opened : v.Open) (steps : List (Instant × Happening)) :
    (v.run steps).2.Open := by
  induction steps generalizing v with
  | nil => exact opened
  | cons s rest ih => exact ih ((step_cases opened s.1 s.2).opened opened)

end Service

namespace Sample

/-- One connection fits into the window, and the first one too many is escalated. -/
def strictSettings : Settings where
  limiter := { maxEventsPerWindow := 1, escalationThreshold := 1 }

def strict : Gate where
  settings := strictSettings
  detector := .engine .allowAll
  registry := .ofSettings strictSettings.registry
  limiter := .ofSettings strictSettings
  blocklist := .ofSettings strictSettings.blocklist
  sink := .memory []
  journal := [.ready "allow_all" strictSettings.detection.failurePolicy]

theorem strict_opens :
    Gate.ofSettings strictSettings (some (.engine .allowAll)) (.memory []) none = .ok strict := by
  have valid : strictSettings.fault? = none := by decide +kernel
  simp only [Gate.ofSettings, Settings.validated, valid]
  rfl

/-- Of three connections the first is accepted, the second escalates, and the third finds the
block. The lease of the first is dropped in the end. -/
def flood : List (Instant × Happening) :=
  [(0, .arrival arrived.address arrived.peer), (0, .turn 0 false), (500, .turn 0 false),
    (600, .arrival arrived.address arrived.peer), (600, .turn 0 false),
    (700, .operation .sweep),
    (800, .arrival arrived.address arrived.peer), (800, .turn 0 false),
    (900, .drop ⟨arrived.address, 1⟩)]

end Sample

end AdmissionGate
