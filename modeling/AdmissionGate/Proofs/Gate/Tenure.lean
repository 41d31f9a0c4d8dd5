import AdmissionGate.Proofs.Gate.Accounts
import AdmissionGate.Proofs.Gate.Mishaps

/-!
How long a record is held. While others spare the connections that admissions and leases hold,
each of these has its record, in the state that goes with where its holder stands, and no sweep,
registration or release of another connection changes that. So an admission moves its record from
stage to stage as it goes, and never finds it missing.
-/

namespace AdmissionGate

namespace Service

/-- Others neither move nor release a connection that is held. -/
def spares (v : Service) : Happening → Bool
  | .operation (.move k _) | .operation (.release k) => k ∉ v.holders
  | _ => true

def sparesAll (v : Service) : List (Instant × Happening) → Bool
  | [] => true
  | (now, h) :: rest => v.spares h && (v.step now h).2.sparesAll rest

/-- Each connection is held once, and has the record that its holder takes for granted. -/
structure Tenure (v : Service) : Prop where
  numbered : v.gate.registry.Numbered
  distinct : v.holders.Nodup
  admissions : ∀ x ∈ v.admissions, x.outset.Kept v.gate ∧ x.outset.Noted v.gate.detector
  leases : ∀ k ∈ v.leases, v.gate.registry.state? k = some .admitted

end Service

/-- An admission is in order as long as its record is. -/
theorem Admission.kept_of_state? {x : Admission} (under_way : x.isOver = false) {g g' : Gate}
    (kept : x.outset.Kept g)
    (same : ∀ k, x.key? = some k → g'.registry.state? k = g.registry.state? k) :
    x.outset.Kept g' := by
  obtain ⟨a, peer, progress⟩ := x
  match progress with
  | none => trivial
  | some (.waiting c w) => cases w <;> exact (same c.key rfl).trans kept
  | some (.finished ..) => contradiction

open Registry in
theorem Gate.state?_perform (g : Gate) (numbered : g.registry.Numbered) (now : Instant)
    {o : Operation} {k : ConnectionKey} (issued : k.id < g.registry.nextId)
    (unmoved : ∀ s, o ≠ .move k s) (kept : o ≠ .release k) :
    (g.perform now o).registry.state? k = g.registry.state? k := by
  by_cases about : o.key? = some k
  · cases o with
    | update => exact state?_update ..
    | rate => exact state?_setReputation ..
    | move other s =>
        cases about
        exact absurd rfl (unmoved s)
    | release other =>
        cases about
        exact absurd rfl kept
    | _ => cases about
  · exact state?_of_record? ((g.perform_frame numbered now o).2.2 k issued about)

namespace Service

variable {v v' : Service}

theorem Tenure.live (tenure : v.Tenure) (opened : v.Open) {k : ConnectionKey}
    (held : k ∈ v.holders) : v.gate.registry.isLive k = true := by
  rcases List.mem_append.mp held with admission | lease
  · obtain ⟨x, member, key⟩ := List.mem_filterMap.mp admission
    rw [← Admission.held?_outset (opened x member)] at key
    exact (tenure.admissions x member).1.live key
  · exact Registry.isLive_of_state? (tenure.leases k lease)

theorem sublist_without {l₁ l₂ : List Admission} {x : Admission}
    (here : v.admissions = l₁ ++ x :: l₂) : (l₁ ++ l₂).Sublist v.admissions :=
  here ▸ (List.sublist_cons_self ..).append_left l₁

theorem holders_without {l₁ l₂ : List Admission} {x : Admission}
    (here : v.admissions = l₁ ++ x :: l₂) (g : Gate) :
    v.holders.Perm (x.key?.toList ++ holders ⟨g, l₁ ++ l₂, v.leases⟩) := by
  rw [holders, here]
  exact holders_perm l₁ l₂ x v.gate v.leases

/-- Fewer holders, whose records are as they were. -/
theorem Tenure.fewer (before : v.Tenure) (opened : v.Open)
    (admissions : v'.admissions.Sublist v.admissions) (leases : v'.leases.Sublist v.leases)
    (numbered : v'.gate.registry.Numbered) (detector : v'.gate.detector = v.gate.detector)
    (same : ∀ k ∈ v'.holders, v'.gate.registry.state? k = v.gate.registry.state? k) :
    v'.Tenure where
  numbered := numbered
  distinct := before.distinct.sublist ((admissions.filterMap _).append leases)
  admissions x member := by
    have there := admissions.subset member
    obtain ⟨kept, noted⟩ := before.admissions x there
    refine ⟨Admission.kept_of_state? (opened x there) kept ?_, detector ▸ noted⟩
    intro k key
    exact same k (List.mem_append_left _ (List.mem_filterMap.mpr ⟨x, member, key⟩))
  leases k member :=
    (same k (List.mem_append_right _ member)).trans (before.leases k (leases.subset member))

/-- The holder of a connection gives it up. -/
theorem Tenure.release (before : v.Tenure) (opened : v.Open) {k : ConnectionKey} {now : Instant}
    (admissions : v'.admissions.Sublist v.admissions) (leases : v'.leases.Sublist v.leases)
    (gate : v'.gate = v.gate.release k now) (others : v.holders.Perm (k :: v'.holders)) :
    v'.Tenure := by
  apply before.fewer opened admissions leases
  · rw [gate]
    exact before.numbered.release k now
  · rw [gate]
    rfl
  · intro other member
    have ne : other ≠ k := by
      rintro rfl
      exact (List.nodup_cons.mp (others.nodup_iff.mp before.distinct)).1 member
    rw [gate]
    exact (Registry.state?_release ..).trans (if_neg ne)

/-- The others, and the connection that is held at the end of a path, after one of the admissions
went along it. -/
theorem Tenure.along (before : v.Tenure) (opened : v.Open) {l₁ l₂ : List Admission} {x : Admission}
    (here : v.admissions = l₁ ++ x :: l₂) {now : Instant} {stop : Bool} {g' : Gate} {p : Point}
    (path : Path now stop v.gate x.outset g' p) :
    Tenure ⟨g', l₁ ++ l₂, v.leases⟩ ∧ p.InOrder g' ∧
      (p.held?.toList ++ holders ⟨g', l₁ ++ l₂, v.leases⟩).Nodup := by
  have member : x ∈ v.admissions := here ▸ List.mem_append_right _ (List.mem_cons_self ..)
  have own := Admission.held?_outset (opened x member)
  obtain ⟨kept, noted⟩ := before.admissions x member
  obtain ⟨after, smooth⟩ := path.inOrder ⟨before.numbered, kept, noted⟩
  have perm := holders_without here g'
  have apart := perm.nodup_iff.mp before.distinct
  have frame {k : ConnectionKey} (other : k ∈ holders ⟨g', l₁ ++ l₂, v.leases⟩) :
      g'.registry.state? k = v.gate.registry.state? k ∧ p.held? ≠ some k := by
    have live := before.live opened (perm.mem_iff.mpr (List.mem_append_right _ other))
    refine path.frame before.numbered (before.numbered.issued_of_isLive live) ?_
    rw [own]
    intro same
    rw [same] at apart
    exact (List.nodup_cons.mp apart).1 other
  have rest : Tenure ⟨g', l₁ ++ l₂, v.leases⟩ :=
    before.fewer opened (sublist_without here) (.refl _) after.numbered smooth.detector
      fun k other => (frame other).1
  refine ⟨rest, after, ?_⟩
  cases held : p.held? with
  | none => exact rest.distinct
  | some k => exact List.nodup_cons.mpr ⟨fun other => (frame other).2 held, rest.distinct⟩

theorem Stepped.tenure {now : Instant} {h : Happening} {r : Option Ending × Service}
    (stepped : v.Stepped now h r) (opened : v.Open) (spares : v.spares h = true)
    (before : v.Tenure) : r.2.Tenure := by
  cases stepped with
  | idle => exact before
  | arrival a peer =>
      refine ⟨before.numbered, ?_, ?_, before.leases⟩
      · simpa [holders, List.filterMap_append, Admission.key?] using before.distinct
      · intro x member
        rcases List.mem_append.mp member with old | new
        · exact before.admissions x old
        · rw [List.mem_singleton.mp new]
          exact ⟨trivial, trivial⟩
  | @turn _ _ l₁ l₂ x g' c w here under_way path =>
      obtain ⟨rest, after, distinct⟩ := before.along opened here path
      have waits := holders_perm l₁ l₂ { x with progress := some (.waiting c w) } g' v.leases
      refine ⟨after.numbered, waits.nodup_iff.mpr distinct, ?_, rest.leases⟩
      intro y member
      rcases List.mem_cons.mp (List.perm_middle.mem_iff.mp member) with rfl | other
      · exact ⟨by cases w <;> exact after.kept, by cases w <;> exact after.noted⟩
      · exact rest.admissions y other
  | @ending _ _ l₁ l₂ x g' o peer trail here under_way path =>
      obtain ⟨rest, after, distinct⟩ := before.along opened here path
      refine ⟨after.numbered, ?_, rest.admissions, ?_⟩
      · exact (List.perm_append_comm_assoc ..).nodup_iff.mpr distinct
      · intro k member
        rcases List.mem_append.mp member with new | old
        · cases o with
          | accepted c =>
              cases List.mem_singleton.mp new
              exact after.kept
          | rejected | cancelled => cases new
        · exact rest.leases k old
  | @abandonment _ l₁ l₂ x here =>
      have fewer := sublist_without here
      have perm := holders_without here v.gate
      obtain ⟨a, peer, progress⟩ := x
      rcases progress with _ | ⟨c, w⟩ | _
      · exact before.fewer opened fewer (.refl _) before.numbered rfl fun _ _ => rfl
      · exact before.release opened fewer (.refl _) rfl perm
      · exact before.fewer opened fewer (.refl _) before.numbered rfl fun _ _ => rfl
  | @drop k held =>
      refine before.release opened (.refl _) List.erase_sublist rfl ?_
      exact ((List.perm_cons_erase held).append_left _).trans List.perm_middle
  | operation o =>
      have numbered := (v.gate.perform_frame before.numbered now o).1
      refine before.fewer opened (.refl _) (.refl _) numbered (Gate.detector_perform ..) ?_
      intro k held
      have issued := before.numbered.issued_of_isLive (before.live opened held)
      apply v.gate.state?_perform before.numbered now issued
      · rintro s rfl
        exact of_decide_eq_true spares held
      · rintro rfl
        exact of_decide_eq_true spares held

theorem tenure_run (opened : v.Open) (before : v.Tenure) {steps : List (Instant × Happening)}
    (spared : v.sparesAll steps = true) : (v.run steps).2.Tenure := by
  induction steps generalizing v with
  | nil => exact before
  | cons s rest ih =>
      obtain ⟨now, h⟩ := s
      rw [sparesAll, Bool.and_eq_true] at spared
      have stepped := step_cases opened now h
      exact ih (stepped.opened opened) (stepped.tenure opened spared.1 before) spared.2

/-- Whatever is asked of a registry, the states of a record follow the way to admission. And in
the service of a gate whose held connections are spared, accepted connections are `admitted`,
those that wait are as far as their wait has them, no turn notes down a move that was not made or
a record that was missing, and at every point of the turn the connection is in order. -/
theorem progression_upheld :
    (∀ (s : RegistrySettings) (k : ConnectionKey) (steps : List (Instant × RegistryAction)),
      Registry.Progression ((Registry.ofSettings s).states k steps)) ∧
    ∀ (s : Settings) (detector : Option Detector) (sink : AuditSink)
      (blocklist : Option Blocklist) (g : Gate),
      Gate.ofSettings s detector sink blocklist = .ok g →
      ∀ steps : List (Instant × Happening), sparesAll { gate := g } steps = true →
        let v := (run { gate := g } steps).2
        (∀ k ∈ v.leases, v.gate.registry.state? k = some .admitted) ∧
        ∀ x ∈ v.admissions,
          (∀ c w, x.progress = some (.waiting c w) →
            v.gate.registry.state? c.key = some w.state) ∧
          ∀ now stop,
            v.gate.Smooth (x.proceed v.gate now stop).2 ∧
            ∀ g' p, Path now stop v.gate x.outset g' p → g'.Orderly p := by
  refine ⟨Registry.progression, ?_⟩
  intro s detector sink blocklist g opens steps spared v
  obtain ⟨-, -, registry, -⟩ := Gate.ofSettings_ok opens
  have fresh := open_of_gate g
  have numbered : g.registry.Numbered := registry ▸ Registry.numbered_ofSettings _
  have empty : Tenure { gate := g } :=
    ⟨numbered, .nil, fun _ member => (nomatch member), fun _ member => nomatch member⟩
  have tenure := tenure_run fresh empty spared
  have opened : v.Open := open_run fresh steps
  refine ⟨tenure.leases, ?_⟩
  intro x member
  obtain ⟨kept, noted⟩ := tenure.admissions x member
  have order : x.outset.InOrder v.gate := ⟨tenure.numbered, kept, noted⟩
  refine ⟨?_, ?_⟩
  · intro c w waits
    rw [Admission.outset, waits] at kept
    cases w <;> exact kept
  · intro now stop
    obtain ⟨p, -, path⟩ := x.proceed_follows v.gate now stop
    exact ⟨(path.inOrder order).2, fun g' p path => (path.inOrder order).1.orderly⟩

end Service

namespace Sample

/-- Two connections from different addresses begin beside each other. While both wait for the rest
of their handshakes, the gate is swept, and somebody else registers a connection, moves it and
releases it. Then the first one is accepted. -/
def errand : List (Instant × Happening) :=
  [(0, .arrival arrived.address arrived.peer), (0, .turn 0 false),
    (0, .arrival (.v4 #v[192, 0, 2, 2]) arrived.peer), (0, .turn 1 false),
    (100, .operation .sweep),
    (200, .operation (.register (.v4 #v[192, 0, 2, 3]))),
    (300, .operation (.move ⟨.v4 #v[192, 0, 2, 3], 3⟩ .rejected)),
    (400, .operation (.release ⟨.v4 #v[192, 0, 2, 3], 3⟩)),
    (500, .turn 0 false)]

end Sample

open Sample in
theorem Service.errand_upheld :
    let v := (run { gate := strict } errand).2
    v.leases = [⟨arrived.address, 1⟩] ∧
      v.admissions.map (·.key?) = [some ⟨.v4 #v[192, 0, 2, 2], 2⟩] ∧
      v.gate.registry.state? ⟨arrived.address, 1⟩ = some .admitted ∧
      ∀ x ∈ v.admissions, ∀ now stop, v.gate.Smooth (x.proceed v.gate now stop).2 := by
  have spared : sparesAll { gate := strict } errand = true := by decide +kernel
  have leases : (run { gate := strict } errand).2.leases = [⟨arrived.address, 1⟩] := by
    decide +kernel
  have waiting : (run { gate := strict } errand).2.admissions.map (·.key?) =
      [some ⟨.v4 #v[192, 0, 2, 2], 2⟩] := by
    decide +kernel
  obtain ⟨held, turns⟩ := progression_upheld.2 _ _ _ _ _ strict_opens errand spared
  refine ⟨leases, waiting, ?_, fun x member now stop => ((turns x member).2 now stop).1⟩
  exact held _ (leases ▸ List.mem_singleton_self _)

end AdmissionGate
