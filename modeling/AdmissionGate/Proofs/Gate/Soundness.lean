import AdmissionGate.Proofs.Gate.Traffic
import AdmissionGate.Proofs.Gate.Trail

/-!
The bytes, the record and the trail of every admission stay sound, whatever else goes on at
the gate: an admission tends to its own record only, and no two have the same.
-/

namespace AdmissionGate

structure Point.Sound (lost : ConnectionKey → Prop) (a : Address) (peer : Peer) (g : Gate)
    (p : Point) : Prop where
  numbered : g.registry.Numbered
  bytes : p.Intact g.settings.handshake peer.bytesLeft
  record : p.Booked lost g
  trail : p.Staged g.settings.pipeline.maxThrottleWait a peer

theorem Gate.numbered_of_register {g g' : Gate} {a : Address} {now : Instant}
    {result : Except GateError ConnectionKey} (answer : g.register a now = (result, g'))
    (before : g.registry.Numbered) : g'.registry.Numbered := by
  have after := before.register g.blocklist g.blocklist a now
  rwa [registry_of_register _ _ answer] at after

theorem Leads.numbered {now : Instant} {stop : Bool} {g g' : Gate} {p p' : Point}
    (edge : Leads now stop g p g' p') (before : g.registry.Numbered) : g'.registry.Numbered := by
  have tended {k : ConnectionKey} (own : p.Of k) : g'.registry.Numbered :=
    ((edge.tended own).2 _ .refl).numbered before
  cases edge with
  | registered free => exact Gate.numbered_of_register free before
  | refused no =>
      rw [Gate.registry_refuse]
      exact Gate.numbered_of_register no before
  | _ => exact tended rfl

theorem Leads.sound {now : Instant} {stop : Bool} {g g' : Gate} {p p' : Point}
    (edge : Leads now stop g p g' p') {lost : ConnectionKey → Prop} {a : Address} {peer : Peer}
    (before : p.Sound lost a peer g) : p'.Sound lost a peer g' where
  numbered := edge.numbered before.numbered
  bytes := edge.intact before.bytes
  record := edge.booked before.numbered before.bytes before.record
  trail := edge.staged before.record before.trail

theorem Path.sound {now : Instant} {stop : Bool} {g g' : Gate} {p p' : Point}
    (path : Path now stop g p g' p') {lost : ConnectionKey → Prop} {a : Address} {peer : Peer}
    (before : p.Sound lost a peer g) : p'.Sound lost a peer g' :=
  path.preserves (fun edge => edge.sound) before

theorem Path.settings {now : Instant} {stop : Bool} {g g' : Gate} {p p' : Point}
    (path : Path now stop g p g' p') : g'.settings = g.settings :=
  path.preserves (I := fun g' _ => g'.settings = g.settings)
    (fun edge before => edge.settings.trans before) rfl

theorem Path.numbered {now : Instant} {stop : Bool} {g g' : Gate} {p p' : Point}
    (path : Path now stop g p g' p') (before : g.registry.Numbered) : g'.registry.Numbered :=
  path.preserves (I := fun g' _ => g'.registry.Numbered)
    (fun edge before => edge.numbered before) before

theorem Path.tended {now : Instant} {stop : Bool} {g g' : Gate} {p p' : Point}
    (path : Path now stop g p g' p') {k : ConnectionKey} (own : p.Of k) :
    p'.Of k ∧ Registry.Tended k g.registry g'.registry := by
  refine path.preserves (I := fun g' p' => p'.Of k ∧ Registry.Tended k g.registry g'.registry)
    ?_ ⟨own, .refl⟩
  intro _ _ _ _ edge before
  obtain ⟨own, tends⟩ := edge.tended before.1
  exact ⟨own, tends _ before.2⟩

/-- An admission is registered and goes on under its key, or is refused at once. -/
theorem Path.arrived {now : Instant} {stop : Bool} {g g' : Gate} {a : Address} {peer : Peer}
    {r : Progress} (path : Path now stop g (.arriving a peer) g' (.resting r)) :
    (∃ key g₁, g.register a now = (.ok key, g₁) ∧
      Path now stop g₁ (.considering { key, peer, trail := [.registration (.ok key)] })
        g' (.resting r)) ∨
      ∃ e g₁, g.register a now = (.error e, g₁) ∧ (r, g') = g₁.refuse now a peer e := by
  cases path with
  | step first rest =>
      cases first with
      | registered free => exact .inl ⟨_, _, free, rest⟩
      | refused no =>
          cases rest with
          | here => exact .inr ⟨_, _, no, rfl⟩
          | step next _ => cases next

theorem Gate.register_frame {g g' : Gate} (numbered : g.registry.Numbered) {a : Address}
    {now : Instant} {result : Except GateError ConnectionKey}
    (answer : g.register a now = (result, g')) :
    g.registry.nextId ≤ g'.registry.nextId ∧
      ∀ k, k.id < g.registry.nextId → g'.registry.record? k = g.registry.record? k := by
  have answer := registry_of_register _ _ answer
  cases result with
  | ok key =>
      obtain ⟨rfl, supply⟩ := Registry.register_ok answer
      refine ⟨by omega, ?_⟩
      intro k old
      have other : k ≠ ⟨a, g.registry.nextId⟩ := by
        intro same
        rw [same] at old
        exact Nat.lt_irrefl _ old
      rw [numbered.record?_register answer k, if_neg other]
  | error e =>
      exact ⟨Nat.le_of_eq (Registry.nextId_register_of_error answer).symm,
        fun k _ => Registry.record?_register_of_error answer k⟩

namespace Admission

def point (x : Admission) : Point :=
  match x.progress with
  | none => .arriving x.address x.peer
  | some p => .resting p

theorem proceed_address (x : Admission) (g : Gate) (now : Instant) (stop : Bool) :
    (x.proceed g now stop).1.address = x.address ∧ (x.proceed g now stop).1.peer = x.peer := by
  rcases x with ⟨a, peer, _ | _ | _⟩ <;> exact ⟨rfl, rfl⟩

theorem proceed_of_isOver {x : Admission} (ended : x.isOver = true) (g : Gate) (now : Instant)
    (stop : Bool) : x.proceed g now stop = (x, g) := by
  obtain ⟨a, peer, progress⟩ := x
  match progress with
  | none | some (.waiting ..) => contradiction
  | some (.finished ..) => rfl

/-- A turn of an admission that is not over keeps what holds of it. -/
theorem proceed_sound {x : Admission} {g : Gate} {lost : ConnectionKey → Prop}
    (under_way : x.isOver = false) (before : x.point.Sound lost x.address x.peer g)
    (now : Instant) (stop : Bool) :
    (x.proceed g now stop).1.point.Sound lost x.address x.peer (x.proceed g now stop).2 := by
  obtain ⟨a, peer, progress⟩ := x
  match progress with
  | none => exact (g.receive_follows now a peer stop).sound before
  | some (.waiting c w) =>
      have start : (w.point c).Sound lost a peer g := by
        cases w <;> exact ⟨before.numbered, before.bytes, before.record, before.trail⟩
      exact (g.resume_follows now c w stop).sound start
  | some (.finished ..) => contradiction

theorem proceed_keeps (x : Admission) (g : Gate) (now : Instant) (stop : Bool) :
    (x.proceed g now stop).2.settings = g.settings ∧
      (g.registry.Numbered → (x.proceed g now stop).2.registry.Numbered) := by
  obtain ⟨a, peer, progress⟩ := x
  match progress with
  | none =>
      have path := g.receive_follows now a peer stop
      exact ⟨path.settings, path.numbered⟩
  | some (.waiting c w) =>
      have path := g.resume_follows now c w stop
      exact ⟨path.settings, path.numbered⟩
  | some (.finished ..) => exact ⟨rfl, id⟩

theorem key?_of_resting {x : Admission} {p : Progress} (progress : x.progress = some p)
    {k k' : ConnectionKey} (own : Point.Of k (.resting p)) (key : x.key? = some k') : k' = k := by
  simp only [key?, progress] at key
  split at key
  · rename_i same
    cases same
    cases key
    exact own
  · contradiction

/-- A turn of an admission touches no record but its own, which may be a new one. -/
theorem proceed_frame (x : Admission) {g : Gate} (numbered : g.registry.Numbered)
    (now : Instant) (stop : Bool) :
    g.registry.nextId ≤ (x.proceed g now stop).2.registry.nextId ∧
      (∀ k, k.id < g.registry.nextId → x.key? ≠ some k →
        (x.proceed g now stop).2.registry.record? k = g.registry.record? k) ∧
      ∀ k, (x.proceed g now stop).1.key? = some k → x.key? = some k ∨
        g.registry.nextId ≤ k.id ∧ k.id < (x.proceed g now stop).2.registry.nextId := by
  obtain ⟨a, peer, progress⟩ := x
  match progress with
  | none =>
      have receipt := g.receive_follows now a peer stop
      rcases receipt.arrived with ⟨key, g₁, free, path⟩ | ⟨e, g₁, no, refusal⟩
      · obtain ⟨supply, others⟩ := Gate.register_frame numbered free
        obtain ⟨rfl, next⟩ := Registry.register_ok (Gate.registry_of_register _ _ free)
        obtain ⟨own, tended⟩ := path.tended (k := ⟨a, g.registry.nextId⟩) rfl
        have after : (g.receive now a peer stop).2.registry.nextId = g.registry.nextId + 1 :=
          tended.nextId.trans next
        refine ⟨after ▸ Nat.le_succ _, ?_, ?_⟩
        · intro k old _
          have other : k ≠ ⟨a, g.registry.nextId⟩ := by
            intro same
            rw [same] at old
            exact Nat.lt_irrefl _ old
          exact (tended.record?_of_ne other).trans (others k old)
        · intro k key
          have same := key?_of_resting rfl own key
          refine .inr ⟨?_, ?_⟩
          · exact Nat.le_of_eq (congrArg ConnectionKey.id same).symm
          · change k.id < (g.receive now a peer stop).2.registry.nextId
            rw [after, same]
            exact Nat.lt_succ_self _
      · obtain ⟨supply, others⟩ := Gate.register_frame numbered no
        have same : (g.receive now a peer stop).2.registry = g₁.registry :=
          (congrArg (·.2.registry) refusal).trans (Gate.registry_refuse ..)
        refine ⟨same ▸ supply, ?_, ?_⟩
        · intro k old _
          exact (congrArg (·.record? k) same).trans (others k old)
        · intro k key
          have ended : (g.receive now a peer stop).1 = (g₁.refuse now a peer e).1 :=
            congrArg Prod.fst refusal
          cases e <;> simp [proceed, key?, ended, Gate.refuse] at key
  | some (.waiting c w) =>
      have path := g.resume_follows now c w stop
      have start : (w.point c).Of c.key := by cases w <;> rfl
      obtain ⟨own, tended⟩ := path.tended start
      refine ⟨Nat.le_of_eq tended.nextId.symm, ?_, ?_⟩
      · intro k _ other
        apply tended.record?_of_ne
        intro same
        exact other (congrArg some same.symm)
      · intro k key
        exact .inl (congrArg some (key?_of_resting rfl own key).symm)
  | some (.finished o rest trail) =>
      refine ⟨Nat.le_refl _, fun _ _ _ => rfl, ?_⟩
      intro k key
      cases key

end Admission

theorem Gate.settings_perform (g : Gate) (now : Instant) (o : Operation) :
    (g.perform now o).settings = g.settings := by
  cases o with
  | unblock a =>
      simp only [perform, Gate.unblock]
      split <;> rfl
  | _ => rfl

theorem Gate.registry_unblock (g : Gate) (a : Address) :
    (g.unblock a).2.registry = g.registry := by
  simp only [Gate.unblock]
  split <;> rfl

/-- An operation keeps the registry numbered, and touches no record but its own or a new one. -/
theorem Gate.perform_frame (g : Gate) (numbered : g.registry.Numbered) (now : Instant)
    (o : Operation) :
    (g.perform now o).registry.Numbered ∧
      g.registry.nextId ≤ (g.perform now o).registry.nextId ∧
      ∀ k, k.id < g.registry.nextId → o.key? ≠ some k →
        (g.perform now o).registry.record? k = g.registry.record? k := by
  have tended {own : ConnectionKey} (about : o.key? = some own)
      (tends : Registry.Tended own g.registry (g.perform now o).registry) :
      (g.perform now o).registry.Numbered ∧
        g.registry.nextId ≤ (g.perform now o).registry.nextId ∧
        ∀ k, k.id < g.registry.nextId → o.key? ≠ some k →
          (g.perform now o).registry.record? k = g.registry.record? k := by
    refine ⟨tends.numbered numbered, Nat.le_of_eq tends.nextId.symm, ?_⟩
    intro k _ other
    apply tends.record?_of_ne
    intro same
    rw [about, same] at other
    exact other rfl
  cases o with
  | register a =>
      obtain ⟨supply, others⟩ :=
        register_frame numbered (show g.register a now = (_, (g.register a now).2) from rfl)
      exact ⟨numbered_of_register rfl numbered, supply, fun k old _ => others k old⟩
  | update k bytes => exact tended rfl (.update .refl bytes now)
  | move k state => exact tended rfl (.setState .refl state)
  | rate k score => exact tended rfl (.setReputation .refl score)
  | release k => exact tended rfl (.release .refl now)
  | sweep => exact ⟨numbered.purge now, Nat.le_refl _, fun k _ _ => Registry.record?_purge ..⟩
  | unblock a =>
      rw [perform, registry_unblock]
      exact ⟨numbered, Nat.le_refl _, fun _ _ _ => rfl⟩
  | _ => exact ⟨numbered, Nat.le_refl _, fun _ _ _ => rfl⟩

/-- A record is as it was booked after an operation that is about it but does not write to it. -/
theorem Gate.perform_books (g : Gate) (now : Instant) {o : Operation} {k : ConnectionKey}
    {released : List ConnectionKey} {state : ConnectionState} {bytes : Nat}
    (about : o.key? = some k) (spared : o.writes? ≠ some k)
    (books : g.registry.Books (k ∈ released) k state bytes) :
    (g.perform now o).registry.Books (k ∈ o.releases?.toList ++ released) k state bytes := by
  cases o with
  | update | move => exact (spared about).elim
  | rate _ score =>
      cases about
      exact books.setReputation score
  | release =>
      cases about
      refine .of_none ?_ (List.mem_cons_self ..)
      change (g.registry.release k now).record? k = none
      rw [Registry.record?_release, if_pos rfl]
  | _ => cases about

def Wait.state : Wait → ConnectionState
  | .delay _ | .greeting _ => .registered
  | .opinion _ => .handshakeValidated

/-- The bytes of a connection that waits, as far as they are counted. -/
def Wait.known : Wait → Nat
  | .delay _ | .greeting _ => 0
  | .opinion q => q.known

theorem Point.booked_waiting {lost : ConnectionKey → Prop} {g : Gate} {c : Candidate} {w : Wait} :
    (Point.resting (.waiting c w)).Booked lost g ↔
      g.registry.Books (lost c.key) c.key w.state w.known := by
  cases w <;> exact Iff.rfl

structure Admission.Sound (x : Admission) (g : Gate) (released : List ConnectionKey) : Prop where
  bytes : x.point.Intact g.settings.handshake x.peer.bytesLeft
  trail : x.point.Staged g.settings.pipeline.maxThrottleWait x.address x.peer
  record : ∀ c w, x.progress = some (.waiting c w) →
    g.registry.Books (c.key ∈ released) c.key w.state w.known

namespace Admission.Sound

variable {x : Admission} {g g' : Gate} {released released' : List ConnectionKey}

theorem toPoint (sound : x.Sound g released) (under_way : x.isOver = false)
    (numbered : g.registry.Numbered) : x.point.Sound (· ∈ released) x.address x.peer g := by
  refine ⟨numbered, sound.bytes, ?_, sound.trail⟩
  have record := sound.record
  obtain ⟨a, peer, progress⟩ := x
  match progress with
  | none => trivial
  | some (.waiting c w) => exact Point.booked_waiting.mpr (record c w rfl)
  | some (.finished ..) => contradiction

theorem ofPoint (sound : x.point.Sound (· ∈ released) x.address x.peer g) :
    x.Sound g released := by
  refine ⟨sound.bytes, sound.trail, ?_⟩
  intro c w waits
  have record := sound.record
  simp only [point, waits] at record
  exact Point.booked_waiting.mp record

/-- A turn of the admission itself. -/
theorem proceed (sound : x.Sound g released) (numbered : g.registry.Numbered) (now : Instant)
    (stop : Bool) : (x.proceed g now stop).1.Sound (x.proceed g now stop).2 released := by
  by_cases ended : x.isOver = true
  · rw [proceed_of_isOver ended]
    exact sound
  · rw [Bool.not_eq_true] at ended
    have after := proceed_sound ended (sound.toPoint ended numbered) now stop
    obtain ⟨address, peer⟩ := proceed_address x g now stop
    rw [← address, ← peer] at after
    exact ofPoint after

/-- Something else that leaves the record alone, or removes it and says so. -/
theorem elsewhere (sound : x.Sound g released) (settings : g'.settings = g.settings)
    (records : ∀ k, x.key? = some k → ∀ state bytes,
      g.registry.Books (k ∈ released) k state bytes →
        g'.registry.Books (k ∈ released') k state bytes) : x.Sound g' released' := by
  refine ⟨?_, ?_, ?_⟩
  · rw [settings]
    exact sound.bytes
  · rw [settings]
    exact sound.trail
  · intro c w waits
    exact records c.key (by simp [key?, waits]) _ _ (sound.record c w waits)

end Admission.Sound

def Admission.Apart (x y : Admission) : Prop := ∀ k, x.key? = some k → y.key? ≠ some k

theorem Admission.Apart.symm {x y : Admission} (apart : x.Apart y) : y.Apart x :=
  fun k own other => apart k other own

structure Traffic.Sound (t : Traffic) : Prop where
  numbered : t.gate.registry.Numbered
  issued : ∀ x ∈ t.admissions, ∀ k, x.key? = some k → k.id < t.gate.registry.nextId
  apart : t.admissions.Pairwise Admission.Apart
  each : ∀ x ∈ t.admissions, x.Sound t.gate t.released

namespace Traffic

variable {t t' : Traffic} {now : Instant}

theorem Sound.arrival (sound : t.Sound) (a : Address) (peer : Peer) :
    Sound { t with now, admissions := t.admissions ++ [{ address := a, peer }] } := by
  have member {x : Admission} (here : x ∈ t.admissions ++ [{ address := a, peer }]) :
      x ∈ t.admissions ∨ x = { address := a, peer } := by simpa using here
  refine ⟨sound.numbered, ?_, ?_, ?_⟩
  · intro x here k key
    rcases member here with old | rfl
    · exact sound.issued x old k key
    · cases key
  · rw [List.pairwise_append]
    refine ⟨sound.apart, List.pairwise_singleton .., ?_⟩
    intro x _ y new k _ key
    rw [List.mem_singleton.mp new] at key
    cases key
  · intro x here
    rcases member here with old | rfl
    · exact sound.each x old
    · exact ⟨rfl, ⟨rfl, rfl⟩, fun c w waits => by cases waits⟩

theorem Sound.turn (sound : t.Sound) {before after : List Admission} {x : Admission}
    (here : t.admissions = before ++ x :: after) (stop : Bool) :
    Sound { t with
      now
      gate := (x.proceed t.gate now stop).2
      admissions := before ++ (x.proceed t.gate now stop).1 :: after } := by
  obtain ⟨numbered, issued, apart, each⟩ := sound
  rw [here] at issued apart each
  rw [List.pairwise_middle (fun other => other.symm), List.pairwise_cons] at apart
  have others {y : Admission} (member : y ∈ before ++ after) : y ∈ before ++ x :: after :=
    List.perm_middle.mem_iff.mpr (List.mem_cons_of_mem _ member)
  have self : x ∈ before ++ x :: after := List.perm_middle.mem_iff.mpr (List.mem_cons_self ..)
  obtain ⟨supply, untouched, fresh⟩ := x.proceed_frame numbered now stop
  obtain ⟨settings, kept⟩ := x.proceed_keeps t.gate now stop
  refine ⟨?_, ?_, ?_, ?_⟩
  · exact kept numbered
  · intro y member k key
    rcases List.mem_cons.mp (List.perm_middle.mem_iff.mp member) with rfl | other
    · rcases fresh k key with old | ⟨-, new⟩
      · exact Nat.lt_of_lt_of_le (issued x self k old) supply
      · exact new
    · exact Nat.lt_of_lt_of_le (issued y (others other) k key) supply
  · rw [List.pairwise_middle (fun other => other.symm), List.pairwise_cons]
    refine ⟨?_, apart.2⟩
    intro y other k key
    rcases fresh k key with old | ⟨new, -⟩
    · exact apart.1 y other k old
    · intro same
      exact Nat.not_lt.mpr new (issued y (others other) k same)
  · intro y member
    rcases List.mem_cons.mp (List.perm_middle.mem_iff.mp member) with rfl | other
    · exact (each x self).proceed numbered now stop
    · apply (each y (others other)).elsewhere
      · exact settings
      · intro k key _ _ books
        apply books.of_record?
        apply untouched k (issued y (others other) k key)
        intro own
        exact apart.1 y other k own key

theorem Sound.abandonment (sound : t.Sound) {before after : List Admission} {x : Admission}
    (here : t.admissions = before ++ x :: after) :
    Sound { t with now, gate := x.abandoned t.gate now, admissions := before ++ after } := by
  obtain ⟨numbered, issued, apart, each⟩ := sound
  rw [here] at issued apart each
  rw [List.pairwise_middle (fun other => other.symm), List.pairwise_cons] at apart
  have others {y : Admission} (member : y ∈ before ++ after) : y ∈ before ++ x :: after :=
    List.perm_middle.mem_iff.mpr (List.mem_cons_of_mem _ member)
  obtain ⟨a, peer, progress⟩ := x
  match progress with
  | none | some (.finished ..) =>
      exact ⟨numbered, fun y member => issued y (others member), apart.2,
        fun y member => each y (others member)⟩
  | some (.waiting c w) =>
      have tended : Registry.Tended c.key t.gate.registry (t.gate.release c.key now).registry :=
        .release .refl now
      refine ⟨tended.numbered numbered, ?_, apart.2, ?_⟩
      · intro y member k key
        exact Nat.lt_of_lt_of_eq (issued y (others member) k key) tended.nextId.symm
      · intro y member
        apply (each y (others member)).elsewhere
        · rfl
        · intro k key _ _ books
          apply books.of_record?
          apply tended.record?_of_ne
          intro same
          exact apart.1 y member c.key rfl (key.trans (congrArg some same))

theorem Sound.operation (sound : t.Sound) {o : Operation}
    (own : ∀ x ∈ t.admissions, ∀ k, x.key? = some k → o.writes? ≠ some k) :
    Sound { t with
      now
      gate := t.gate.perform now o
      released := o.releases?.toList ++ t.released } := by
  obtain ⟨numbered, issued, apart, each⟩ := sound
  obtain ⟨still, supply, untouched⟩ := t.gate.perform_frame numbered now o
  refine ⟨still, ?_, apart, ?_⟩
  · intro x member k key
    exact Nat.lt_of_lt_of_le (issued x member k key) supply
  · intro x member
    apply (each x member).elsewhere
    · exact t.gate.settings_perform now o
    · intro k key _ _ books
      by_cases about : o.key? = some k
      · exact t.gate.perform_books now about (own x member k key) books
      · have same := books.of_record? (untouched k (issued x member k key) about)
        exact same.mono (List.mem_append_right _)

theorem Sound.step (sound : t.Sound) (step : t.Step now t') : t'.Sound := by
  cases step with
  | arrival a peer => exact sound.arrival a peer
  | turn stop here => exact sound.turn here stop
  | abandonment here => exact sound.abandonment here
  | operation o own => exact sound.operation own

theorem Reachable.sound (reachable : t.Reachable) : t.Sound := by
  induction reachable with
  | opened numbered =>
      exact ⟨numbered, fun x member => (List.not_mem_nil member).elim, .nil,
        fun x member => (List.not_mem_nil member).elim⟩
  | next _ _ step ih => exact ih.step step

end Traffic

end AdmissionGate
