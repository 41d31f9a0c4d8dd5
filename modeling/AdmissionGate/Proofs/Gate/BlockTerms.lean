import AdmissionGate.Detection.Scripted
import AdmissionGate.Proofs.Gate.Consultation
import AdmissionGate.Proofs.Gate.Standing

/-!
How long blocks stay in force. Admissions leave the entry of a blocked address alone until its
block ends, and so does whatever else is done to the gate, unless an operator rules on the
address. The exception is a detector that asks for a block of some length: that block takes the
place of the one in force, which may be longer.
-/

namespace AdmissionGate

/-- The entry of an address is in its place, unless its block has ended. -/
def BlockEntry.Stands (e : BlockEntry) (a : Address) (now : Instant) (b : Blocklist) : Prop :=
  e.isExpired now = true ∨ b.entries.get? a = some e

namespace BlockEntry.Stands

open Blocklist

variable {e : BlockEntry} {a : Address} {now next : Instant} {b b' : Blocklist}

theorem later (stands : e.Stands a now b) (le : now ≤ next) : e.Stands a next b := by
  rcases stands with expired | listed
  · exact .inl (isExpired_mono le expired)
  · exact .inr listed

theorem enforced (stands : e.Stands a now b) (enforced : b.Enforced now b') :
    e.Stands a now b' := by
  rcases stands with expired | listed
  · exact .inl expired
  · cases lasts : e.isExpired now with
    | true => exact .inl lasts
    | false => exact .inr (enforced.keeps listed lasts)

/-- A block on another address. -/
theorem block (stands : e.Stands a now b) {x : Address} (other : x ≠ a) (reason : Reason)
    (requested : Option Duration) : e.Stands a now (b.block x reason requested now) := by
  rcases stands with expired | listed
  · exact .inl expired
  · exact .inr ((get?_block ..).trans ((if_neg other).trans listed))

theorem unblock (stands : e.Stands a now b) {x : Address} (other : x ≠ a) :
    e.Stands a now (b.unblock x) := by
  rcases stands with expired | listed
  · exact .inl expired
  · refine .inr ?_
    rw [Blocklist.unblock, AddressMap.get?_erase, if_neg other]
    exact listed

end BlockEntry.Stands

/-- An operator blocks the address, or lifts its block. -/
def Operation.rules (a : Address) : Operation → Bool
  | block x _ _ | unblock x => x = a
  | unblockAll => true
  | _ => false

def Happening.rules (a : Address) : Happening → Bool
  | operation o => o.rules a
  | _ => false

theorem Gate.stands_perform {g : Gate} {now : Instant} {e : BlockEntry} {a : Address}
    (stands : e.Stands a now g.blocklist) {o : Operation} (unruled : o.rules a = false) :
    e.Stands a now (g.perform now o).blocklist := by
  cases o with
  | register => exact stands.enforced (.lapse (lapse_of_register rfl))
  | block x reason length => exact stands.block (by simpa [Operation.rules] using unruled) ..
  | unblock x =>
      have other : x ≠ a := by simpa [Operation.rules] using unruled
      simp only [perform, Gate.unblock]
      split
      · exact stands.unblock other
      · exact stands
  | unblockAll => contradiction
  | lookUp => exact stands.enforced (.lapse (.settle ..))
  | check => exact stands.enforced (enforced_of_check rfl)
  | penalize => exact stands.enforced (enforced_of_penalizeBy rfl)
  | sweep => exact stands.enforced (.lapse (g.lapse_sweep now))
  | update | move | rate | release | forget => exact stands

/-- A connection of the address was turned away, and the detector asked for a block of some
length. -/
def Ending.Bans (d : Detector) (a : Address) (e : Ending) : Prop :=
  ∃ r requested, e.outcome = .rejected r ∧ r.address = a ∧ r.state = .classified ∧
    d.Answers e.trail (.block r.reason (some requested))

def Point.Bans (d : Detector) (a : Address) : Point → Prop
  | .rejecting c state reason _ _ =>
      c.address = a ∧ state = .classified ∧
        ∃ requested, d.Answers c.trail (.block reason (some requested))
  | .resting (.finished o _ trail) => Ending.Bans d a ⟨o, trail⟩
  | _ => False

theorem Leads.bans {now : Instant} {stop : Bool} {g g' : Gate} {p p' : Point}
    (edge : Leads now stop g p g' p') {d : Detector} {a : Address} (before : p.Bans d a) :
    p'.Bans d a := by
  cases edge with
  | rejected =>
      obtain ⟨own, rfl, requested, answers⟩ := before
      exact ⟨_, requested, rfl, own, rfl, answers⟩
  | _ => exact before.elim

open Gate in
/-- An edge leaves an entry in its place, or the way leads to a ban. -/
theorem Leads.stands {now : Instant} {stop : Bool} {g g' : Gate} {p p' : Point}
    (edge : Leads now stop g p g' p') {d : Detector} (consulted : p.Consulted d)
    {e : BlockEntry} {a : Address} (before : e.Stands a now g.blocklist) :
    e.Stands a now g'.blocklist ∨ p'.Bans d a := by
  rcases edge.enforced with enforced | ⟨penalty, block⟩
  · exact .inl (before.enforced enforced)
  · rename_i c h reason requested first length
    by_cases own : c.address = a
    · exact .inr ⟨own, rfl, requested, consulted⟩
    · have between := before.enforced (enforced_of_penalize penalty)
      cases block
      exact .inl (between.block own ..)

theorem Path.stands {now : Instant} {stop : Bool} {g g' : Gate} {p p' : Point}
    (path : Path now stop g p g' p') (consulted : p.Consulted g.detector)
    {e : BlockEntry} {a : Address} (before : e.Stands a now g.blocklist) :
    e.Stands a now g'.blocklist ∨ p'.Bans g.detector a := by
  have preserved := preserved_consulted g.detector
  refine (path.preserves (I := fun g' p' => (g'.detector = g.detector ∧ p'.Consulted g.detector) ∧
    (e.Stands a now g'.blocklist ∨ p'.Bans g.detector a)) ?_ ⟨⟨rfl, consulted⟩, .inl before⟩).2
  rintro _ _ _ _ edge ⟨⟨own, consulted⟩, before⟩
  refine ⟨preserved.edge edge own consulted, ?_⟩
  rcases before with stands | bans
  · exact edge.stands consulted stands
  · exact .inr (edge.bans bans)

namespace Service

abbrev Consults (d : Detector) (now : Instant) (v : Service) : Prop :=
  Preserved.At (fun _ g => g.detector = d) (fun _ _ p => p.Consulted d) now v

theorem Stepped.stands {v : Service} {now : Instant} {h : Happening} {r : Option Ending × Service}
    (stepped : v.Stepped now h r) {d : Detector} (consults : v.Consults d now)
    {e : BlockEntry} {a : Address} (before : e.Stands a now v.gate.blocklist)
    (unruled : h.rules a = false) (unbanned : ∀ ending ∈ r.1, ¬ending.Bans d a) :
    e.Stands a now r.2.gate.blocklist := by
  obtain ⟨rfl, points⟩ := consults
  have own {l₁ l₂ : List Admission} {x : Admission} (here : v.admissions = l₁ ++ x :: l₂) :
      x.outset.Consulted v.gate.detector :=
    points x (here ▸ List.mem_append_right _ (List.mem_cons_self ..)) now v.gate
  cases stepped with
  | idle | arrival => exact before
  | turn here under_way path =>
      rcases path.stands (own here) before with stands | impossible
      · exact stands
      · exact impossible.elim
  | ending here under_way path =>
      rcases path.stands (own here) before with stands | bans
      · exact stands
      · exact (unbanned _ rfl bans).elim
  | abandonment here =>
      simp only [Admission.abandoned]
      split <;> exact before
  | drop => exact before
  | operation o => exact Gate.stands_perform before unruled

theorem stands_run {v : Service} (opened : v.Open) {d : Detector} {last : Instant}
    (consults : v.Consults d last) {e : BlockEntry} {a : Address}
    (before : e.Stands a last v.gate.blocklist) {steps : List (Instant × Happening)}
    (ordered : (last :: steps.map (·.1)).Pairwise (· ≤ ·))
    (unruled : ∀ s ∈ steps, s.2.rules a = false)
    (unbanned : ∀ ending ∈ (v.run steps).1, ¬ending.Bans d a)
    {now : Instant} (le : last ≤ now) (past : ∀ s ∈ steps, s.1 ≤ now) :
    e.Stands a now (v.run steps).2.gate.blocklist := by
  induction steps generalizing v last with
  | nil => exact before.later le
  | cons s rest ih =>
      obtain ⟨next, h⟩ := s
      rw [List.map_cons, List.pairwise_cons] at ordered
      have after : last ≤ next := ordered.1 next (List.mem_cons_self ..)
      have stepped := step_cases opened next h
      have consults : v.Consults d next := ⟨consults.gate, consults.points⟩
      have known := ((preserved_consulted d).step stepped consults).1
      have stands := stepped.stands consults (before.later after)
        (unruled _ (List.mem_cons_self ..)) fun ending here =>
          unbanned ending (List.mem_append_left _ (Option.mem_toList.mpr here))
      refine ih (stepped.opened opened) known stands ordered.2 ?_ ?_
        (past _ (List.mem_cons_self ..)) ?_
      · exact fun s member => unruled s (List.mem_cons_of_mem _ member)
      · exact fun ending member => unbanned ending (List.mem_append_right _ member)
      · exact fun s member => past s (List.mem_cons_of_mem _ member)

/-- A rejection that tells of a block leaves the address blocked for just as long. -/
theorem step_backed {v : Service} (opened : v.Open) {now : Instant} {i : Nat} {stop : Bool}
    {ending : Ending} (ended : (v.step now (.turn i stop)).1 = some ending) {r : Rejection}
    (rejected : ending.outcome = .rejected r) {length : Duration}
    (told : r.blockDuration = some length) :
    (v.step now (.turn i stop)).2.gate.blocklist.Lasts r.address (now + length) := by
  have stepped := step_cases opened now (.turn i stop)
  generalize v.step now (.turn i stop) = result at stepped ended
  cases stepped with
  | idle | turn => contradiction
  | ending here under_way path =>
      cases ended
      cases rejected
      exact path.backed (Admission.backed_outset under_way) length told

/-- A block that is in force is in force as long as it was to be, whatever admissions come to,
unless an operator rules on the address or the detector asks for a block of some length. And a
rejection that tells of a block leaves the address blocked for just as long. -/
theorem block_endures (g : Gate) (first rest : List (Instant × Happening))
    (ordered : ((first ++ rest).map (·.1)).Pairwise (· ≤ ·)) {a : Address} {e : BlockEntry}
    (listed : (run { gate := g } first).2.gate.blocklist.entries.get? a = some e)
    (unruled : ∀ s ∈ rest, s.2.rules a = false)
    (unbanned : ∀ ending ∈ ((run { gate := g } first).2.run rest).1, ¬ending.Bans g.detector a)
    {now : Instant} (past : ∀ s ∈ first ++ rest, s.1 ≤ now) :
    let v := ((run { gate := g } first).2.run rest).2
    (e.isExpired now = true ∨ v.gate.blocklist.entries.get? a = some e) ∧
      ∀ i stop ending, (v.step now (.turn i stop)).1 = some ending →
        ∀ r length, ending.outcome = .rejected r → r.blockDuration = some length →
          (v.step now (.turn i stop)).2.gate.blocklist.Lasts r.address (now + length) := by
  intro v
  have opened : (run { gate := g } first).2.Open := open_run (open_of_gate g) first
  refine ⟨?_, ?_⟩
  · have from_start {steps : List (Instant × Happening)}
        (ordered : (steps.map (·.1)).Pairwise (· ≤ ·)) :
        (0 :: steps.map (·.1)).Pairwise (· ≤ ·) :=
      List.pairwise_cons.mpr ⟨fun t _ => Nat.zero_le t, ordered⟩
    rw [List.map_append, List.pairwise_append] at ordered
    have start : Consults g.detector 0 { gate := g } := ⟨rfl, fun _ member => nomatch member⟩
    have known := ((preserved_consulted g.detector).run (open_of_gate g) start
      (from_start ordered.1)).1 now (Nat.zero_le now) fun s member =>
        past s (List.mem_append_left _ member)
    have consults : Consults g.detector 0 (run { gate := g } first).2 :=
      ⟨known.gate, known.points⟩
    exact stands_run opened consults (.inr listed) (from_start ordered.2.1) unruled unbanned
      (Nat.zero_le now) fun s member => past s (List.mem_append_right _ member)
  · intro i stop ending ended r length rejected told
    exact step_backed (open_run opened rest) ended rejected told

end Service

namespace Sample

/-- The address of the connection is blocked for good while its handshake is on the way. -/
def blockedMeanwhile : List (Instant × Happening) :=
  [(0, .arrival arrived.address arrived.peer), (0, .turn 0 false),
    (250, .operation (.block arrived.address .manualBlock none))]

/-- The connection is accepted, and the block stays. -/
theorem accepted_block_endures :
    let v := ((Service.run { gate } blockedMeanwhile).2.run [(500, .turn 0 false)]).2
    v.leases = [⟨arrived.address, 1⟩] ∧
      v.gate.blocklist.entries.get? arrived.address = some ⟨.manualBlock, none, 1⟩ := by
  have listed : (Service.run { gate } blockedMeanwhile).2.gate.blocklist.entries.get?
      arrived.address = some ⟨.manualBlock, none, 1⟩ := by decide +kernel
  have accepted : ∀ ending ∈
      ((Service.run { gate } blockedMeanwhile).2.run [(500, .turn 0 false)]).1,
      ending.outcome.key?.isSome = true := by decide +kernel
  have unbanned : ∀ ending ∈
      ((Service.run { gate } blockedMeanwhile).2.run [(500, .turn 0 false)]).1,
      ¬ending.Bans gate.detector arrived.address := by
    rintro ending member ⟨r, -, rejected, -⟩
    have keyed := accepted ending member
    rw [rejected] at keyed
    exact Bool.false_ne_true keyed
  have past : ∀ s ∈ blockedMeanwhile ++ [(500, .turn 0 false)], s.1 ≤ 500 := by decide +kernel
  obtain ⟨stands, -⟩ := Service.block_endures gate blockedMeanwhile [(500, .turn 0 false)]
    (by decide +kernel) listed (by decide +kernel) unbanned past
  exact ⟨by decide +kernel, stands.resolve_left (by decide +kernel)⟩

/-- A gate whose detector asks for a block of one second, a while after it is asked. -/
def banning : Gate :=
  let verdict : Verdict := .block .classificationRejected (some 1000000000)
  let script : Script := { otherwise := { opinion := .verdict verdict, delay := 100 } }
  { gate with detector := .engine script.engine }

/-- The block for good gives way to the one that the detector asks for. -/
theorem banned_block_ends :
    let steps := blockedMeanwhile ++ [(500, .turn 0 false)]
    let before := (Service.run { gate := banning } steps).2
    let after := before.run [(600, .turn 0 false)]
    before.gate.blocklist.status? arrived.address 600 = some ⟨.manualBlock, none, 1⟩ ∧
      before.admissions.length = 1 ∧ after.1.length = 1 ∧
        after.2.gate.blocklist.status? arrived.address 600 =
            some ⟨.classificationRejected, some 1000000000, 2⟩ ∧
          after.2.gate.blocklist.isBlocked arrived.address 1000000600 = false := by
  decide +kernel

end Sample

end AdmissionGate
