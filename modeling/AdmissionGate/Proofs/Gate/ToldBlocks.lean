import AdmissionGate.Proofs.Gate.BlockTerms
import AdmissionGate.Proofs.Gate.Course

/-!
The block that a rejection tells of, and no other. A stage that places a block also answers with
its length, and whatever the length goes through on its way, the rejection tells it. So an
admission that ends without a block to tell of has placed none.
-/

namespace AdmissionGate

def Verdict.length? : Verdict → Option Duration
  | block _ length => length
  | _ => none

namespace Limiter

open Blocklist

variable {l : Limiter} {b : Blocklist} {a : Address} {now : Instant}

theorem lapse_of_check (untold : (l.check b a now).answer.length? = none) :
    b.Lapse now (l.check b a now).blocklist := by
  have decision := l.check_decision b a now
  generalize l.check b a now = r at decision untold
  cases decision with
  | blocked => exact .refl now b
  | unguarded | allowed | throttled => exact .settle b a now
  | disreputable | excessive | tipped => cases untold

theorem lapse_of_penalize {amount : Float}
    (untold : (l.penalize b a amount now).answer.bind (·.length?) = none) :
    b.Lapse now (l.penalize b a amount now).blocklist := by
  have penalty := l.penalize_penalty b a amount now
  generalize l.penalize b a amount now = r at penalty untold
  cases penalty with
  | ignored | added | known => exact .refl now b
  | tipped => cases untold

end Limiter

namespace Gate

open Blocklist

variable {g g' : Gate} {a : Address} {now : Instant}

theorem lapse_of_check {v : Verdict} (answer : g.check a now = (v, g'))
    (untold : v.length? = none) : g.blocklist.Lapse now g'.blocklist := by
  cases answer
  exact Limiter.lapse_of_check untold

theorem lapse_of_penalizeBy {amount : Float} {v : Option Verdict}
    (answer : g.penalizeBy a amount now = (v, g')) (untold : v.bind (·.length?) = none) :
    g.blocklist.Lapse now g'.blocklist := by
  cases answer
  exact Limiter.lapse_of_penalize untold

theorem penalize_fst (g : Gate) (a : Address) (reason : Reason) (now : Instant) :
    (g.penalize a reason now).1 =
      (g.penalizeBy a (g.limiter.penaltyFor reason) now).1.bind (·.length?) := by
  simp only [penalize]
  rcases (g.penalizeBy a (g.limiter.penaltyFor reason) now).1 with _ | (_ | _ | _) <;> rfl

theorem lapse_of_penalize {reason : Reason} {length : Option Duration}
    (answer : g.penalize a reason now = (length, g')) (untold : length = none) :
    g.blocklist.Lapse now g'.blocklist := by
  have first := congrArg Prod.fst answer
  rw [penalize_fst] at first
  cases congrArg Prod.snd answer
  exact lapse_of_penalizeBy rfl (first.trans untold)

theorem lapse_refusal {r r' : Registry} {b landed : Blocklist} {e : GateError}
    (refused : r.register b landed a now = (.error e, r')) (untold : (g.refusal now e).1 = none) :
    g.blocklist.Lapse now (g.refusal now e).2.blocklist := by
  rcases Registry.register_error refused with ⟨block, -, rfl⟩ | ⟨-, current, limit, rfl⟩
  · exact .settle ..
  · exact lapse_of_penalize rfl untold

end Gate

def Point.told? : Point → Option Duration
  | .rejecting _ _ _ length _ => length
  | .resting (.finished (.rejected r) _ _) => r.blockDuration
  | _ => none

open Gate Blocklist in
/-- As long as there is no block to tell of, none was placed since the list was `b`. -/
theorem Leads.untold {now : Instant} {stop : Bool} {g g' : Gate} {p p' : Point}
    (edge : Leads now stop g p g' p') {b : Blocklist}
    (before : p.told? = none → b.Lapse now g.blocklist) (untold : p'.told? = none) :
    b.Lapse now g'.blocklist := by
  have unchanged (same : g'.blocklist = g.blocklist) (first : p.told? = none) :
      b.Lapse now g'.blocklist :=
    same ▸ before first
  cases edge with
  | registered free => exact (before rfl).trans (lapse_of_register free)
  | refused no =>
      have start := (before rfl).trans (lapse_of_register no)
      simp only [refuse_eq] at untold
      simp only [refuse_eq, blocklist_turnAway]
      exact start.trans (lapse_refusal (registry_of_register _ _ no) untold)
  | allowed v => exact (before rfl).trans (lapse_of_check v rfl)
  | blocked v => exact (before rfl).trans (lapse_of_check v untold)
  | exhausted v _ | throttled v _ =>
      have lapse := lapse_of_check v rfl
      exact (before rfl).trans lapse
  | malformed _ penalty =>
      have lapse := lapse_of_penalize penalty untold
      exact (before rfl).trans lapse
  | @suspected _ _ _ _ _ v penalty lenient =>
      have mild : v.bind (·.length?) = none := by
        match v with
        | some (.block r d) => exact absurd rfl (lenient r d)
        | none | some .allow | some (.throttle ..) => rfl
      have lapse := lapse_of_penalizeBy penalty mild
      exact (before rfl).trans lapse
  | convicted penalty => exact (before rfl).trans (lapse_of_penalizeBy penalty untold)
  | turnedAway penalty | failsClosed _ penalty =>
      exact (before rfl).trans (lapse_of_penalize penalty untold)
  | banned _ block =>
      -- A block of some length that the detector asks for is told of.
      have told := (congrArg Prod.fst block).trans untold
      cases told
  | rejected => exact unchanged (blocklist_turnAway ..) untold
  | welcomed => exact unchanged (blocklist_sampleReputation ..) rfl
  | ruled | failed | crashed | tooLate => exact unchanged (blocklist_counted ..) rfl
  | _ => exact unchanged rfl rfl

theorem Path.untold {now : Instant} {stop : Bool} {g g' : Gate} {p p' : Point}
    (path : Path now stop g p g' p') (untold : p'.told? = none) :
    g.blocklist.Lapse now g'.blocklist :=
  path.preserves (I := fun g' p' => p'.told? = none → g.blocklist.Lapse now g'.blocklist)
    (fun edge before => edge.untold before) (fun _ => .refl now _) untold

/-- The turn placed no block: each address stands as it did, from then on. -/
structure Turn.Blockless (t : Turn) : Prop where
  lapse : t.found.blocklist.Lapse t.now t.left.blocklist
  statuses : ∀ a next, t.now ≤ next →
    t.left.blocklist.status? a next = t.found.blocklist.status? a next

theorem Turn.Taken.blockless {t : Turn} {p : Progress} (taken : t.Taken p)
    (untold : (Point.resting p).told? = none) : t.Blockless := by
  obtain ⟨stop, path⟩ := taken.path
  have lapse := path.untold untold
  exact ⟨lapse, fun a next le => (lapse.later le).status?_eq a⟩

/-- The block that a rejection tells of is in force on its address for just as long, if it lasts
at all. If the rejection tells of none, the admission has placed none; and in the turns before the
last it has placed none in any case. -/
theorem Course.told_block {v : Service} {a : Address} {peer : Peer}
    {steps : List (Instant × CourseStep)} {r : Rejection}
    (rejected : ((arrival v a peer).run steps).2.admission.outcome? = some (.rejected r)) :
    ∃ early last, ((arrival v a peer).run steps).1 = early ++ [last] ∧
      last.after.outcome? = some (.rejected r) ∧
      (∀ d, r.blockDuration = some d → 0 < d →
        ∃ status, last.left.blocklist.status? r.address last.now = some status ∧
          status.remaining = some d) ∧
      (∀ t ∈ early, t.Blockless) ∧ (r.blockDuration = none → last.Blockless) := by
  obtain ⟨early, last, rest, turns, final, ending, waits⟩ :=
    ((arrival v a peer).turns_run steps).ended rfl rejected
  refine ⟨early, last, turns, final ▸ rejected, ?_, ?_, ending.blockless⟩
  · intro d told lasting
    obtain ⟨stop, path⟩ := ending.path
    obtain ⟨e, listed, ends⟩ := path.backed (Admission.backed_outset ending.under_way) d told
    have lasts : e.isExpired last.now = false := by
      rw [BlockEntry.isExpired, ends]
      exact decide_eq_false (Nat.not_le_of_lt (Nat.lt_add_of_pos_right lasting))
    refine ⟨_, Blocklist.status?_eq_some_iff.mpr ⟨e, listed, lasts, rfl⟩, ?_⟩
    simp [BlockEntry.status, ends, Instant.since]
  · intro t member
    obtain ⟨c, w, taken⟩ := waits t member
    exact taken.blockless rfl

namespace Sample

/-- While the handshake is on its way the address is blocked for good; then the detector asks for
a block of one second. -/
def bannedMeanwhile : List (Instant × CourseStep) :=
  [(0, .turn false), (250, .other (.operation (.block arrived.address .manualBlock none))),
    (500, .turn false), (600, .turn false)]

def bannedTurns : List Turn × Course :=
  (Course.arrival { gate := banning } arrived.address arrived.peer).run bannedMeanwhile

theorem banned_for_one_second :
    bannedTurns.2.admission.outcome? = some (.rejected
      ⟨arrived.address, some 1, .classificationRejected, .classified, some 1000000000⟩) ∧
    ∃ early last, bannedTurns.1 = early ++ [last] ∧
      ∃ status, last.left.blocklist.status? arrived.address last.now = some status ∧
        status.remaining = some 1000000000 := by
  have rejected : bannedTurns.2.admission.outcome? = some (.rejected
      ⟨arrived.address, some 1, .classificationRejected, .classified, some 1000000000⟩) := by
    decide +kernel
  rw [bannedTurns] at rejected ⊢
  obtain ⟨early, last, turns, -, stands, -⟩ := Course.told_block rejected
  exact ⟨rejected, early, last, turns, stands 1000000000 rfl (by decide)⟩

end Sample

end AdmissionGate
