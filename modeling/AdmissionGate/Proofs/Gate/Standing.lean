import AdmissionGate.Proofs.Gate.Service
import AdmissionGate.Proofs.Limiter.Blocks

/-!
Blocks on the way through the gate. Every edge but one leaves a block that is in force as it is;
the one that does not follows a verdict of the detector that asks for a block of its own. And
the block that a rejection tells of is one that stands when the admission ends.
-/

namespace AdmissionGate

theorem Registry.register_error {r r' : Registry} {b landed : Blocklist} {a : Address}
    {now : Instant} {e : GateError} (refused : r.register b landed a now = (.error e, r')) :
    (∃ block, (b.status? a now = some block ∨ landed.status? a now = some block) ∧
      e = .blocked a block.reason) ∨
    landed.status? a now = none ∧ ∃ current limit, e = .connectionLimit a current limit := by
  rcases register_refused refused with
    ⟨block, blocked, told, -⟩ | ⟨-, -, ⟨block, blocked, told⟩ | ⟨free, -, told⟩⟩
  · exact .inl ⟨block, .inl blocked, told⟩
  · exact .inl ⟨block, .inr blocked, told⟩
  · exact .inr ⟨free, _, _, told⟩

namespace Gate

open Blocklist

variable {g g' : Gate} {a : Address} {now : Instant}

@[simp] theorem blocklist_sampleReputation (g : Gate) (k : ConnectionKey) (now : Instant) :
    (g.sampleReputation k now).blocklist = g.blocklist := by
  simp only [sampleReputation]
  split <;> rfl

@[simp] theorem blocklist_counted (g : Gate) (now : Instant) (c : Candidate) (q : Question) :
    (g.counted now c q).blocklist = g.blocklist := by
  simp only [counted]
  split <;> rfl

@[simp] theorem blocklist_turnAway (g : Gate) (now : Instant) (r : Rejection)
    (key : Option ConnectionKey) (detail : Option String) :
    (g.turnAway now r key detail).blocklist = g.blocklist := by
  cases key <;> rfl

theorem lapse_of_register {result : Except GateError ConnectionKey}
    (answer : g.register a now = (result, g')) : g.blocklist.Lapse now g'.blocklist := by
  cases answer
  exact .settle ..

theorem enforced_of_check {v : Verdict} (answer : g.check a now = (v, g')) :
    g.blocklist.Enforced now g'.blocklist := by
  cases answer
  exact Limiter.check_enforced ..

theorem enforced_of_penalizeBy {amount : Float} {v : Option Verdict}
    (answer : g.penalizeBy a amount now = (v, g')) :
    g.blocklist.Enforced now g'.blocklist := by
  cases answer
  exact Limiter.penalize_enforced ..

theorem enforced_of_penalize {reason : Reason} {length : Option Duration}
    (answer : g.penalize a reason now = (length, g')) :
    g.blocklist.Enforced now g'.blocklist := by
  cases answer
  exact Limiter.penalize_enforced ..

theorem enforced_refusal {r r' : Registry} {b landed : Blocklist} {e : GateError}
    (refused : r.register b landed a now = (.error e, r')) (g : Gate) :
    g.blocklist.Enforced now (g.refusal now e).2.blocklist := by
  rcases Registry.register_error refused with ⟨block, -, rfl⟩ | ⟨-, current, limit, rfl⟩
  · exact .lapse (.settle ..)
  · exact enforced_of_penalize rfl

theorem lasts_of_check {reason : Reason} {length : Duration}
    (answer : g.check a now = (.block reason (some length), g')) :
    g'.blocklist.Lasts a (now + length) := by
  have verdict := congrArg Prod.fst answer
  cases congrArg Prod.snd answer
  exact Limiter.lasts_of_check verdict

theorem lasts_of_penalizeBy {amount : Float} {reason : Reason} {length : Duration}
    (answer : g.penalizeBy a amount now = (some (.block reason (some length)), g')) :
    g'.blocklist.Lasts a (now + length) := by
  have verdict := congrArg Prod.fst answer
  cases congrArg Prod.snd answer
  exact Limiter.lasts_of_penalize verdict

theorem lasts_of_penalize {reason : Reason} {length : Duration}
    (answer : g.penalize a reason now = (some length, g')) :
    g'.blocklist.Lasts a (now + length) := by
  simp only [penalize] at answer
  split at answer
  · rename_i verdict
    cases answer
    exact lasts_of_penalizeBy (Prod.ext verdict rfl)
  · simp at answer

theorem lasts_of_block {reason : Reason} {requested : Option Duration} {length : Duration}
    (answer : g.block a reason requested now = (some length, g')) :
    g'.blocklist.Lasts a (now + length) := by
  have placed : g.blocklist.effective requested = some length := congrArg Prod.fst answer
  cases congrArg Prod.snd answer
  exact lasts_block g.blocklist a reason placed now

/-- A refusal that tells of a block has found it, or has placed it. -/
theorem lasts_of_refusal {r r' : Registry} {b landed : Blocklist} {e : GateError}
    (refused : r.register b landed a now = (.error e, r')) {length : Duration}
    (told : (g.refusal now e).1 = some length) :
    (g.refusal now e).2.blocklist.Lasts a (now + length) := by
  rcases Registry.register_error refused with ⟨block, -, rfl⟩ | ⟨-, current, limit, rfl⟩
  · simp only [refusal, lookUp, Option.bind_eq_some_iff] at told ⊢
    obtain ⟨status, blocked, remaining⟩ := told
    have same := (Lapse.settle g.blocklist a now).status?_eq a
    exact lasts_of_status? (same.trans blocked) remaining
  · exact lasts_of_penalize (Prod.ext told rfl)

end Gate

/-- The edge on which the detector has asked for a block of some length: it is placed, whatever
else is in force. -/
inductive Leads.Bans (now : Instant) : Gate → Point → Gate → Point → Prop
  | intro {g g' g'' : Gate} {c : Candidate} {h : Handshake} {reason : Reason}
      {requested : Duration} {first length : Option Duration}
      (penalty : g.penalize c.address reason now = (first, g'))
      (block : g'.block c.address reason (some requested) now = (length, g'')) :
      Leads.Bans now g (.judged c h (.block reason (some requested)))
        g'' (.rejecting c .classified reason length none)

open Gate Blocklist in
/-- Every edge enforces, but for the one that bans. -/
theorem Leads.enforced {now : Instant} {stop : Bool} {g g' : Gate} {p p' : Point}
    (edge : Leads now stop g p g' p') :
    g.blocklist.Enforced now g'.blocklist ∨ Leads.Bans now g p g' p' := by
  have unchanged (same : g'.blocklist = g.blocklist) :
      g.blocklist.Enforced now g'.blocklist ∨ Leads.Bans now g p g' p' :=
    .inl (same ▸ .refl now _)
  cases edge with
  | registered free => exact .inl (.lapse (lapse_of_register free))
  | refused no =>
      refine .inl ?_
      simp only [refuse_eq, blocklist_turnAway]
      exact (enforced_refusal (registry_of_register _ _ no) _).after (lapse_of_register no)
  | allowed v | blocked v => exact .inl (enforced_of_check v)
  | exhausted v _ | throttled v _ =>
      have enforced := enforced_of_check v
      exact .inl enforced
  | malformed _ penalty =>
      have enforced := enforced_of_penalize penalty
      exact .inl enforced
  | suspected penalty _ =>
      have enforced := enforced_of_penalizeBy penalty
      exact .inl enforced
  | convicted penalty => exact .inl (enforced_of_penalizeBy penalty)
  | turnedAway penalty | failsClosed _ penalty => exact .inl (enforced_of_penalize penalty)
  | banned penalty block => exact .inr (.intro penalty block)
  | welcomed => exact unchanged (blocklist_sampleReputation ..)
  | ruled | failed | crashed | tooLate => exact unchanged (blocklist_counted ..)
  | rejected => exact unchanged (blocklist_turnAway ..)
  | _ => exact unchanged rfl

def Point.Backed (now : Instant) (g : Gate) : Point → Prop
  | .rejecting c _ _ length _ => ∀ d, length = some d → g.blocklist.Lasts c.address (now + d)
  | .resting (.finished (.rejected r) _ _) =>
      ∀ d, r.blockDuration = some d → g.blocklist.Lasts r.address (now + d)
  | _ => True

open Gate in
theorem Leads.backed {now : Instant} {stop : Bool} {g g' : Gate} {p p' : Point}
    (edge : Leads now stop g p g' p') (before : p.Backed now g) : p'.Backed now g' := by
  cases edge with
  | blocked v =>
      intro d told
      exact lasts_of_check (told ▸ v)
  | malformed _ penalty | turnedAway penalty | failsClosed _ penalty =>
      intro d told
      exact lasts_of_penalize (told ▸ penalty)
  | convicted penalty =>
      intro d told
      exact lasts_of_penalizeBy (told ▸ penalty)
  | banned _ block =>
      intro d told
      exact lasts_of_block (told ▸ block)
  | exhausted | vanished =>
      intro d told
      cases told
  | rejected => exact before
  | refused no =>
      simp only [refuse_eq]
      intro d told
      rw [blocklist_turnAway]
      exact lasts_of_refusal (registry_of_register _ _ no) told
  | _ => trivial

theorem Path.backed {now : Instant} {stop : Bool} {g g' : Gate} {p p' : Point}
    (path : Path now stop g p g' p') (before : p.Backed now g) : p'.Backed now g' :=
  path.preserves (fun edge => edge.backed) before

theorem Admission.backed_outset {x : Admission} (under_way : x.isOver = false) {now : Instant}
    {g : Gate} : x.outset.Backed now g := by
  apply outset_of under_way
  · exact fun _ _ => trivial
  · intro c w
    cases w <;> trivial

theorem Gate.lapse_sweep (g : Gate) (now : Instant) :
    g.blocklist.Lapse now (g.sweep now).2.blocklist :=
  (Blocklist.Lapse.purge ..).trans (Limiter.lapse_purgeIdle ..)

theorem Gate.capped_perform {g : Gate} {now : Instant} {cap : Duration}
    (capped : g.blocklist.Capped cap now) (o : Operation) :
    (g.perform now o).blocklist.Capped cap now := by
  cases o with
  | register a => exact capped.lapse (lapse_of_register rfl)
  | block a reason length => exact capped.block a reason length
  | unblock a =>
      simp only [perform, Gate.unblock]
      split
      · exact capped.unblock a
      · exact capped
  | unblockAll => exact capped.clear
  | lookUp a => exact capped.lapse (.settle ..)
  | check a => exact capped.enforced (enforced_of_check rfl)
  | penalize a amount => exact capped.enforced (enforced_of_penalizeBy rfl)
  | sweep => exact capped.lapse (g.lapse_sweep now)
  | update | move | rate | release | forget => exact capped

theorem Leads.capped {now : Instant} {stop : Bool} {g g' : Gate} {p p' : Point}
    (edge : Leads now stop g p g' p') {cap : Duration} (capped : g.blocklist.Capped cap now) :
    g'.blocklist.Capped cap now := by
  rcases edge.enforced with enforced | ⟨penalty, block⟩
  · exact capped.enforced enforced
  · have between := capped.enforced (Gate.enforced_of_penalize penalty)
    cases block
    exact between.block _ _ _

/-- No block lasts longer than the cap, and those that rejections tell of stand. -/
theorem preserved_capped (cap : Duration) :
    Preserved (fun now g => g.blocklist.Capped cap now) fun now g p => p.Backed now g where
  later le capped := capped.later le
  arriving _ _ _ _ := trivial
  edge edge capped backed := ⟨edge.capped capped, edge.backed backed⟩
  resumed {_ _ _ w} _ _ _ := by cases w <;> trivial
  perform capped o := Gate.capped_perform capped o

end AdmissionGate
