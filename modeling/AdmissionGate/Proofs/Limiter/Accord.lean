import AdmissionGate.Proofs.Limiter.Blocks
import AdmissionGate.Registry.Basic
import AdmissionGate.Settings.Validation

/-!
The verdicts of the limiter and the blocks in the list agree. A check answers with a block just
when one stands after it, with the time that is left; a penalty answers with one just when it has
placed it. And whoever was told of a block is not registered before it ends, and can be from its
end on, as long as nobody acts on the address.
-/

namespace AdmissionGate

/-- Settings that break no rule block for some time, and allow for the first block. -/
theorem Settings.Valid.blocks {s : Settings} (valid : s.Valid) :
    0 < s.blocklist.baseBlock ∧ s.blocklist.baseBlock ≤ s.blocklist.maxBlock := by
  simp only [Valid, fault?] at valid
  iterate 4
    split at valid
    · contradiction
  split at valid
  · contradiction
  rename_i lasting
  split at valid
  · contradiction
  rename_i capped
  rw [← UInt64.toNat_inj] at lasting
  rw [UInt64.lt_iff_toNat_lt, Nat.not_lt] at capped
  exact ⟨Nat.mul_pos (Nat.pos_of_ne_zero lasting) (by decide), Nat.mul_le_mul_right _ capped⟩

namespace Limiter

variable {l : Limiter} {b : Blocklist} {a x : Address} {now : Instant}

theorem escalationFactor_pos {level : Nat} : 0 < escalationFactor level := by
  simp only [escalationFactor]
  split
  · exact Nat.pow_pos (by decide)
  · decide

theorem status?_escalate (lasting : 0 < l.baseBlock) (capped : 0 < b.cap) (a : Address)
    (e : LimiterEntry) (reason : Reason) (now : Instant) :
    ∃ length count, (l.escalate b a e reason now).answer = .block reason (some length) ∧
      (l.escalate b a e reason now).blocklist.status? a now =
        some ⟨reason, some length, count⟩ := by
  have requested (level : Nat) : 0 < Duration.times l.baseBlock (escalationFactor level) :=
    Nat.lt_min.mpr ⟨Nat.mul_pos lasting escalationFactor_pos, by decide⟩
  have placed : 0 < min (Duration.times l.baseBlock (escalationFactor (min (e.level + 1) max32)))
      b.cap := Nat.lt_min.mpr ⟨requested _, capped⟩
  exact ⟨_, _, rfl, Blocklist.status?_block b a reason rfl placed now⟩

theorem check_eq_block_iff (lasting : 0 < l.baseBlock) (capped : 0 < b.cap)
    (remaining : Option Duration) :
    (∃ reason, (l.check b a now).answer = .block reason remaining) ↔
      ∃ status, (l.check b a now).blocklist.status? a now = some status ∧
        status.remaining = remaining := by
  have settled := (Blocklist.Lapse.settle b a now).status?_eq a
  have decision := l.check_decision b a now
  generalize l.check b a now = r at decision
  cases decision with
  | blocked status => simp [status]
  | unguarded free | allowed free | throttled free => simp [settled, free]
  | disreputable | excessive | tipped =>
      have capped := (Blocklist.Lapse.settle b a now).cap.symm ▸ capped
      obtain ⟨length, count, answer, stands⟩ := status?_escalate lasting capped a _ _ now
      rw [answer, stands]
      simp

theorem penalize_eq_some_iff (lasting : 0 < l.baseBlock) (capped : 0 < b.cap) (amount : Float)
    {v : Verdict} :
    (l.penalize b a amount now).answer = some v ↔
      b.status? a now = none ∧ ∃ status,
        (l.penalize b a amount now).blocklist.status? a now = some status ∧
          v = .block status.reason status.remaining := by
  have penalty := l.penalize_penalty b a amount now
  generalize l.penalize b a amount now = r at penalty
  cases penalty with
  | ignored | added | known =>
      simp only [reduceCtorEq, false_iff, not_and, not_exists]
      intro free status blocked
      rw [free] at blocked
      contradiction
  | tipped _ _ free =>
      have capped := (Blocklist.Lapse.settle b a now).cap.symm ▸ capped
      obtain ⟨length, count, answer, stands⟩ :=
        status?_escalate lasting capped a (l.penalized a amount now) .reputationBlocked now
      simp [answer, stands, Blocklist.free_of_not_blocked free, eq_comm]

theorem free_of_check (opened : ∀ reason remaining,
    (l.check b a now).answer ≠ .block reason remaining) : b.status? a now = none := by
  have decision := l.check_decision b a now
  generalize l.check b a now = r at decision opened
  cases decision with
  | blocked => exact absurd rfl (opened _ _)
  | unguarded free | disreputable free | allowed free | excessive free | tipped free
  | throttled free => exact free

/-- A check concerns the block of its own address only. -/
theorem check_elsewhere (l : Limiter) (b : Blocklist) (other : x ≠ a) (now : Instant) :
    (l.check b x now).blocklist.entries.get? a = b.entries.get? a := by
  have settled := b.get?_settle_of_ne other now
  have decision := l.check_decision b x now
  generalize l.check b x now = r at decision
  cases decision with
  | blocked => rfl
  | unguarded | allowed | throttled => exact settled
  | disreputable | excessive | tipped =>
      exact (Blocklist.get?_block ..).trans ((if_neg other).trans settled)

theorem penalize_elsewhere (l : Limiter) (b : Blocklist) (other : x ≠ a) (amount : Float)
    (now : Instant) : (l.penalize b x amount now).blocklist.entries.get? a = b.entries.get? a := by
  have settled := b.get?_settle_of_ne other now
  have penalty := l.penalize_penalty b x amount now
  generalize l.penalize b x amount now = r at penalty
  cases penalty with
  | ignored | added | known => rfl
  | tipped => exact (Blocklist.get?_block ..).trans ((if_neg other).trans settled)

end Limiter

def GuardAction.subject? : GuardAction → Option Address
  | .check a | .penalize a _ | .reset a | .block a _ _ | .unblock a => some a
  | .view _ | .score _ | .lookUp _ | .purgeIdle | .purgeBlocks => none

namespace Guard

variable {g : Guard} {a : Address} {e : BlockEntry} {now : Instant}

/-- The entry of an address that nobody acts on stays, or goes when its block has ended. -/
theorem entry_act (g : Guard) (now : Instant) {action : GuardAction}
    (elsewhere : action.subject? ≠ some a) :
    (g.act now action).2.blocklist.entries.get? a = g.blocklist.entries.get? a ∨
      (g.act now action).2.blocklist.entries.get? a = none ∧
        ∀ e, g.blocklist.entries.get? a = some e → e.isExpired now = true := by
  cases action with
  | check x =>
      exact .inl (g.limiter.check_elsewhere _ (fun same => elsewhere (congrArg some same)) now)
  | penalize x amount =>
      exact .inl
        (g.limiter.penalize_elsewhere _ (fun same => elsewhere (congrArg some same)) amount now)
  | block x reason length =>
      have other : x ≠ a := fun same => elsewhere (congrArg some same)
      exact .inl ((Blocklist.get?_block ..).trans (if_neg other))
  | unblock x =>
      have other : x ≠ a := fun same => elsewhere (congrArg some same)
      exact .inl ((AddressMap.get?_erase ..).trans (if_neg other))
  | lookUp x => exact (Blocklist.Lapse.settle g.blocklist x now).entry a
  | purgeBlocks => exact (Blocklist.Lapse.purge g.blocklist now).entry a
  | purgeIdle => exact (g.limiter.lapse_purgeIdle g.blocklist now).entry a
  | view | score | reset => exact .inl rfl

def Holds (g : Guard) (a : Address) (e : BlockEntry) (t : Instant) : Prop :=
  g.blocklist.entries.get? a = some e ∨
    g.blocklist.entries.get? a = none ∧ e.isExpired t = true

theorem Holds.act {t : Instant} (holds : g.Holds a e t) {action : GuardAction} (past : now ≤ t)
    (elsewhere : action.subject? ≠ some a) : (g.act now action).2.Holds a e t := by
  rcases g.entry_act now elsewhere with same | ⟨gone, expired⟩
  · rwa [Holds, same]
  · rcases holds with listed | ⟨-, ended⟩
    · exact .inr ⟨gone, BlockEntry.isExpired_mono past (expired e listed)⟩
    · exact .inr ⟨gone, ended⟩

theorem Holds.run {t : Instant} (holds : g.Holds a e t) {steps : List (Instant × GuardAction)}
    (elsewhere : ∀ step ∈ steps, step.1 ≤ t ∧ step.2.subject? ≠ some a) :
    (g.run steps).2.Holds a e t := by
  induction steps generalizing g with
  | nil => exact holds
  | cons step rest ih =>
      obtain ⟨past, other⟩ := elsewhere _ (List.mem_cons_self ..)
      exact ih (holds.act past other) fun step later =>
        elsewhere step (List.mem_cons_of_mem _ later)

theorem Holds.isBlocked_iff {t : Instant} (holds : g.Holds a e t) :
    g.blocklist.isBlocked a t = true ↔ e.isExpired t = false := by
  simp only [Blocklist.isBlocked, Blocklist.status?]
  rcases holds with listed | ⟨gone, expired⟩
  · rw [listed]
    cases expired : e.isExpired t <;> simp [expired]
  · simp [gone, expired]

end Guard

/-- A block lasts as long as it was said to remain. -/
theorem BlockEntry.lasts_iff_of_lasts {e : BlockEntry} {now t : Instant}
    (lasts : e.isExpired now = false) :
    e.isExpired t = false ↔ ∀ d, (e.status now).remaining = some d → t < now + d := by
  simp only [isExpired, status] at lasts ⊢
  cases expires : e.expires with
  | none => simp
  | some ends =>
      simp only [expires, Option.any_some, decide_eq_false_iff_not, Nat.not_le] at lasts
      simp only [Option.any_some, decide_eq_false_iff_not, Nat.not_le, Option.map_some,
        Option.some.injEq, forall_eq', Instant.since, Nat.add_sub_cancel' (Nat.le_of_lt lasts)]

theorem Registry.register_eq_blocked_iff {r : Registry} {b : Blocklist} {a : Address}
    {now : Instant} :
    (∃ reason, (r.register b b a now).1 = .error (.blocked a reason)) ↔
      b.isBlocked a now = true := by
  simp only [register, Blocklist.isBlocked]
  cases status : b.status? a now with
  | some block => simp
  | none =>
      simp only [Option.isSome_none, Bool.false_eq_true, iff_false]
      split <;> simp

namespace Guard

variable {g : Guard} {a : Address} {now : Instant}

/-- Whatever is done elsewhere until an instant `t`, no registry takes the address in as long as
the block of this length lasts, and none refuses it for a block after that. -/
def KeepsOut (g : Guard) (a : Address) (now : Instant) (length : Option Duration) : Prop :=
  ∀ steps t, (∀ step ∈ steps, step.1 ≤ t ∧ step.2.subject? ≠ some a) →
    ∀ r : Registry,
      let b := (g.run steps).2.blocklist
      (∃ reason, (r.register b b a t).1 = .error (.blocked a reason)) ↔
        ∀ d, length = some d → t < now + d

theorem keepsOut_of_status {status : BlockStatus}
    (blocked : g.blocklist.status? a now = some status) : g.KeepsOut a now status.remaining := by
  intro steps t elsewhere r
  obtain ⟨e, listed, lasts, rfl⟩ := Blocklist.status?_eq_some_iff.mp blocked
  have holds : g.Holds a e t := .inl listed
  dsimp only
  rw [Registry.register_eq_blocked_iff, (holds.run elsewhere).isBlocked_iff,
    BlockEntry.lasts_iff_of_lasts lasts]

def ofState (s : Settings) (entries : AddressMap LimiterEntry) (blocks : AddressMap BlockEntry) :
    Guard where
  limiter := { Limiter.ofSettings s with entries }
  blocklist := { Blocklist.ofSettings s.blocklist with entries := blocks }

/-- What a check or a penalty answers is how the address stands afterwards, and stands until the
block that was told of ends. -/
theorem verdicts_agree (s : Settings) (valid : s.Valid) (entries : AddressMap LimiterEntry)
    (blocks : AddressMap BlockEntry) (a : Address) (now : Instant) :
    let g := ofState s entries blocks
    let checked := g.limiter.check g.blocklist a now
    let penalized := fun amount => g.limiter.penalize g.blocklist a amount now
    (∀ remaining, (∃ reason, checked.answer = .block reason remaining) ↔
      ∃ status, checked.blocklist.status? a now = some status ∧ status.remaining = remaining) ∧
    (checked.answer = .allow ∨ (∃ reason wait, checked.answer = .throttle reason wait) →
      g.blocklist.status? a now = none) ∧
    (∀ amount v, (penalized amount).answer = some v ↔
      g.blocklist.status? a now = none ∧
        ∃ status, (penalized amount).blocklist.status? a now = some status ∧
          v = .block status.reason status.remaining) ∧
    (∀ x e, g.blocklist.entries.get? x = some e → e.isExpired now = false →
      checked.blocklist.entries.get? x = some e ∧
        ∀ amount, (penalized amount).blocklist.entries.get? x = some e) ∧
    (∀ reason length, checked.answer = .block reason length →
      KeepsOut ⟨checked.limiter, checked.blocklist⟩ a now length) ∧
    ∀ amount reason length, (penalized amount).answer = some (.block reason length) →
      KeepsOut ⟨(penalized amount).limiter, (penalized amount).blocklist⟩ a now length := by
  intro g checked penalized
  obtain ⟨lasting, room⟩ := valid.blocks
  have capped : 0 < g.blocklist.cap := Nat.lt_of_lt_of_le lasting room
  have check_iff (remaining : Option Duration) :
      (∃ reason, checked.answer = .block reason remaining) ↔
        ∃ status, checked.blocklist.status? a now = some status ∧
          status.remaining = remaining :=
    Limiter.check_eq_block_iff lasting capped remaining
  have penalize_iff (amount : Float) {v : Verdict} :
      (penalized amount).answer = some v ↔
        g.blocklist.status? a now = none ∧
          ∃ status, (penalized amount).blocklist.status? a now = some status ∧
            v = .block status.reason status.remaining :=
    Limiter.penalize_eq_some_iff lasting capped amount
  refine ⟨check_iff, ?_, fun amount v => penalize_iff amount, ?_, ?_, ?_⟩
  · intro answer
    refine Limiter.free_of_check (l := g.limiter) ?_
    intro reason remaining blocked
    rcases answer with allowed | ⟨reason, wait, throttled⟩
    · cases allowed.symm.trans blocked
    · cases throttled.symm.trans blocked
  · intro x e listed lasts
    exact ⟨(g.limiter.check_enforced g.blocklist a now).keeps listed lasts, fun amount =>
      (g.limiter.penalize_enforced g.blocklist a now amount).keeps listed lasts⟩
  · intro reason length blocked
    obtain ⟨status, stands, rfl⟩ := (check_iff length).mp ⟨reason, blocked⟩
    exact keepsOut_of_status stands
  · intro amount reason length blocked
    obtain ⟨-, status, stands, same⟩ := (penalize_iff amount).mp blocked
    cases same
    exact keepsOut_of_status stands

def sternSettings : Settings where
  limiter := { maxEventsPerWindow := 1, escalationThreshold := 1 }

def visitor : Address := .v4 #v[203, 0, 113, 9]

def neighbour : Address := .v4 #v[203, 0, 113, 10]

def firstVisit : AddressMap LimiterEntry :=
  ((Limiter.ofSettings sternSettings).check (.ofSettings {}) visitor 0).limiter.entries

/-- A visitor that is back after half a second is blocked for thirty, and is refused for as long,
whatever is asked about other addresses meanwhile. -/
theorem visitor_kept_out :
    let g := ofState sternSettings firstVisit .empty
    let checked := g.limiter.check g.blocklist visitor 500000000
    let after := (run ⟨checked.limiter, checked.blocklist⟩ [(1000000000, .check neighbour)]).2
    sternSettings.Valid ∧ checked.answer = .block .rateExceeded (some 30000000000) ∧
      ∀ r : Registry,
        (∃ reason, (r.register after.blocklist after.blocklist visitor 30499999999).1 =
          .error (.blocked visitor reason)) ∧
        ¬∃ reason, (r.register after.blocklist after.blocklist visitor 30500000000).1 =
          .error (.blocked visitor reason) := by
  intro g checked after
  have valid : sternSettings.Valid := by decide +kernel
  have answer : checked.answer = .block .rateExceeded (some 30000000000) := by decide +kernel
  obtain ⟨-, -, -, -, keeps_out, -⟩ :=
    verdicts_agree sternSettings valid firstVisit .empty visitor 500000000
  have refused := keeps_out _ _ answer [(1000000000, .check neighbour)]
  refine ⟨valid, answer, fun r => ⟨(refused 30499999999 ?_ r).mpr ?_, fun blocked => ?_⟩⟩
  · simp [GuardAction.subject?, neighbour, visitor]
  · simp
  · have early := (refused 30500000000
      (by simp [GuardAction.subject?, neighbour, visitor]) r).mp blocked _ rfl
    exact absurd early (by decide)

end Guard

end AdmissionGate
