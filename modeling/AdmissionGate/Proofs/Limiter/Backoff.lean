import AdmissionGate.Proofs.Limiter.Accord
import AdmissionGate.Proofs.Limiter.Locality
import AdmissionGate.Proofs.Limiter.Throttles
import AdmissionGate.Proofs.Stores.PlainBlocks

/-!
How long the blocks of an entry get. The level of an entry counts its escalations since it was
made, whatever brought them about, and nothing but the loss of the entry takes the count back. So
the length of a block depends on which one of the entry it is: the first has the base length and
each has twice the length of the one before, until the factor or the length comes to its bound.
-/

namespace AdmissionGate

namespace BlockSettings

def backoff (s : BlockSettings) (k : Nat) : Duration :=
  min s.maxBlock (s.baseBlock * min (Nat.pow 2 (k - 1)) max32)

variable {s : BlockSettings}

theorem backoff_mono {j k : Nat} (le : j ≤ k) : s.backoff j ≤ s.backoff k := by
  have doubled : Nat.pow 2 (j - 1) ≤ Nat.pow 2 (k - 1) :=
    Nat.pow_le_pow_right Nat.two_pos (Nat.sub_le_sub_right le 1)
  have factor : min (Nat.pow 2 (j - 1)) max32 ≤ min (Nat.pow 2 (k - 1)) max32 :=
    Nat.le_min.mpr ⟨Nat.le_trans (Nat.min_le_left ..) doubled, Nat.min_le_right ..⟩
  have longer := Nat.mul_le_mul_left s.baseBlock factor
  exact Nat.le_min.mpr ⟨Nat.min_le_left .., Nat.le_trans (Nat.min_le_right ..) longer⟩

theorem backoff_pos (lasting : 0 < s.baseBlock) (capped : 0 < s.maxBlock) (k : Nat) :
    0 < s.backoff k := by
  have factor : 0 < min (Nat.pow 2 (k - 1)) max32 :=
    Nat.lt_min.mpr ⟨Nat.pow_pos Nat.two_pos, by decide⟩
  exact Nat.lt_min.mpr ⟨capped, Nat.mul_pos lasting factor⟩

/-- The cap can be told, so that the sum which stops at the longest span is not seen. -/
theorem maxBlock_le_longest (s : BlockSettings) : s.maxBlock ≤ Duration.longest := by
  have word : s.maxBlock ≤ max64 * Duration.nanosPerMilli :=
    Nat.mul_le_mul_right _ (Nat.le_of_lt_succ s.maxBlockMs.toNat_lt)
  exact Nat.le_trans word (by decide)

end BlockSettings

/-- A block whose end can be told. -/
theorem Blocklist.overrun_block {b : Blocklist} {a : Address} {reason : Reason}
    {requested : Option Duration} {length : Duration} {now : Instant}
    (placed : b.effective requested = some length) (told : now + length ≤ Instant.latest) :
    (b.block a reason requested now).overrun = b.overrun := by
  simp [block, placed, Nat.not_lt.mpr told]

namespace Limiter

theorem saturated {n : Nat} (large : 32 ≤ n) : min (Nat.pow 2 n) max32 = max32 := by
  have bound : Nat.pow 2 32 ≤ Nat.pow 2 n := Nat.pow_le_pow_right Nat.two_pos large
  exact Nat.min_eq_right (Nat.le_trans (by decide) bound)

theorem escalationFactor_eq (level : Nat) :
    escalationFactor level = min (Nat.pow 2 (level - 1)) max32 := by
  rw [escalationFactor]
  split
  · rename_i small
    have bound : Nat.pow 2 (level - 1) ≤ Nat.pow 2 31 :=
      Nat.pow_le_pow_right Nat.two_pos (Nat.le_of_lt_succ small)
    exact (Nat.min_eq_left (Nat.le_trans bound (by decide))).symm
  · rename_i large
    exact (saturated (Nat.le_of_not_lt large)).symm

/-- The factor has come to its bound long before the level has. -/
theorem escalationFactor_min (k : Nat) :
    escalationFactor (min k max32) = min (Nat.pow 2 (k - 1)) max32 := by
  rw [escalationFactor_eq]
  rcases Nat.lt_or_ge max32 k with beyond | within
  · have above : 33 ≤ max32 := by decide
    rw [Nat.min_eq_right (Nat.le_of_lt beyond), saturated (by omega), saturated (by omega)]
  · rw [Nat.min_eq_left within]

theorem effective_escalate {l : Limiter} {b : Blocklist} {s : BlockSettings}
    (base : l.baseBlock = s.baseBlock) (cap : b.cap = s.maxBlock) (k : Nat) :
    b.effective (some (Duration.times l.baseBlock (escalationFactor (min k max32)))) =
      some (s.backoff k) := by
  have within := s.maxBlock_le_longest
  rw [Blocklist.effective, Option.map_some, Duration.times, base, cap, escalationFactor_min,
    Nat.min_assoc, Nat.min_eq_right within, Nat.min_comm, BlockSettings.backoff]

end Limiter

/-- The verdict in an answer; only a check and a penalty that blocks have one. -/
def GuardAnswer.verdict? : GuardAnswer → Option Verdict
  | .verdict v => some v
  | .penalty v => v
  | _ => none

namespace Guard

variable {g g' : Guard} {s : Settings} {a : Address} {count k : Nat} {now : Instant}
  {action : GuardAction}

/-- What the `k`-th escalation of an address answers, and what it leaves behind. -/
structure Escalated (s : BlockSettings) (a : Address) (now : Instant) (k : Nat) (g : Guard)
    (answer : Option Verdict) (after : Guard) : Prop where
  /-- The block that is answered is the one that is placed. -/
  placed : ∃ reason count, answer = some (.block reason (some (s.backoff k))) ∧
    after.blocklist.status? a now = some ⟨reason, some (s.backoff k), count⟩
  /-- The level fits its counter. -/
  level : (after.limiter.entries.get? a).map (·.level) = some (min k max32)
  /-- An end that can be told is told. -/
  told : now + s.maxBlock ≤ Instant.latest →
    after.blocklist.overrun = g.blocklist.overrun ∧ after.limiter.overrun = g.limiter.overrun

/-- The entry of an address has been through so many escalations, as its level says. -/
structure Counts (g : Guard) (s : Settings) (a : Address) (count : Nat) : Prop where
  base : g.limiter.baseBlock = s.blocklist.baseBlock
  cap : g.blocklist.cap = s.blocklist.maxBlock
  level : ∀ e, g.limiter.entries.get? a = some e → e.level = min count max32
  unknown : g.limiter.isTracked a = false → count = 0

namespace Counts

theorem entryFor (counts : g.Counts s a count) (now : Instant) :
    (g.limiter.entryFor a now).level = min count max32 := by
  simp only [Limiter.entryFor, Limiter.refresh]
  cases found : g.limiter.entries.get? a with
  | some e => exact counts.level e found
  | none =>
      rw [counts.unknown (by simp [Limiter.isTracked, found])]
      rfl

theorem escalate (counts : g.Counts s a count) (valid : s.Valid) {e : LimiterEntry}
    (level : e.level = min count max32) (reason : Reason) (now : Instant) :
    let r := g.limiter.escalate (g.blocklist.settle a now) a e reason now
    Escalated s.blocklist a now (count + 1) g (some r.answer) ⟨r.limiter, r.blocklist⟩ := by
  obtain ⟨lasting, room⟩ := valid.blocks
  obtain ⟨cap, overrun⟩ := g.blocklist.settle_frame a now
  have next : min (e.level + 1) max32 = min (count + 1) max32 := by
    rw [level]
    omega
  have placed := Limiter.effective_escalate counts.base (cap.trans counts.cap) (count + 1)
  have some_time := BlockSettings.backoff_pos lasting (Nat.lt_of_lt_of_le lasting room) (count + 1)
  simp only [Limiter.escalate, next, placed]
  refine ⟨⟨reason, _, rfl, Blocklist.status?_block _ a reason placed some_time now⟩, ?_,
    fun told => ⟨?_, rfl⟩⟩
  · rw [Limiter.withEntry, AddressMap.get?_insert, if_pos rfl, Option.map_some]
  · have within : now + s.blocklist.backoff (count + 1) ≤ now + s.blocklist.maxBlock :=
      Nat.add_le_add_left (Nat.min_le_left ..) now
    exact (Blocklist.overrun_block placed (Nat.le_trans within told)).trans overrun

end Counts

/-- Every way of escalating places the block that is due. -/
theorem act_escalated (counts : g.Counts s a count) (valid : s.Valid)
    (escalates : g.escalates a now action = true) :
    Escalated s.blocklist a now (count + 1) g (g.act now action).1.verdict?
      (g.act now action).2 := by
  have level := counts.entryFor now
  cases action with
  | check x =>
      simp only [Guard.escalates, Bool.and_eq_true, decide_eq_true_eq,
        Bool.not_eq_true'] at escalates
      obtain ⟨⟨rfl, free⟩, blocks⟩ := escalates
      have decision := g.limiter.check_decision g.blocklist x now
      simp only [act, GuardAnswer.verdict?]
      generalize g.limiter.check g.blocklist x now = r at decision blocks
      cases decision with
      | blocked status => simp [Blocklist.isBlocked, status] at free
      | unguarded | allowed | throttled => cases blocks
      | disreputable | excessive | tipped =>
          refine counts.escalate valid ?_ _ now
          exact level
  | penalize x amount =>
      simp only [Guard.escalates, Bool.and_eq_true, decide_eq_true_eq] at escalates
      obtain ⟨rfl, blocks⟩ := escalates
      have penalty := g.limiter.penalize_penalty g.blocklist x amount now
      simp only [act, GuardAnswer.verdict?]
      generalize g.limiter.penalize g.blocklist x amount now = r at penalty blocks
      cases penalty with
      | ignored | added | known => cases blocks
      | tipped =>
          refine counts.escalate valid ?_ _ now
          exact level
  | _ => cases escalates

/-- Nothing else changes the level. -/
theorem act_level (counts : g.Counts s a count) (calm : g.escalates a now action = false)
    {e : LimiterEntry} (found : (g.act now action).2.limiter.entries.get? a = some e) :
    e.level = min count max32 := by
  -- Whatever takes the place of the entry has its level.
  have kept {e' : LimiterEntry} (level : e'.level = min count max32) {l : Limiter}
      (found : (l.withEntry a e').entries.get? a = some e) : e.level = min count max32 := by
    rw [Limiter.withEntry, AddressMap.get?_insert, if_pos rfl] at found
    cases found
    exact level
  have level := counts.entryFor now
  cases about : action.about? with
  | none =>
      cases action with
      | purgeIdle =>
          simp only [act, Limiter.purgeIdle, AddressMap.get?_filter, AddressMap.get?_map] at found
          obtain ⟨before, -⟩ := Option.filter_eq_some_iff.mp found
          obtain ⟨old, there, rfl⟩ := Option.map_eq_some_iff.mp before
          split <;> exact counts.level old there
      | purgeBlocks => exact counts.level e found
      | _ => cases about
  | some x =>
      by_cases own : x = a
      · subst own
        cases action with
        | check y =>
            cases about
            have decision := g.limiter.check_decision g.blocklist x now
            simp only [Guard.escalates, act] at calm found
            generalize g.limiter.check g.blocklist x now = r at decision calm found
            cases decision with
            | blocked | unguarded => exact counts.level e found
            | allowed | throttled =>
                refine kept ?_ found
                exact level
            | disreputable free | excessive free | tipped free =>
                simp [Blocklist.isBlocked, free, Limiter.escalate, Verdict.isBlocked] at calm
        | penalize y amount =>
            cases about
            have penalty := g.limiter.penalize_penalty g.blocklist x amount now
            simp only [Guard.escalates, act] at calm found
            generalize g.limiter.penalize g.blocklist x amount now = r at penalty calm found
            cases penalty with
            | ignored => exact counts.level e found
            | added | known =>
                refine kept ?_ found
                exact level
            | tipped => simp at calm
        | reset y =>
            cases about
            simp [act, Limiter.reset] at found
        | purgeIdle | purgeBlocks => cases about
        | view | score | block | unblock | lookUp => exact counts.level e found
      · rw [(g.act_elsewhere now about own).limiter.entry] at found
        exact counts.level e found

/-- The lengths that the blocks go by stay as they are. -/
theorem act_lengths (g : Guard) (now : Instant) (action : GuardAction) :
    (g.act now action).2.limiter.baseBlock = g.limiter.baseBlock ∧
      (g.act now action).2.blocklist.cap = g.blocklist.cap := by
  cases action with
  | check x =>
      have decision := g.limiter.check_decision g.blocklist x now
      have settled := (g.blocklist.settle_frame x now).1
      simp only [act]
      generalize g.limiter.check g.blocklist x now = r at decision
      cases decision with
      | blocked => exact ⟨rfl, rfl⟩
      | _ => exact ⟨rfl, settled⟩
  | penalize x amount =>
      have penalty := g.limiter.penalize_penalty g.blocklist x amount now
      have settled := (g.blocklist.settle_frame x now).1
      simp only [act]
      generalize g.limiter.penalize g.blocklist x amount now = r at penalty
      cases penalty with
      | tipped => exact ⟨rfl, settled⟩
      | _ => exact ⟨rfl, rfl⟩
  | lookUp x => exact ⟨rfl, (g.blocklist.settle_frame x now).1⟩
  | _ => exact ⟨rfl, rfl⟩

def recountEscalations (g : Guard) (a : Address) (count : Nat) (now : Instant)
    (action : GuardAction) : Nat :=
  if (g.act now action).2.limiter.isTracked a then
    if g.escalates a now action then count + 1 else count
  else 0

/-- How often the entry of an address has escalated since it was made, after a run. -/
def escalationsSince (a : Address) (count : Nat) (g : Guard) : List (Instant × GuardAction) → Nat
  | [] => count
  | (now, action) :: rest =>
      escalationsSince a (g.recountEscalations a count now action) (g.act now action).2 rest

theorem counts_act (counts : g.Counts s a count) (valid : s.Valid) (now : Instant)
    (action : GuardAction) :
    (g.act now action).2.Counts s a (g.recountEscalations a count now action) := by
  obtain ⟨base, cap⟩ := g.act_lengths now action
  refine ⟨base.trans counts.base, cap.trans counts.cap, fun e found => ?_, fun unknown => ?_⟩
  · have tracked : (g.act now action).2.limiter.isTracked a = true := by
      simp [Limiter.isTracked, found]
    rw [recountEscalations, if_pos tracked]
    split
    · rename_i escalates
      have level := (act_escalated counts valid escalates).level
      rw [found] at level
      exact Option.some.inj level
    · rename_i calm
      rw [Bool.not_eq_true] at calm
      exact act_level counts calm found
  · rw [recountEscalations, if_neg (by simp [unknown])]

theorem counts_run (counts : g.Counts s a count) (valid : s.Valid)
    (steps : List (Instant × GuardAction)) :
    (g.run steps).2.Counts s a (g.escalationsSince a count steps) := by
  induction steps generalizing g count with
  | nil => exact counts
  | cons step rest ih => exact ih (counts_act counts valid step.1 step.2)

/-- An entry that is kept does not lose count. -/
theorem le_escalationsSince {steps : List (Instant × GuardAction)}
    (kept : ∀ part, part <+: steps → (g.run part).2.limiter.isTracked a = true) :
    count ≤ g.escalationsSince a count steps := by
  induction steps generalizing g count with
  | nil => exact Nat.le_refl count
  | cons step rest ih =>
      have here : (g.act step.1 step.2).2.limiter.isTracked a = true :=
        kept [step] (List.prefix_append [step] rest)
      have counted : count ≤ g.recountEscalations a count step.1 step.2 := by
        rw [recountEscalations, if_pos here]
        split
        · exact Nat.le_succ count
        · exact Nat.le_refl count
      refine Nat.le_trans counted (ih fun part before => kept (step :: part) ?_)
      exact (List.prefix_cons_inj step).mpr before

/-- The `k`-th escalation of an entry places a block of the `k`-th length, whatever brought it
about and whatever else was done, and no later one of the entry is shorter. -/
theorem backoff_law (settings : Settings) (valid : settings.Valid)
    (steps : List (Instant × GuardAction)) (a : Address) (now : Instant) (action : GuardAction) :
    let start : Guard := ⟨.ofSettings settings, .ofSettings settings.blocklist⟩
    let g := (start.run steps).2
    let k := start.escalationsSince a 0 steps + 1
    let acted := g.act now action
    g.escalates a now action = true →
      Escalated settings.blocklist a now k g acted.1.verdict? acted.2 ∧
        ∀ more, (∀ part, part <+: more → (acted.2.run part).2.limiter.isTracked a = true) →
          let g' := (acted.2.run more).2
          ∀ later action', g'.escalates a later action' = true →
            ∃ reason length,
              (g'.act later action').1.verdict? = some (.block reason (some length)) ∧
                settings.blocklist.backoff k ≤ length := by
  intro start g k acted escalates
  have fresh : start.Counts settings a 0 :=
    ⟨rfl, rfl, fun e found => by simp [start, Limiter.ofSettings] at found, fun _ => rfl⟩
  have counts := counts_run fresh valid steps
  have escalated := act_escalated counts valid escalates
  -- The count goes on from this escalation, since the entry is kept.
  refine ⟨escalated, fun more kept => ?_⟩
  intro g' later action' again
  have tracked : (g.act now action).2.limiter.isTracked a = true := kept [] List.nil_prefix
  have next : g.recountEscalations a (start.escalationsSince a 0 steps) now action = k := by
    rw [recountEscalations, if_pos tracked, if_pos escalates]
  have counts' := counts_run (next ▸ counts_act counts valid now action) valid more
  obtain ⟨reason, _, answer, -⟩ := (act_escalated counts' valid again).placed
  have further : k ≤ acted.2.escalationsSince a k more := le_escalationsSince kept
  exact ⟨reason, _, answer, BlockSettings.backoff_mono (Nat.le_succ_of_le further)⟩

def relentlessSettings : Settings where
  limiter := { maxEventsPerWindow := 0, escalationThreshold := 1 }
  blocklist := { baseBlockMs := 1, maxBlockMs := 5000000000 }

def relentlessSteps : List (Instant × GuardAction) :=
  (List.range 33).flatMap fun t => [(t, .check visitor), (t, .unblock visitor)]

/-- The next block is longer by the largest factor that there is. -/
theorem visitor_blocks_grow :
    let start : Guard := ⟨.ofSettings relentlessSettings, .ofSettings relentlessSettings.blocklist⟩
    let g := (start.run relentlessSteps).2
    let acted := g.act 40 (.penalize visitor 200.0)
    (∃ reason, acted.1.verdict? = some (.block reason (some (4294967295 * 1000000)))) ∧
      acted.2.blocklist.overrun = g.blocklist.overrun := by
  intro start g acted
  have escalations : start.escalationsSince visitor 0 relentlessSteps = 33 := by decide +kernel
  have escalates : g.escalates visitor 40 (.penalize visitor 200.0) = true := by decide +kernel
  obtain ⟨⟨⟨reason, _, answer, -⟩, -, told⟩, -⟩ := backoff_law relentlessSettings
    (by decide +kernel) relentlessSteps visitor 40 (.penalize visitor 200.0) escalates
  have length : relentlessSettings.blocklist.backoff 34 = 4294967295 * 1000000 := by
    decide +kernel
  have representable : 40 + relentlessSettings.blocklist.maxBlock ≤ Instant.latest := by decide
  rw [escalations, length] at answer
  refine ⟨⟨reason, answer⟩, ?_⟩
  simpa only [acted, g, start] using (told representable).1

end Guard

end AdmissionGate
