import AdmissionGate.Proofs.Limiter.Backoff
import AdmissionGate.Proofs.Limiter.Entries

/-!
How long the entry of a blocked address outlives its block. The idle time of an entry runs from
when it was last seen, and a sweep that comes across it during the block counts as seeing it; the
end of the block does not. So the entry is kept for the idle time after the last sweep during the
block, or after the escalation if there was none; and if that is over when the block ends, the
next sweep drops the entry, with its level.
-/

namespace AdmissionGate

theorem Instant.since_lt_iff {now before : Instant} {length : Duration} (le : before ≤ now) :
    since now before < length ↔ now < before + length := by
  rw [since, Nat.sub_lt_iff_lt_add le, Nat.add_comm]

def idleSweeps (steps : List (Instant × GuardAction)) : List Instant :=
  steps.filterMap fun
    | (t, .purgeIdle) => some t
    | _ => none

/-- When an address was last seen, which was seen at `now` and is blocked until `ends`: sweeps
during the block count. -/
def idleSince (now ends : Instant) (sweeps : List Instant) : Instant :=
  (sweeps.filter (· < ends)).foldl max now

/-- An entry outlasts sweeps that come before the block has ended, or before the idle time is
over. -/
def Outlasts (now ends : Instant) (ttl : Duration) (sweeps : List Instant) : Prop :=
  ∀ t ∈ sweeps, t < max ends (idleSince now ends sweeps + ttl)

instance (now ends : Instant) (ttl : Duration) (sweeps : List Instant) :
    Decidable (Outlasts now ends ttl sweeps) :=
  inferInstanceAs (Decidable (∀ t ∈ sweeps, t < max ends (idleSince now ends sweeps + ttl)))

section Sweeps

variable {now ends t : Instant} {ttl : Duration} {sweeps : List Instant}

theorem mem_idleSweeps {steps : List (Instant × GuardAction)} (member : t ∈ idleSweeps steps) :
    t ∈ steps.map (·.1) := by
  obtain ⟨⟨u, action⟩, there, sweep⟩ := List.mem_filterMap.mp member
  cases action with
  | purgeIdle =>
      cases sweep
      exact List.mem_map_of_mem (f := (·.1)) there
  | _ => cases sweep

/-- Sweeps that come after the block make no difference. -/
theorem idleSince_of_le (late : ∀ t ∈ sweeps, ends ≤ t) : idleSince now ends sweeps = now := by
  have none : sweeps.filter (· < ends) = [] := by
    rw [List.filter_eq_nil_iff]
    intro t member early
    exact Nat.not_lt.mpr (late t member) (of_decide_eq_true early)
  rw [idleSince, none]
  rfl

theorem outlasts_cons_of_lt (early : t < ends) :
    Outlasts now ends ttl (t :: sweeps) ↔ Outlasts (max now t) ends ttl sweeps := by
  have seen : idleSince now ends (t :: sweeps) = idleSince (max now t) ends sweeps := by
    simp [idleSince, early]
  simp only [Outlasts, seen, List.forall_mem_cons]
  exact and_iff_right (Nat.lt_of_lt_of_le early (Nat.le_max_left ..))

theorem outlasts_cons_of_le (late : ∀ u ∈ t :: sweeps, ends ≤ u) :
    Outlasts now ends ttl (t :: sweeps) ↔ t < now + ttl ∧ Outlasts now ends ttl sweeps := by
  have ended : ends ≤ t := late t (List.mem_cons_self ..)
  simp only [Outlasts, idleSince_of_le late, List.forall_mem_cons,
    idleSince_of_le fun u later => late u (List.mem_cons_of_mem _ later)]
  rw [lt_max_iff, or_iff_right (Nat.not_lt.mpr ended)]

end Sweeps

namespace Limiter

variable {l : Limiter} {b : Blocklist} {a : Address} {now : Instant}

theorem isBlocked_purgeIdle (l : Limiter) (b : Blocklist) (a : Address) (now : Instant) :
    (l.purgeIdle b now).blocklist.isBlocked a now = b.isBlocked a now := by
  rw [Blocklist.isBlocked, (l.lapse_purgeIdle b now).status?_eq, Blocklist.isBlocked]

/-- A sweep that finds an address blocked has seen it. -/
theorem get?_purgeIdle_of_blocked (blocked : b.isBlocked a now = true) :
    (l.purgeIdle b now).limiter.entries.get? a =
      (l.entries.get? a).map fun e => { e with lastSeen := max e.lastSeen now } := by
  have swept := (l.isBlocked_purgeIdle b a now).trans blocked
  simp only [purgeIdle] at swept
  simp only [purgeIdle, AddressMap.get?_filter, AddressMap.get?_map, swept, if_true, Bool.true_or]
  cases l.entries.get? a <;> rfl

/-- One that finds it free goes by when it was last seen. -/
theorem get?_purgeIdle_of_free (free : b.isBlocked a now = false) :
    (l.purgeIdle b now).limiter.entries.get? a =
      (l.entries.get? a).filter fun e => Instant.since now e.lastSeen < l.settings.idleTtl := by
  have swept := (l.isBlocked_purgeIdle b a now).trans free
  simp only [purgeIdle] at swept
  simp only [purgeIdle, AddressMap.get?_filter, AddressMap.get?_map, swept, Bool.false_or,
    Bool.false_eq_true, if_false]
  cases l.entries.get? a <;> rfl

end Limiter

namespace Guard

variable {g : Guard} {a : Address} {e : LimiterEntry} {block : BlockEntry}
  {now ends last : Instant} {action : GuardAction}

/-- An entry that is not acted on changes in sweeps only. -/
theorem limiter_entry_act (g : Guard) (now : Instant) (elsewhere : action.subject? ≠ some a)
    (calm : action ≠ .purgeIdle) :
    (g.act now action).2.limiter.entries.get? a = g.limiter.entries.get? a := by
  cases about : action.about? with
  | none =>
      cases action with
      | purgeIdle => exact absurd rfl calm
      | purgeBlocks => rfl
      | _ => cases about
  | some x =>
      by_cases own : x = a
      · subst own
        cases action with
        | check | penalize | reset | block | unblock => exact absurd about elsewhere
        | purgeIdle | purgeBlocks => cases about
        | view | score | lookUp => rfl
      · exact (g.act_elsewhere now about own).limiter.entry

/-- An entry that is gone does not come back unless somebody acts on the address. -/
theorem untracked_run (gone : g.limiter.entries.get? a = none)
    {steps : List (Instant × GuardAction)} (elsewhere : ∀ step ∈ steps, step.2.subject? ≠ some a) :
    (g.run steps).2.limiter.entries.get? a = none := by
  induction steps generalizing g with
  | nil => exact gone
  | cons step rest ih =>
      obtain ⟨t, action⟩ := step
      refine ih ?_ fun step later => elsewhere step (List.mem_cons_of_mem _ later)
      by_cases sweep : action = .purgeIdle
      · subst sweep
        cases blocked : g.blocklist.isBlocked a t with
        | true => exact (Limiter.get?_purgeIdle_of_blocked blocked).trans (by rw [gone]; rfl)
        | false => exact (Limiter.get?_purgeIdle_of_free blocked).trans (by rw [gone]; rfl)
      · have other := elsewhere (t, action) (List.mem_cons_self ..)
        exact (g.limiter_entry_act t other sweep).trans gone

/-- What a run leaves of the entry of an address that is blocked until `ends`. -/
theorem level_run (found : g.limiter.entries.get? a = some e) (seen : e.lastSeen ≤ last)
    (holds : g.Holds a block last) (expires : block.expires = some ends)
    {steps : List (Instant × GuardAction)}
    (ordered : (last :: steps.map (·.1)).Pairwise (· ≤ ·))
    (elsewhere : ∀ step ∈ steps, step.2.subject? ≠ some a) :
    ((g.run steps).2.limiter.entries.get? a).map (·.level) =
      if Outlasts e.lastSeen ends g.limiter.settings.idleTtl (idleSweeps steps) then some e.level
      else none := by
  induction steps generalizing g e last with
  | nil => simp [run, found, idleSweeps, Outlasts]
  | cons step rest ih =>
      obtain ⟨t, action⟩ := step
      rw [List.map_cons, List.pairwise_cons] at ordered
      have le : last ≤ t := ordered.1 t (List.mem_cons_self ..)
      have other : action.subject? ≠ some a := elsewhere (t, action) (List.mem_cons_self ..)
      have others : ∀ step ∈ rest, step.2.subject? ≠ some a :=
        fun step later => elsewhere step (List.mem_cons_of_mem _ later)
      have held : g.Holds a block t := holds.imp id fun lapsed =>
        ⟨lapsed.1, BlockEntry.isExpired_mono le lapsed.2⟩
      have seen : e.lastSeen ≤ t := Nat.le_trans seen le
      have after {e' : LimiterEntry}
          (kept : (g.act t action).2.limiter.entries.get? a = some e') (seen : e'.lastSeen ≤ t) :=
        ih kept seen (held.act (Nat.le_refl t) other) ordered.2 others
      rw [g.settings_act] at after
      by_cases sweep : action = .purgeIdle
      · subst sweep
        change _ = if Outlasts _ _ _ (t :: idleSweeps rest) then _ else _
        by_cases early : t < ends
        · have blocked : g.blocklist.isBlocked a t = true :=
            held.isBlocked_iff.mpr (by simp [BlockEntry.isExpired, expires, early])
          have kept := Limiter.get?_purgeIdle_of_blocked (l := g.limiter) blocked
          rw [found] at kept
          simp only [outlasts_cons_of_lt early]
          exact after kept (Nat.max_le.mpr ⟨seen, Nat.le_refl t⟩)
        · have free : g.blocklist.isBlocked a t = false := by
            rw [← Bool.not_eq_true, held.isBlocked_iff]
            simp [BlockEntry.isExpired, expires, Nat.le_of_not_lt early]
          -- No sweep from now on meets the block.
          have late : ∀ u ∈ t :: idleSweeps rest, ends ≤ u := by
            intro u member
            refine Nat.le_trans (Nat.le_of_not_lt early) ?_
            rcases List.mem_cons.mp member with rfl | later
            · exact Nat.le_refl u
            · exact (List.pairwise_cons.mp ordered.2).1 u (mem_idleSweeps later)
          have swept := Limiter.get?_purgeIdle_of_free (l := g.limiter) free
          rw [found, Option.filter_some] at swept
          simp only [outlasts_cons_of_le late]
          simp only [Instant.since_lt_iff seen] at swept
          by_cases soon : t < e.lastSeen + g.limiter.settings.idleTtl
          · rw [if_pos (decide_eq_true soon)] at swept
            simp only [soon, true_and]
            exact after swept seen
          · rw [if_neg fun short => soon (of_decide_eq_true short)] at swept
            rw [if_neg fun both => soon both.1]
            exact congrArg _ (untracked_run swept others)
      · have sweeps : idleSweeps ((t, action) :: rest) = idleSweeps rest := by
          cases action with
          | purgeIdle => exact absurd rfl sweep
          | _ => rfl
        rw [sweeps]
        exact after ((g.limiter_entry_act t other sweep).trans found) seen

end Guard

/-- An escalation sees the address, and blocks it for a time that it tells. -/
theorem Limiter.escalate_places (l : Limiter) (b : Blocklist) (a : Address) (e : LimiterEntry)
    (reason : Reason) (now : Instant) :
    let r := l.escalate b a e reason now
    ∃ length e', r.answer = .block reason (some length) ∧
      r.limiter.entries.get? a = some e' ∧ e'.lastSeen = e.lastSeen ∧
      r.blocklist.Lasts a (now + length) :=
  ⟨_, _, rfl, get?_withEntry .., rfl, Blocklist.lasts_block b a reason rfl now⟩

namespace Guard

variable {g : Guard} {a : Address} {now : Instant} {action : GuardAction}

theorem act_escalates (escalates : g.escalates a now action = true) :
    ∃ reason length e, (g.act now action).1.verdict? = some (.block reason (some length)) ∧
      (g.act now action).2.limiter.entries.get? a = some e ∧
      e.lastSeen = (g.limiter.entryFor a now).lastSeen ∧
      (g.act now action).2.blocklist.Lasts a (now + length) := by
  cases action with
  | check x =>
      simp only [Guard.escalates, Bool.and_eq_true, decide_eq_true_eq,
        Bool.not_eq_true'] at escalates
      obtain ⟨⟨rfl, free⟩, blocks⟩ := escalates
      have decision := g.limiter.check_decision g.blocklist x now
      simp only [act, GuardAnswer.verdict?]
      generalize g.limiter.check g.blocklist x now = r at decision blocks
      cases decision with
      | blocked status => simp [Blocklist.isBlocked, status] at free
      | unguarded | allowed | throttled => cases blocks
      | disreputable | excessive | tipped =>
          obtain ⟨length, e, answer, found, seen, lasts⟩ := g.limiter.escalate_places
            (g.blocklist.settle x now) x _ _ now
          exact ⟨_, length, e, congrArg some answer, found, seen, lasts⟩
  | penalize x amount =>
      simp only [Guard.escalates, Bool.and_eq_true, decide_eq_true_eq] at escalates
      obtain ⟨rfl, blocks⟩ := escalates
      have penalty := g.limiter.penalize_penalty g.blocklist x amount now
      simp only [act, GuardAnswer.verdict?]
      generalize g.limiter.penalize g.blocklist x amount now = r at penalty blocks
      cases penalty with
      | ignored | added | known => cases blocks
      | tipped =>
          obtain ⟨length, e, answer, found, seen, lasts⟩ := g.limiter.escalate_places
            (g.blocklist.settle x now) x (g.limiter.penalized x amount now) .reputationBlocked now
          exact ⟨_, length, e, congrArg some answer, found, seen, lasts⟩
  | _ => cases escalates

/-- After an escalation, and as long as nothing else happens to the address, its entry is kept
with its level by just the sweeps before the end of the block, or before the idle time is over
since the last sweep during the block, or since the escalation if there was none. -/
theorem idle_since_seen (settings : Settings) (blocklist : Blocklist)
    (steps : List (Instant × GuardAction)) (a : Address) (now : Instant) (action : GuardAction)
    (ordered : (steps.map (·.1) ++ [now]).Pairwise (· ≤ ·)) :
    let g := (run ⟨.ofSettings settings, blocklist⟩ steps).2
    let acted := g.act now action
    g.escalates a now action = true →
      ∃ reason length e, acted.1.verdict? = some (.block reason (some length)) ∧
        acted.2.limiter.entries.get? a = some e ∧
        ∀ more, (now :: more.map (·.1)).Pairwise (· ≤ ·) →
          (∀ step ∈ more, step.2.subject? ≠ some a) →
          ((acted.2.run more).2.limiter.entries.get? a).map (·.level) =
            if Outlasts now (now + length) settings.limiter.idleTtl (idleSweeps more) then
              some e.level
            else none := by
  intro g acted escalates
  obtain ⟨reason, length, e, answer, found, seen, block, listed, expires⟩ :=
    act_escalates escalates
  refine ⟨reason, length, e, answer, found, fun more later elsewhere => ?_⟩
  rw [List.pairwise_append] at ordered
  have past : ∀ step ∈ steps, step.1 ≤ now := fun step member =>
    ordered.2.2 step.1 (List.mem_map_of_mem member) now (List.mem_singleton_self now)
  have timely := timely_run (g := ⟨.ofSettings settings, blocklist⟩)
    (Limiter.timely_ofSettings settings 0)
    (List.pairwise_cons.mpr ⟨fun u _ => Nat.zero_le u, ordered.1⟩) (Nat.zero_le now) past
  have here : e.lastSeen = now := by
    rw [seen]
    exact Nat.le_antisymm (timely.entryFor (Nat.le_refl now) a).seen (Nat.le_max_right ..)
  have unchanged : acted.2.limiter.settings = settings.limiter :=
    (g.settings_act now action).trans (settings_run _ steps)
  have level := level_run found (Nat.le_of_eq here) (.inl listed) expires later elsewhere
  rwa [here, unchanged] at level

def forgetfulSettings : Settings where
  limiter := { maxEventsPerWindow := 1, escalationThreshold := 1, idleTtlMs := 10000 }

/-- A sweep during the block makes the idle time start anew. -/
theorem visitor_idles :
    let g := (run ⟨.ofSettings forgetfulSettings, .ofSettings {}⟩ [(0, .check visitor)]).2
    let acted := g.act 0 (.check visitor)
    let level sweeps := ((acted.2.run (sweeps.map (·, .purgeIdle))).2.limiter.entries.get?
      visitor).map (·.level)
    level [29000000000, 38000000000] = some 1 ∧ level [29000000000, 39000000000] = none := by
  intro g acted level
  obtain ⟨reason, length, e, answer, found, kept⟩ := idle_since_seen forgetfulSettings
    (.ofSettings {}) [(0, .check visitor)] visitor 0 (.check visitor) (by decide)
    (by decide +kernel)
  have blocked : acted.1.verdict? = some (.block .rateExceeded (some 30000000000)) := by
    decide +kernel
  have first : (acted.2.limiter.entries.get? visitor).map (·.level) = some 1 := by decide +kernel
  simp only [acted, g, answer, found, Option.map_some, Option.some.injEq,
    Verdict.block.injEq] at blocked first
  rw [blocked.2, first] at kept
  have elsewhere (sweeps : List Instant) :
      ∀ step ∈ sweeps.map (·, GuardAction.purgeIdle), step.2.subject? ≠ some visitor := by
    simp [GuardAction.subject?]
  refine ⟨?_, ?_⟩
  · simpa only [level, acted, g] using
      (kept _ (by decide) (elsewhere [29000000000, 38000000000])).trans (if_pos (by decide))
  · simpa only [level, acted, g] using
      (kept _ (by decide) (elsewhere [29000000000, 39000000000])).trans (if_neg (by decide))

/-- Without one the entry goes as soon as the block is over, though the end of the block is no
idle time ago. -/
theorem visitor_forgotten :
    let g := (run ⟨.ofSettings forgetfulSettings, .ofSettings {}⟩ [(0, .check visitor)]).2
    let acted := g.act 0 (.check visitor)
    forgetfulSettings.Valid ∧ g.escalates visitor 0 (.check visitor) = true ∧
      acted.1.verdict? = some (.block .rateExceeded (some 30000000000)) ∧
      acted.2.limiter.isTracked visitor = true ∧
      30000000000 < 0 + 30000000000 + forgetfulSettings.limiter.idleTtl ∧
      (acted.2.run [(30000000000, .purgeIdle)]).2.limiter.isTracked visitor = false := by
  refine ⟨by decide +kernel, by decide +kernel, by decide +kernel, by decide +kernel,
    by decide, by decide +kernel⟩

end Guard

end AdmissionGate
