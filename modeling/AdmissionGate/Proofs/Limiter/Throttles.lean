import Mathlib.Algebra.Order.BigOperators.Group.List
import Mathlib.Algebra.Order.Group.Nat
import Mathlib.Data.List.TakeWhile
import AdmissionGate.Proofs.Limiter.Accord
import AdmissionGate.Proofs.Limiter.Locality

/-!
Throttling does not go on for ever. The throttle events that an entry remembers are cut at the
front whenever the entry is brought up to an instant, and all of them go when the address is
blocked. So an entry remembers the throttle verdicts since the last escalation, less some that are
a whole escalation window old; and an address that has no entry has no verdict that is younger.
Before the events in one window reach the threshold, the next one blocks. The beginning of a run
is a run, so what is said of the end of a run is said of all times between two escalations.
-/

namespace AdmissionGate

namespace Limiter

variable {l l' : Limiter} {b : Blocklist} {a : Address} {now : Instant} {s : LimiterSettings}
  {since : List Instant} {last next : Instant}

theorem isRecent_iff {t : Instant} :
    l.isRecent now t = true ↔ now - t < l.settings.escalationWindow :=
  decide_eq_true_iff

theorem isRecent_mono {t u : Instant} (le : t ≤ u) (recent : l.isRecent now t = true) :
    l.isRecent now u = true := by
  rw [isRecent_iff] at recent ⊢
  exact Nat.lt_of_le_of_lt (Nat.sub_le_sub_left le now) recent

/-- What is left of an ordered memory when it is cut at the front has no old event in it. -/
theorem isRecent_of_mem_dropWhile {ts : List Instant} (sorted : ts.Pairwise (· ≤ ·)) {u : Instant}
    (member : u ∈ ts.dropWhile fun t => !l.isRecent now t) : l.isRecent now u = true := by
  induction ts with
  | nil => cases member
  | cons t rest ih =>
      rw [List.pairwise_cons] at sorted
      rw [List.dropWhile_cons] at member
      split at member
      · exact ih sorted.2 member
      · rename_i recent
        rw [Bool.not_eq_true, Bool.not_eq_false'] at recent
        rcases List.mem_cons.mp member with rfl | later
        · exact recent
        · exact isRecent_mono (sorted.1 u later) recent

end Limiter

/-- At the instant `last`, an entry remembers the throttle events `since`, less some that are
older than the escalation window. -/
structure LimiterEntry.Remembers (e : LimiterEntry) (window : Duration) (since : List Instant)
    (last : Instant) : Prop where
  split : ∃ old, since = old ++ e.throttles ∧ ∀ u ∈ old, u + window ≤ last
  seen : ∀ u ∈ e.throttles, u ≤ e.lastSeen

namespace LimiterEntry.Remembers

variable {e e' : LimiterEntry} {window : Duration} {since : List Instant} {last now : Instant}

theorem later (remembers : e.Remembers window since last) (le : last ≤ now) :
    e.Remembers window since now := by
  obtain ⟨⟨old, split, gone⟩, seen⟩ := remembers
  exact ⟨⟨old, split, fun u member => Nat.le_trans (gone u member) le⟩, seen⟩

theorem congr (remembers : e.Remembers window since last) (throttles : e'.throttles = e.throttles)
    (seen : e.lastSeen ≤ e'.lastSeen) : e'.Remembers window since last := by
  refine ⟨throttles ▸ remembers.split, fun u member => ?_⟩
  rw [throttles] at member
  exact Nat.le_trans (remembers.seen u member) seen

theorem refresh {l : Limiter} (remembers : e.Remembers l.settings.escalationWindow since last)
    (le : last ≤ now) (past : ∀ u ∈ since, u ≤ now) :
    (l.refresh e now).Remembers l.settings.escalationWindow since now := by
  obtain ⟨⟨old, rfl, gone⟩, seen⟩ := remembers
  refine ⟨⟨old ++ e.throttles.takeWhile fun t => !l.isRecent now t, ?_, ?_⟩, ?_⟩
  · rw [Limiter.refresh, List.append_assoc, List.takeWhile_append_dropWhile]
  · intro u member
    rcases List.mem_append.mp member with before | cut
    · exact Nat.le_trans (gone u before) le
    · have expired := List.mem_takeWhile_imp cut
      have early : u ≤ now :=
        past u (List.mem_append_right _ ((List.takeWhile_sublist _).subset cut))
      rw [Bool.not_eq_true', ← Bool.not_eq_true, Limiter.isRecent_iff, Nat.not_lt] at expired
      rw [Nat.add_comm]
      exact Nat.add_le_of_le_sub early expired
  · intro u member
    exact Nat.le_trans (seen u ((List.dropWhile_sublist _).subset member)) (Nat.le_max_left ..)

/-- All events of an entry that was idle for the escalation window are old. -/
theorem forgotten (remembers : e.Remembers window since last) (le : last ≤ now)
    (past : ∀ u ∈ since, u ≤ now) (idle : window ≤ now - e.lastSeen) :
    ∀ u ∈ since, u + window ≤ now := by
  intro u member
  have early := past u member
  obtain ⟨⟨old, rfl, gone⟩, seen⟩ := remembers
  rcases List.mem_append.mp member with before | kept
  · exact Nat.le_trans (gone u before) le
  · have used : u ≤ e.lastSeen := seen u kept
    have quiet : window ≤ now - u := Nat.le_trans idle (Nat.sub_le_sub_left used now)
    rw [Nat.add_comm]
    exact Nat.add_le_of_le_sub early quiet

end LimiterEntry.Remembers

namespace Limiter

variable {l l' : Limiter} {b : Blocklist} {a : Address} {now : Instant} {s : LimiterSettings}
  {since : List Instant} {last next : Instant}

structure Recalls (l : Limiter) (s : LimiterSettings) (a : Address) (since : List Instant)
    (last : Instant) : Prop where
  settings : l.settings = s
  sorted : since.Pairwise (· ≤ ·)
  past : ∀ u ∈ since, u ≤ last
  known : ∀ e, l.entries.get? a = some e → e.Remembers s.escalationWindow since last
  unknown : l.entries.get? a = none → ∀ u ∈ since, u + s.escalationWindow ≤ last
  bounded : ∀ start length, length < s.escalationWindow →
    (since.countP fun u => start ≤ u ∧ u ≤ start + length) ≤ s.escalationThreshold.toNat - 1

namespace Recalls

/-- Neither the entry nor the settings have changed. -/
theorem same (recalls : l.Recalls s a since last) (le : last ≤ now)
    (settings : l'.settings = l.settings) (entry : l'.entries.get? a = l.entries.get? a) :
    l'.Recalls s a since now where
  settings := settings.trans recalls.settings
  sorted := recalls.sorted
  past u member := Nat.le_trans (recalls.past u member) le
  known e found := (recalls.known e (entry ▸ found)).later le
  unknown none u member := Nat.le_trans (recalls.unknown (entry ▸ none) u member) le
  bounded := recalls.bounded

theorem entryFor (recalls : l.Recalls s a since last) (le : last ≤ now) :
    (l.entryFor a now).Remembers s.escalationWindow since now := by
  have past u (member : u ∈ since) : u ≤ now := Nat.le_trans (recalls.past u member) le
  simp only [Limiter.entryFor]
  cases found : l.entries.get? a with
  | some e =>
      have remembers := recalls.known e found
      rw [← recalls.settings] at remembers ⊢
      exact remembers.refresh le past
  | none =>
      refine ⟨⟨since, (List.append_nil _).symm, fun u member => ?_⟩, fun u member => ?_⟩
      · exact Nat.le_trans (recalls.unknown found u member) le
      · cases member

/-- An entry that is brought up to an instant remembers no more than it has to. -/
theorem isRecent (recalls : l.Recalls s a since last) {u : Instant}
    (member : u ∈ (l.entryFor a now).throttles) : l.isRecent now u = true := by
  simp only [Limiter.entryFor] at member
  cases found : l.entries.get? a with
  | some e =>
      rw [found] at member
      obtain ⟨⟨old, split, -⟩, -⟩ := recalls.known e found
      have sorted := recalls.sorted
      rw [split, List.pairwise_append] at sorted
      exact isRecent_of_mem_dropWhile sorted.2.1 member
  | none =>
      rw [found] at member
      cases member

/-- The events of an entry that is up to date are the verdicts of the last window. -/
theorem length_throttles (recalls : l.Recalls s a since last) (le : last ≤ now) :
    (l.entryFor a now).throttles.length =
      since.countP fun u => now < u + s.escalationWindow := by
  obtain ⟨⟨old, split, gone⟩, -⟩ := recalls.entryFor le
  have none : (old.countP fun u => now < u + s.escalationWindow) = 0 := by
    rw [List.countP_eq_zero]
    intro u member within
    exact Nat.not_lt.mpr (gone u member) (of_decide_eq_true within)
  have all : ((l.entryFor a now).throttles.countP fun u => now < u + s.escalationWindow) =
      (l.entryFor a now).throttles.length := by
    rw [List.countP_eq_length]
    intro u member
    have recent := isRecent_iff.mp (recalls.isRecent member)
    have early := Nat.le_trans (recalls.past u (split ▸ List.mem_append_right _ member)) le
    rw [recalls.settings] at recent
    rw [decide_eq_true_eq, Nat.add_comm]
    exact (Nat.sub_lt_iff_lt_add early).mp recent
  calc (l.entryFor a now).throttles.length
    _ = (old.countP fun u => now < u + s.escalationWindow) +
          ((l.entryFor a now).throttles.countP fun u => now < u + s.escalationWindow) := by
        rw [none, all, Nat.zero_add]
    _ = since.countP fun u => now < u + s.escalationWindow := by
        rw [← List.countP_append, ← split]

theorem withEntry {e : LimiterEntry} (settings : l.settings = s)
    (sorted : since.Pairwise (· ≤ ·)) (past : ∀ u ∈ since, u ≤ last)
    (remembers : e.Remembers s.escalationWindow since last)
    (bounded : ∀ start length, length < s.escalationWindow →
      (since.countP fun u => start ≤ u ∧ u ≤ start + length) ≤ s.escalationThreshold.toNat - 1) :
    (l.withEntry a e).Recalls s a since last := by
  have found : (l.withEntry a e).entries.get? a = some e := by simp [Limiter.withEntry]
  refine ⟨settings, sorted, past, fun e' found' => ?_, fun none => ?_, bounded⟩
  · cases found.symm.trans found'
    exact remembers
  · cases found.symm.trans none

/-- The entry is brought up to an instant, and its memory left as it is. -/
theorem touched (recalls : l.Recalls s a since last) (le : last ≤ now) {e : LimiterEntry}
    (throttles : e.throttles = (l.entryFor a now).throttles)
    (seen : e.lastSeen = (l.entryFor a now).lastSeen) :
    (l.withEntry a e).Recalls s a since now :=
  withEntry recalls.settings recalls.sorted
    (fun u member => Nat.le_trans (recalls.past u member) le)
    ((recalls.entryFor le).congr throttles (Nat.le_of_eq seen.symm)) recalls.bounded

/-- Nothing is remembered. -/
theorem cleared (recalls : l.Recalls s a since last) {e : LimiterEntry}
    (throttles : e.throttles = []) (now : Instant) :
    (l.withEntry a e).Recalls s a [] now := by
  have remembers : e.Remembers s.escalationWindow [] now := by
    refine ⟨⟨[], throttles.symm, fun _ member => ?_⟩, fun _ member => ?_⟩
    · cases member
    · rw [throttles] at member
      cases member
  exact withEntry recalls.settings .nil (fun _ member => nomatch member) remembers
    fun _ _ _ => Nat.zero_le _

/-- One more event is below the threshold. -/
theorem throttled (recalls : l.Recalls s a since last) (le : last ≤ now) {e : LimiterEntry}
    (throttles : e.throttles = (l.entryFor a now).throttles ++ [now])
    (seen : e.lastSeen = (l.entryFor a now).lastSeen)
    (seldom : e.throttles.length < s.escalationThreshold.toNat) :
    (l.withEntry a e).Recalls s a (since ++ [now]) now := by
  have past u (member : u ∈ since) : u ≤ now := Nat.le_trans (recalls.past u member) le
  have remembers := recalls.entryFor le
  have here : now ≤ (l.entryFor a now).lastSeen := Nat.le_max_right ..
  refine withEntry recalls.settings ?_ ?_ ?_ ?_
  · rw [List.pairwise_append]
    refine ⟨recalls.sorted, List.pairwise_singleton .., fun u member t single => ?_⟩
    rw [List.mem_singleton.mp single]
    exact past u member
  · intro u member
    rcases List.mem_append.mp member with before | single
    · exact past u before
    · exact Nat.le_of_eq (List.mem_singleton.mp single)
  · obtain ⟨⟨old, split, gone⟩, earlier⟩ := remembers
    refine ⟨⟨old, ?_, gone⟩, fun u member => ?_⟩
    · rw [throttles, split, List.append_assoc]
    · rw [throttles] at member
      rw [seen]
      rcases List.mem_append.mp member with before | single
      · exact earlier u before
      · rwa [List.mem_singleton.mp single]
  · intro start length short
    rw [List.countP_append, List.countP_singleton]
    split
    · rename_i within
      -- The stretch of time reaches `now`, so all that it holds is still remembered.
      have inside : (since.countP fun u => start ≤ u ∧ u ≤ start + length) ≤
          since.countP fun u => now < u + s.escalationWindow := by
        apply List.countP_mono_left
        intro u member between
        obtain ⟨-, reached⟩ := of_decide_eq_true within
        obtain ⟨after, -⟩ := of_decide_eq_true between
        exact decide_eq_true (Nat.lt_of_le_of_lt reached (Nat.add_lt_add_of_le_of_lt after short))
      rw [throttles, List.length_append, List.length_singleton,
        recalls.length_throttles le] at seldom
      omega
    · exact recalls.bounded start length short

/-- Entries that were in use in the escalation window are not forgotten. -/
theorem purgeIdle (recalls : l.Recalls s a since last) (le : last ≤ now)
    (kept : s.escalationWindow ≤ s.idleTtl) (b : Blocklist) :
    (l.purgeIdle b now).limiter.Recalls s a since now := by
  have past u (member : u ∈ since) : u ≤ now := Nat.le_trans (recalls.past u member) le
  refine ⟨recalls.settings, recalls.sorted, past, ?_, ?_, recalls.bounded⟩
  · intro e found
    simp only [Limiter.purgeIdle, AddressMap.get?_filter, AddressMap.get?_map] at found
    obtain ⟨before, -⟩ := Option.filter_eq_some_iff.mp found
    obtain ⟨old, there, rfl⟩ := Option.map_eq_some_iff.mp before
    have remembers := (recalls.known old there).later le
    split
    · exact remembers.congr rfl (Nat.le_max_left ..)
    · exact remembers
  · intro gone
    simp only [Limiter.purgeIdle, AddressMap.get?_filter, AddressMap.get?_map] at gone
    cases found : l.entries.get? a with
    | none => exact fun u member => Nat.le_trans (recalls.unknown found u member) le
    | some e =>
        rw [found, Option.map_some, Option.filter_eq_none_iff] at gone
        have dropped := gone _ rfl
        simp only [Bool.or_eq_true, decide_eq_true_eq, not_or] at dropped
        obtain ⟨free, idle⟩ := dropped
        rw [if_neg free, recalls.settings] at idle
        exact (recalls.known e found).forgotten le past
          (Nat.le_trans kept (Nat.le_of_not_lt idle))

end Recalls

/-- A connection of the address at an instant is a throttle event: it would be let through but
for the full window. -/
structure Exceeds (l : Limiter) (b : Blocklist) (a : Address) (now : Instant) : Prop where
  enabled : l.settings.enabled = true
  free : b.status? a now = none
  low : l.blocksAt (l.entryFor a now).score = false
  full : l.maxEvents ≤ (l.entryFor a now).window.total

theorem Decision.exceeds_of_throttle {r : Limited Verdict} (decision : Decision l b a now r)
    (throttled : r.answer.isThrottled = true) : l.Exceeds b a now := by
  cases decision with
  | throttled free enabled low full => exact ⟨enabled, free, low, Nat.le_of_not_lt full⟩
  | _ => cases throttled

theorem Decision.rateExceeded_iff {r : Limited Verdict} (decision : Decision l b a now r) :
    (∃ length, r.answer = .block .rateExceeded length) ↔
      l.Exceeds b a now ∧
        l.settings.escalationThreshold.toNat ≤ (l.entryFor a now).throttles.length + 1 := by
  have added : (l.addThrottle (l.entryFor a now) now).throttles.length =
      (l.entryFor a now).throttles.length + 1 := List.length_append
  cases decision with
  | blocked status =>
      refine ⟨fun ⟨_, answer⟩ => (nomatch answer), fun ⟨exceeds, _⟩ => ?_⟩
      cases status.symm.trans exceeds.free
  | unguarded free disabled =>
      refine ⟨fun ⟨_, answer⟩ => (nomatch answer), fun ⟨exceeds, _⟩ => ?_⟩
      cases disabled.symm.trans exceeds.enabled
  | disreputable free enabled high =>
      refine ⟨fun ⟨_, answer⟩ => (nomatch answer), fun ⟨exceeds, _⟩ => ?_⟩
      cases high.symm.trans exceeds.low
  | allowed free enabled low room =>
      refine ⟨fun ⟨_, answer⟩ => (nomatch answer), fun ⟨exceeds, _⟩ => ?_⟩
      exact absurd exceeds.full (Nat.not_le.mpr room)
  | excessive free enabled low full often =>
      exact ⟨fun _ => ⟨⟨enabled, free, low, Nat.le_of_not_lt full⟩, added ▸ often⟩,
        fun _ => ⟨_, rfl⟩⟩
  | tipped _ _ _ _ seldom | throttled _ _ _ _ seldom =>
      refine ⟨fun ⟨_, answer⟩ => (nomatch answer), fun ⟨_, often⟩ => ?_⟩
      exact absurd (added ▸ often) seldom

/-- A block for too many events leaves none of them behind. -/
theorem Decision.throttles_of_rateExceeded {r : Limited Verdict}
    (decision : Decision l b a now r) {length : Option Duration}
    (blocked : r.answer = .block .rateExceeded length) :
    (r.limiter.entries.get? a).map (·.throttles) = some [] := by
  cases decision with
  | excessive => simp [escalate, withEntry]
  | _ => cases blocked

end Limiter

def GuardEvent.throttles (a : Address) (e : GuardEvent) : Bool :=
  match e.action, e.answer with
  | .check x, .verdict v => x = a && v.isThrottled
  | _, _ => false

namespace Guard

/-- The action blocks the address anew on account of its entry. -/
def escalates (g : Guard) (a : Address) (now : Instant) : GuardAction → Bool
  | .check x =>
      x = a && !g.blocklist.isBlocked a now &&
        (g.limiter.check g.blocklist a now).answer.isBlocked
  | .penalize x amount =>
      x = a && (g.limiter.penalize g.blocklist a amount now).answer.isSome
  | _ => false

def recount (g : Guard) (a : Address) (since : List Instant) (now : Instant)
    (action : GuardAction) : List Instant :=
  if g.escalates a now action then []
  else if GuardEvent.throttles a ⟨now, action, (g.act now action).1⟩ then since ++ [now]
  else since

/-- When the address was told to wait in a run, since its last escalation. -/
def throttlesSince (a : Address) (since : List Instant) (g : Guard) :
    List (Instant × GuardAction) → List Instant
  | [] => since
  | (now, action) :: rest =>
      throttlesSince a (g.recount a since now action) (g.act now action).2 rest

variable {g : Guard} {s : LimiterSettings} {a : Address} {since : List Instant}
  {last now : Instant} {action : GuardAction}

theorem recount_elsewhere (elsewhere : action.about? ≠ some a) :
    g.recount a since now action = since := by
  cases action with
  | check x | penalize x amount =>
      have other : x ≠ a := fun same => elsewhere (congrArg some same)
      simp [recount, escalates, GuardEvent.throttles, act, other]
  | _ => rfl

theorem recount_check (g : Guard) (a : Address) (since : List Instant) (now : Instant) :
    g.recount a since now (.check a) =
      match (g.limiter.check g.blocklist a now).answer, g.blocklist.isBlocked a now with
      | .block .., false => []
      | .throttle .., _ => since ++ [now]
      | _, _ => since := by
  simp only [recount, escalates, GuardEvent.throttles, act]
  cases (g.limiter.check g.blocklist a now).answer <;>
    cases g.blocklist.isBlocked a now <;> simp [Verdict.isBlocked, Verdict.isThrottled]

theorem recount_penalize (g : Guard) (a : Address) (since : List Instant) (now : Instant)
    (amount : Float) :
    g.recount a since now (.penalize a amount) =
      match (g.limiter.penalize g.blocklist a amount now).answer with
      | some _ => []
      | none => since := by
  simp only [recount, escalates, GuardEvent.throttles]
  cases (g.limiter.penalize g.blocklist a amount now).answer <;> simp

theorem recalls_check (recalls : g.limiter.Recalls s a since last) (le : last ≤ now) :
    (g.act now (.check a)).2.limiter.Recalls s a (g.recount a since now (.check a)) now := by
  have decision := g.limiter.check_decision g.blocklist a now
  rw [recount_check]
  simp only [act]
  generalize g.limiter.check g.blocklist a now = r at decision
  cases decision with
  | blocked status =>
      have blocked : g.blocklist.isBlocked a now = true := by simp [Blocklist.isBlocked, status]
      rw [blocked]
      exact recalls.same le rfl rfl
  | unguarded => exact recalls.same le rfl rfl
  | allowed => exact recalls.touched le rfl rfl
  | disreputable free | excessive free | tipped free =>
      have unblocked : g.blocklist.isBlocked a now = false := by
        simp [Blocklist.isBlocked, free]
      rw [unblocked]
      exact recalls.cleared rfl now
  | throttled _ _ _ _ seldom =>
      rw [Limiter.escalationThreshold, recalls.settings] at seldom
      have after := recalls.throttled (e := g.limiter.addThrottle (g.limiter.entryFor a now) now)
        le rfl rfl (Nat.lt_of_not_le seldom)
      exact after.same (Nat.le_refl now) rfl rfl

theorem recalls_penalize (recalls : g.limiter.Recalls s a since last) (le : last ≤ now)
    (amount : Float) :
    (g.act now (.penalize a amount)).2.limiter.Recalls s a
      (g.recount a since now (.penalize a amount)) now := by
  have penalty := g.limiter.penalize_penalty g.blocklist a amount now
  rw [recount_penalize]
  simp only [act]
  generalize g.limiter.penalize g.blocklist a amount now = r at penalty
  cases penalty with
  | ignored => exact recalls.same le rfl rfl
  | added | known => exact recalls.touched le rfl rfl
  | tipped => exact recalls.cleared rfl now

theorem recalls_act (recalls : g.limiter.Recalls s a since last) (le : last ≤ now)
    (unreset : action ≠ .reset a)
    (kept : action = .purgeIdle → s.escalationWindow ≤ s.idleTtl) :
    (g.act now action).2.limiter.Recalls s a (g.recount a since now action) now := by
  cases about : action.about? with
  | none =>
      rw [recount_elsewhere (by simp [about])]
      cases action with
      | purgeIdle => exact recalls.purgeIdle le (kept rfl) g.blocklist
      | purgeBlocks => exact recalls.same le rfl rfl
      | _ => cases about
  | some x =>
      by_cases own : x = a
      · subst own
        cases action with
        | check y =>
            cases about
            exact recalls_check recalls le
        | penalize y amount =>
            cases about
            exact recalls_penalize recalls le amount
        | reset y => exact absurd (congrArg GuardAction.reset (Option.some.inj about)) unreset
        | purgeIdle | purgeBlocks => cases about
        | view | score | block | unblock | lookUp => exact recalls.same le rfl rfl
      · rw [recount_elsewhere (by simpa [about] using own)]
        have agrees := (g.act_elsewhere now about own).limiter
        exact recalls.same le agrees.settings agrees.entry

theorem recalls_run (recalls : g.limiter.Recalls s a since last)
    {steps : List (Instant × GuardAction)}
    (ordered : (last :: steps.map (·.1)).Pairwise (· ≤ ·))
    (unreset : ∀ step ∈ steps, step.2 ≠ .reset a)
    (kept : ∀ step ∈ steps, step.2 = .purgeIdle → s.escalationWindow ≤ s.idleTtl)
    (le : last ≤ now) (past : ∀ step ∈ steps, step.1 ≤ now) :
    (g.run steps).2.limiter.Recalls s a (g.throttlesSince a since steps) now := by
  induction steps generalizing g since last with
  | nil => exact recalls.same le rfl rfl
  | cons step rest ih =>
      obtain ⟨t, action⟩ := step
      have here := List.mem_cons_self (a := (t, action)) (l := rest)
      rw [List.map_cons, List.pairwise_cons] at ordered
      have after := recalls_act recalls (ordered.1 t (List.mem_cons_self ..)) (unreset _ here)
        (kept _ here)
      exact ih after ordered.2 (fun step later => unreset step (List.mem_cons_of_mem _ later))
        (fun step later => kept step (List.mem_cons_of_mem _ later)) (past _ here)
        fun step later => past step (List.mem_cons_of_mem _ later)

/-- Whatever else is done, the verdicts that fall into less than an escalation window stay below
the threshold, and a check that brings those of the last window up to it blocks. -/
theorem throttles_escalate (settings : Settings) (blocklist : Blocklist)
    (steps : List (Instant × GuardAction)) (ordered : (steps.map (·.1)).Pairwise (· ≤ ·))
    (a : Address) (unreset : ∀ step ∈ steps, step.2 ≠ .reset a)
    (kept : ∀ step ∈ steps, step.2 = .purgeIdle →
      settings.limiter.escalationWindow ≤ settings.limiter.idleTtl) :
    let threshold := settings.limiter.escalationThreshold.toNat
    let verdicts := throttlesSince a [] ⟨.ofSettings settings, blocklist⟩ steps
    (∀ start length, length < settings.limiter.escalationWindow →
      (verdicts.countP fun u => start ≤ u ∧ u ≤ start + length) ≤ threshold - 1) ∧
    ∀ now, (∀ step ∈ steps, step.1 ≤ now) →
      let g := (run ⟨.ofSettings settings, blocklist⟩ steps).2
      let checked := g.limiter.check g.blocklist a now
      let recent := verdicts.countP fun u => now < u + settings.limiter.escalationWindow
      (checked.answer.isThrottled = true → g.limiter.Exceeds g.blocklist a now) ∧
      ((∃ length, checked.answer = .block .rateExceeded length) ↔
        g.limiter.Exceeds g.blocklist a now ∧ threshold ≤ recent + 1) ∧
      ∀ length, checked.answer = .block .rateExceeded length →
        (checked.limiter.entries.get? a).map (·.throttles) = some [] := by
  intro threshold verdicts
  have recalls : (Limiter.ofSettings settings).Recalls settings.limiter a [] 0 := by
    refine ⟨rfl, .nil, fun _ member => (nomatch member), fun e found => ?_,
      fun _ _ member => (nomatch member), fun _ _ _ => Nat.zero_le _⟩
    simp [Limiter.ofSettings] at found
  have ordered : (0 :: steps.map (·.1)).Pairwise (· ≤ ·) :=
    List.pairwise_cons.mpr ⟨fun u _ => Nat.zero_le u, ordered⟩
  have after {now : Instant} (past : ∀ step ∈ steps, step.1 ≤ now) :=
    recalls_run (g := ⟨.ofSettings settings, blocklist⟩) recalls ordered unreset kept
      (Nat.zero_le now) past
  refine ⟨?_, fun now past => ?_⟩
  · -- Any instant behind the run will do.
    have past : ∀ step ∈ steps, step.1 ≤ (steps.map (·.1)).sum :=
      fun step member => List.le_sum_of_mem (List.mem_map_of_mem member)
    exact (after past).bounded
  · intro g checked recent
    have recalled := after past
    have decision := g.limiter.check_decision g.blocklist a now
    refine ⟨decision.exceeds_of_throttle, ?_, fun _ => decision.throttles_of_rateExceeded⟩
    rw [decision.rateExceeded_iff, recalled.length_throttles (Nat.le_refl now), recalled.settings]

def strictSettings : Settings where
  limiter := { maxEventsPerWindow := 1, escalationThreshold := 2 }

def hurriedSteps : List (Instant × GuardAction) :=
  [(0, .check visitor), (100000000, .check neighbour), (200000000, .check visitor),
    (300000000, .purgeIdle)]

/-- A visitor that was told to wait and is back at once is blocked, with a clean slate. -/
theorem visitor_escalates :
    let g := (run ⟨.ofSettings strictSettings, .ofSettings {}⟩ hurriedSteps).2
    let checked := g.limiter.check g.blocklist visitor 400000000
    throttlesSince visitor [] ⟨.ofSettings strictSettings, .ofSettings {}⟩ hurriedSteps =
        [200000000] ∧
      ((throttlesSince visitor [] ⟨.ofSettings strictSettings, .ofSettings {}⟩
        hurriedSteps).countP fun u => 0 ≤ u ∧ u ≤ 0 + 59999999999) ≤ 1 ∧
      (∃ length, checked.answer = .block .rateExceeded length) ∧
      (checked.limiter.entries.get? visitor).map (·.throttles) = some [] := by
  intro g checked
  obtain ⟨spaced, after⟩ := throttles_escalate strictSettings (.ofSettings {}) hurriedSteps
    (by decide) visitor (by simp [hurriedSteps]) (fun _ _ _ => by decide)
  obtain ⟨-, blocks, cleared⟩ := after 400000000 (by decide)
  have exceeds : g.limiter.Exceeds g.blocklist visitor 400000000 :=
    ⟨by decide +kernel, by decide +kernel, by decide +kernel, by decide +kernel⟩
  have blocked := blocks.mpr ⟨exceeds, by decide +kernel⟩
  refine ⟨by decide +kernel, spaced 0 59999999999 (by decide), blocked, ?_⟩
  obtain ⟨length, answer⟩ := blocked
  simpa only [g, checked] using cleared length answer

end Guard

end AdmissionGate
