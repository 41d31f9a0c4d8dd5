import AdmissionGate.Proofs.Limiter.Guard
import AdmissionGate.Proofs.Limiter.Tally
import AdmissionGate.Settings.Validation

/-!
The bound on the rate. The window of an entry counts the checks that were allowed since the
entry was made; those before that are a whole window older than the entry, since entries that
were in use are not forgotten sooner. So the checks that are allowed in the time of all buckets
but one never exceed what a window may hold, whatever happens to scores, blocks and entries.
-/

namespace AdmissionGate

namespace LimiterSettings

def bucketCount (s : LimiterSettings) : Nat := s.windowBuckets.toNat

/-- The whole window, without a bound on its milliseconds. -/
def span (s : LimiterSettings) : Duration := s.bucketCount * s.bucketDuration

def reach (s : LimiterSettings) : Duration := (s.bucketCount - 1) * s.bucketDuration

end LimiterSettings

/-- Settings that break no rule have buckets that last. -/
theorem Settings.Valid.window {s : Settings} (valid : s.Valid) :
    0 < s.limiter.bucketCount ∧ 0 < s.limiter.bucketDuration := by
  have rule : ¬(s.limiter.windowBuckets = 0 ∨ s.limiter.bucketMs = 0) := by
    intro broken
    rw [Valid, fault?, if_pos broken] at valid
    contradiction
  rw [not_or, ← UInt32.toNat_inj, ← UInt64.toNat_inj] at rule
  refine ⟨Nat.pos_of_ne_zero rule.1, Nat.mul_pos (Nat.pos_of_ne_zero rule.2) ?_⟩
  decide

/-- At the instant `last`, an entry counts the checks in `allowed`, the latest first. -/
structure LimiterEntry.Tracks (e : LimiterEntry) (s : LimiterSettings) (allowed : List Instant)
    (last : Instant) : Prop where
  width : e.window.width = s.bucketDuration
  length : e.window.length = s.bucketCount
  begun : e.window.origin ≤ last
  head : e.window.head ≤ e.window.bucketOf last
  counts : ∃ current old, allowed = current ++ old ∧
    (∀ u ∈ current, e.window.origin ≤ u ∧ u ≤ e.lastSeen) ∧
    (∀ u ∈ old, u + s.span ≤ e.window.origin) ∧
    e.window.Tallies (current.map e.window.bucketOf)

namespace LimiterEntry.Tracks

variable {e e' : LimiterEntry} {s : LimiterSettings} {allowed : List Instant}
  {last now : Instant}

/-- Only the window and the last activity matter. -/
theorem congr (tracks : e.Tracks s allowed last) (window : e'.window = e.window)
    (seen : e.lastSeen ≤ e'.lastSeen) : e'.Tracks s allowed last := by
  obtain ⟨width, length, begun, head, current, old, split, recent, gone, tallies⟩ := tracks
  rw [← window] at width length begun head recent gone tallies
  refine ⟨width, length, begun, head, current, old, split, ?_, gone, tallies⟩
  intro u member
  exact ⟨(recent u member).1, Nat.le_trans (recent u member).2 seen⟩

theorem later (tracks : e.Tracks s allowed last) (le : last ≤ now) : e.Tracks s allowed now :=
  ⟨tracks.width, tracks.length, Nat.le_trans tracks.begun le,
    Nat.le_trans tracks.head (e.window.bucketOf_mono le), tracks.counts⟩

/-- An entry that is brought up to an instant stands in the bucket of that instant. -/
theorem refresh (tracks : e.Tracks s allowed last) (le : last ≤ now) (l : Limiter) :
    (l.refresh e now).Tracks s allowed now ∧
      (l.refresh e now).window.head = (l.refresh e now).window.bucketOf now ∧
      now ≤ (l.refresh e now).lastSeen := by
  obtain ⟨width, length, begun, head, current, old, split, recent, gone, tallies⟩ := tracks
  have rolled : (e.window.advance now).head = e.window.bucketOf now := by
    rw [Window.head_advance]
    exact Nat.max_eq_right (Nat.le_trans head (e.window.bucketOf_mono le))
  simp only [Limiter.refresh, Window.bucketOf_advance]
  refine ⟨⟨?_, ?_, ?_, ?_, current, old, split, ?_, ?_, ?_⟩, rolled, Nat.le_max_right ..⟩
  · rwa [Window.width_advance]
  · rwa [Window.length_advance]
  · rw [Window.origin_advance]
    exact Nat.le_trans begun le
  · rw [Window.bucketOf_advance]
    exact Nat.le_of_eq rolled
  · intro u member
    rw [Window.origin_advance]
    exact ⟨(recent u member).1, Nat.le_trans (recent u member).2 (Nat.le_max_left ..)⟩
  · rwa [Window.origin_advance]
  · rw [Window.bucketOf_advance]
    exact tallies.advance now

/-- An entry that was idle for a whole window counts nothing any more. -/
theorem forgotten (tracks : e.Tracks s allowed last) (le : last ≤ now)
    (idle : e.lastSeen + s.span ≤ now) : ∀ u ∈ allowed, u + s.span ≤ now := by
  obtain ⟨-, -, begun, -, current, old, rfl, recent, gone, -⟩ := tracks
  intro u member
  rcases List.mem_append.mp member with counted | before
  · exact Nat.le_trans (Nat.add_le_add_right (recent u counted).2 _) idle
  · exact Nat.le_trans (gone u before) (Nat.le_trans begun le)

/-- Room in the window means room in every stretch of time that ends now. -/
theorem countP_lt (tracks : e.Tracks s allowed now)
    (here : e.window.head = e.window.bucketOf now) (some_width : 0 < s.bucketDuration)
    {limit : Nat} (room : e.window.total < limit) (small : limit ≤ max32) {start : Instant}
    (inside : now ≤ start + s.reach) :
    (allowed.countP fun u => start ≤ u ∧ u ≤ start + s.reach) < limit := by
  obtain ⟨width, length, begun, -, current, old, rfl, recent, gone, tallies⟩ := tracks
  have buckets : 0 < s.bucketCount := length ▸ tallies.buckets
  have span : s.span = s.reach + s.bucketDuration := by
    rw [LimiterSettings.span, LimiterSettings.reach, ← Nat.succ_mul, Nat.succ_eq_add_one,
      Nat.sub_add_cancel buckets]
  have none : (old.countP fun u => start ≤ u ∧ u ≤ start + s.reach) = 0 := by
    rw [List.countP_eq_zero]
    intro u member within
    obtain ⟨after, -⟩ := of_decide_eq_true within
    have late : start + s.span ≤ start + s.reach := calc
      start + s.span ≤ u + s.span := Nat.add_le_add_right after _
      _ ≤ e.window.origin := gone u member
      _ ≤ now := begun
      _ ≤ start + s.reach := inside
    rw [span] at late
    exact Nat.not_le.mpr (Nat.lt_add_of_pos_right some_width) (Nat.le_of_add_le_add_left late)
  have counted : (current.countP fun u => start ≤ u ∧ u ≤ start + s.reach) ≤
      (current.map e.window.bucketOf).countP
        fun b => e.window.head < b + e.window.length := by
    rw [List.countP_map]
    apply List.countP_mono_left
    intro u member within
    obtain ⟨after, -⟩ := of_decide_eq_true within
    have near : now ≤ u + (s.bucketCount - 1) * e.window.width := by
      rw [width]
      exact Nat.le_trans inside (Nat.add_le_add_right after _)
    have close := e.window.bucketOf_le_add (recent u member).1 near
    simp only [Function.comp_apply, decide_eq_true_eq, here, length]
    omega
  rw [tallies.total] at room
  rw [List.countP_append, none]
  omega

end LimiterEntry.Tracks

namespace Limiter

variable {l l' : Limiter} {b : Blocklist} {a x : Address} {now : Instant} {amount : Float}
  {s : LimiterSettings} {allowed : List Instant} {last : Instant}

/-- The entry of an address is as it was, or is brought up to an instant; its score and its
throttles may have changed. -/
def Keeps (l l' : Limiter) (a : Address) (now : Instant) : Prop :=
  l'.settings = l.settings ∧
    (l'.entries.get? a = l.entries.get? a ∨
      ∃ e, l'.entries.get? a = some e ∧ e.window = (l.entryFor a now).window ∧
        e.lastSeen = (l.entryFor a now).lastSeen)

theorem keeps_withEntry_of_ne (l : Limiter) (e : LimiterEntry) (ne : x ≠ a) :
    l.Keeps (l.withEntry x e) a now := by
  refine ⟨rfl, .inl ?_⟩
  rw [withEntry, AddressMap.get?_insert, if_neg ne]

theorem keeps_withEntry (l : Limiter) {e : LimiterEntry}
    (window : e.window = (l.entryFor a now).window)
    (seen : e.lastSeen = (l.entryFor a now).lastSeen) : l.Keeps (l.withEntry a e) a now := by
  refine ⟨rfl, .inr ⟨e, ?_, window, seen⟩⟩
  rw [withEntry, AddressMap.get?_insert, if_pos rfl]

theorem Decision.keeps_of_ne {r : Limited Verdict} (decision : Decision l b x now r)
    (ne : x ≠ a) : l.Keeps r.limiter a now := by
  cases decision with
  | blocked | unguarded => exact ⟨rfl, .inl rfl⟩
  | _ => exact keeps_withEntry_of_ne l _ ne

theorem Decision.keeps {r : Limited Verdict} (decision : Decision l b a now r)
    (refused : r.answer ≠ .allow) : l.Keeps r.limiter a now := by
  cases decision with
  | blocked => exact ⟨rfl, .inl rfl⟩
  | unguarded | allowed => exact (refused rfl).elim
  | _ => exact keeps_withEntry l rfl rfl

/-- A check that is allowed found room in the window. -/
theorem Decision.room {r : Limited Verdict} (decision : Decision l b a now r)
    (enabled : l.settings.enabled = true) (allow : r.answer = .allow) :
    (l.entryFor a now).window.total < l.maxEvents ∧
      r.limiter = l.withEntry a
        { l.entryFor a now with window := (l.entryFor a now).window.record } := by
  cases decision with
  | unguarded _ disabled =>
      rw [enabled] at disabled
      contradiction
  | allowed _ _ _ room => exact ⟨room, rfl⟩
  | _ => cases allow

theorem Penalty.keeps {r : Limited (Option Verdict)} (penalty : Penalty l b x amount now r)
    (a : Address) : l.Keeps r.limiter a now := by
  by_cases same : x = a
  · subst same
    cases penalty with
    | ignored => exact ⟨rfl, .inl rfl⟩
    | _ => exact keeps_withEntry l rfl rfl
  · cases penalty with
    | ignored => exact ⟨rfl, .inl rfl⟩
    | _ => exact keeps_withEntry_of_ne l _ same

/-- Of the checks of an address that were allowed, the limiter still counts those of the last
window. -/
structure Paces (l : Limiter) (s : LimiterSettings) (a : Address) (allowed : List Instant)
    (last : Instant) : Prop where
  settings : l.settings = s
  known : ∀ e, l.entries.get? a = some e → e.Tracks s allowed last
  unknown : l.entries.get? a = none → ∀ u ∈ allowed, u + s.span ≤ last
  bounded : ∀ start, (allowed.countP fun u => start ≤ u ∧ u ≤ start + s.reach) ≤
    s.maxEventsPerWindow.toNat

namespace Paces

theorem entryFor (paces : l.Paces s a allowed last) (le : last ≤ now)
    (some_bucket : 0 < s.bucketCount) :
    (l.entryFor a now).Tracks s allowed now ∧
      (l.entryFor a now).window.head = (l.entryFor a now).window.bucketOf now ∧
      now ≤ (l.entryFor a now).lastSeen := by
  simp only [Limiter.entryFor]
  cases found : l.entries.get? a with
  | some e => exact (paces.known e found).refresh le l
  | none =>
      have tracks : (l.freshEntry now).Tracks s allowed now := by
        rw [freshEntry, paces.settings]
        refine ⟨rfl, ?_, Nat.le_refl _, Nat.zero_le _, [], allowed, rfl, ?_, ?_,
          Window.tallies_ofBuckets ..⟩
        · simp only [Window.length, Window.ofBuckets, Array.size_replicate]
          exact Nat.max_eq_left some_bucket
        · intro u member
          cases member
        · intro u member
          exact Nat.le_trans (paces.unknown found u member) le
      exact tracks.refresh (Nat.le_refl now) l

theorem keeps (paces : l.Paces s a allowed last) (le : last ≤ now)
    (some_bucket : 0 < s.bucketCount) (keeps : l.Keeps l' a now) :
    l'.Paces s a allowed now := by
  obtain ⟨settings, same | ⟨e, found, window, seen⟩⟩ := keeps
  · refine ⟨settings.trans paces.settings, ?_, ?_, paces.bounded⟩
    · rw [same]
      exact fun e found => (paces.known e found).later le
    · rw [same]
      exact fun none u member => Nat.le_trans (paces.unknown none u member) le
  · refine ⟨settings.trans paces.settings, ?_, ?_, paces.bounded⟩
    · intro e' found'
      cases found.symm.trans found'
      exact (paces.entryFor le some_bucket).1.congr window (Nat.le_of_eq seen.symm)
    · intro none
      cases found.symm.trans none

/-- A check that is allowed. -/
theorem allow (paces : l.Paces s a allowed last) (le : last ≤ now)
    (some_bucket : 0 < s.bucketCount) (some_width : 0 < s.bucketDuration)
    (room : (l.entryFor a now).window.total < l.maxEvents) :
    (l.withEntry a { l.entryFor a now with window := (l.entryFor a now).window.record }).Paces
      s a (now :: allowed) now := by
  obtain ⟨tracks, here, seen⟩ := paces.entryFor le some_bucket
  have found : (l.withEntry a { l.entryFor a now with
      window := (l.entryFor a now).window.record }).entries.get? a =
        some { l.entryFor a now with window := (l.entryFor a now).window.record } := by
    rw [withEntry, AddressMap.get?_insert, if_pos rfl]
  refine ⟨paces.settings, ?_, ?_, ?_⟩
  · intro e found'
    cases found.symm.trans found'
    obtain ⟨width, length, begun, head, current, old, split, recent, gone, tallies⟩ := tracks
    refine ⟨width, ?_, begun, head, now :: current, old, ?_, ?_, gone, ?_⟩
    · rwa [Window.length_record]
    · rw [split, List.cons_append]
    · intro u member
      rcases List.mem_cons.mp member with rfl | before
      · exact ⟨begun, seen⟩
      · exact recent u before
    · have counted := tallies.record
      rw [here] at counted
      exact counted
  · intro none
    cases found.symm.trans none
  · intro start
    have small : l.maxEvents ≤ max32 := by
      have := l.settings.maxEventsPerWindow.toNat_lt
      simp only [maxEvents, max32, UInt32.size]
      omega
    have before := paces.bounded start
    rw [List.countP_cons]
    split
    · rename_i within
      have less := tracks.countP_lt here some_width room small (of_decide_eq_true within).2
      rw [maxEvents, paces.settings] at less
      exact less
    · exact before

/-- Entries that were in use in the last window are not forgotten. -/
theorem purgeIdle (paces : l.Paces s a allowed last) (le : last ≤ now)
    (some_span : 0 < s.span) (kept : s.span ≤ s.idleTtl) (b : Blocklist) :
    (l.purgeIdle b now).limiter.Paces s a allowed now := by
  refine ⟨paces.settings, ?_, ?_, paces.bounded⟩
  · intro e found
    simp only [Limiter.purgeIdle, AddressMap.get?_filter, AddressMap.get?_map] at found
    obtain ⟨before, -⟩ := Option.filter_eq_some_iff.mp found
    obtain ⟨old, there, rfl⟩ := Option.map_eq_some_iff.mp before
    have tracks := (paces.known old there).later le
    split
    · exact tracks.congr rfl (Nat.le_max_left ..)
    · exact tracks
  · intro gone
    simp only [Limiter.purgeIdle, AddressMap.get?_filter, AddressMap.get?_map] at gone
    cases found : l.entries.get? a with
    | none => exact fun u member => Nat.le_trans (paces.unknown found u member) le
    | some e =>
        rw [found, Option.map_some, Option.filter_eq_none_iff] at gone
        have dropped := gone _ rfl
        simp only [Bool.or_eq_true, decide_eq_true_eq, not_or] at dropped
        obtain ⟨free, idle⟩ := dropped
        rw [if_neg free, paces.settings] at idle
        have quiet : s.span ≤ now - e.lastSeen := Nat.le_trans kept (Nat.le_of_not_lt idle)
        have seen : e.lastSeen ≤ now :=
          Nat.le_of_lt (Nat.lt_of_sub_pos (Nat.lt_of_lt_of_le some_span quiet))
        apply (paces.known e found).forgotten le
        rw [Nat.add_comm]
        exact Nat.add_le_of_le_sub seen quiet

end Paces

end Limiter

def GuardEvent.allows (a : Address) (e : GuardEvent) : Bool :=
  match e.action, e.answer with
  | .check x, .verdict .allow => x = a
  | _, _ => false

theorem GuardEvent.allows_check (a x : Address) (now : Instant) (v : Verdict) :
    GuardEvent.allows a ⟨now, .check x, .verdict v⟩ = decide (v = .allow ∧ x = a) := by
  cases v <;> simp [allows]

def allowances (a : Address) (events : List GuardEvent) : List Instant :=
  (events.filter fun e => e.allows a).map fun e => e.now

namespace Guard

variable {g : Guard} {s : LimiterSettings} {a : Address} {allowed : List Instant}
  {last now : Instant}

theorem paces_act (paces : g.limiter.Paces s a allowed last) (le : last ≤ now)
    (enabled : s.enabled = true) (some_bucket : 0 < s.bucketCount)
    (some_width : 0 < s.bucketDuration) (kept : s.span ≤ s.idleTtl) {action : GuardAction}
    (unreset : action ≠ .reset a) :
    (g.act now action).2.limiter.Paces s a
      (if GuardEvent.allows a ⟨now, action, (g.act now action).1⟩ then now :: allowed
        else allowed) now := by
  have unchanged : g.limiter.Paces s a allowed now :=
    paces.keeps le some_bucket ⟨rfl, .inl rfl⟩
  cases action with
  | check x =>
      have decision := g.limiter.check_decision g.blocklist x now
      simp only [act, GuardEvent.allows_check, decide_eq_true_eq]
      split
      · rename_i own
        obtain ⟨allow, rfl⟩ := own
        obtain ⟨room, after⟩ := decision.room (paces.settings ▸ enabled) allow
        rw [after]
        exact paces.allow le some_bucket some_width room
      · rename_i other
        by_cases same : x = a
        · subst same
          exact paces.keeps le some_bucket (decision.keeps fun allow => other ⟨allow, rfl⟩)
        · exact paces.keeps le some_bucket (decision.keeps_of_ne same)
  | penalize x amount =>
      exact paces.keeps le some_bucket ((g.limiter.penalize_penalty g.blocklist x amount now).keeps a)
  | reset x =>
      have ne : x ≠ a := fun same => unreset (congrArg GuardAction.reset same)
      refine paces.keeps le some_bucket ⟨rfl, .inl ?_⟩
      simp only [act, Limiter.reset, AddressMap.get?_erase, if_neg ne]
  | purgeIdle =>
      exact paces.purgeIdle le (Nat.mul_pos some_bucket some_width) kept g.blocklist
  | _ => exact unchanged

/-- A whole run, from a guard that has allowed some checks already. -/
theorem paces_run (paces : g.limiter.Paces s a allowed last) (enabled : s.enabled = true)
    (some_bucket : 0 < s.bucketCount) (some_width : 0 < s.bucketDuration)
    (kept : s.span ≤ s.idleTtl) {steps : List (Instant × GuardAction)}
    (ordered : (last :: steps.map (·.1)).Pairwise (· ≤ ·))
    (unreset : ∀ step ∈ steps, step.2 ≠ .reset a) (start : Instant) :
    (allowed.countP fun u => start ≤ u ∧ u ≤ start + s.reach) +
      ((allowances a (g.run steps).1).countP fun u => start ≤ u ∧ u ≤ start + s.reach) ≤
        s.maxEventsPerWindow.toNat := by
  induction steps generalizing g allowed last with
  | nil => exact paces.bounded start
  | cons step rest ih =>
      obtain ⟨now, action⟩ := step
      rw [List.map_cons, List.pairwise_cons] at ordered
      have le : last ≤ now := ordered.1 now (List.mem_cons_self ..)
      have after := paces_act paces le enabled some_bucket some_width kept
        (unreset _ (List.mem_cons_self ..))
      have bound := ih after ordered.2 fun step member =>
        unreset step (List.mem_cons_of_mem _ member)
      refine Nat.le_trans (Nat.le_of_eq ?_) bound
      simp only [run, allowances, List.filter_cons]
      split
      · simp only [List.map_cons, List.countP_cons]
        omega
      · rfl

/-- However checks, penalties, blocks and evictions follow one another, the checks of an
address that are allowed in the time of all buckets but one fit into a window. -/
theorem allowances_le (settings : Settings) (valid : settings.Valid)
    (enabled : settings.limiter.enabled = true)
    (kept : settings.limiter.span ≤ settings.limiter.idleTtl) (blocklist : Blocklist)
    (steps : List (Instant × GuardAction)) (ordered : (steps.map (·.1)).Pairwise (· ≤ ·))
    (a : Address) (unreset : ∀ step ∈ steps, step.2 ≠ .reset a) (start : Instant) :
    ((allowances a (run ⟨.ofSettings settings, blocklist⟩ steps).1).countP fun u =>
      start ≤ u ∧ u ≤ start + settings.limiter.reach) ≤
        settings.limiter.maxEventsPerWindow.toNat := by
  obtain ⟨some_bucket, some_width⟩ := valid.window
  have paces : (Limiter.ofSettings settings).Paces settings.limiter a [] 0 := by
    refine ⟨rfl, ?_, ?_, ?_⟩
    · intro e found
      simp [Limiter.ofSettings] at found
    · intro _ u member
      cases member
    · intro start
      exact Nat.zero_le _
  have ordered : (0 :: steps.map (·.1)).Pairwise (· ≤ ·) :=
    List.pairwise_cons.mpr ⟨fun u _ => Nat.zero_le u, ordered⟩
  have bound := paces_run (g := ⟨.ofSettings settings, blocklist⟩) paces enabled some_bucket
    some_width kept ordered unreset start
  rwa [List.countP_nil, Nat.zero_add] at bound

/-- A client may connect once in the time of two buckets. -/
def slowSettings : Settings where
  limiter := { maxEventsPerWindow := 1, windowBuckets := 2 }

def client : Address := .v4 #v[198, 51, 100, 7]

def slowSteps : List (Instant × GuardAction) :=
  [(0, .check client), (150000000, .check client), (180000000, .purgeIdle),
    (200000000, .check client)]

theorem slow_allowances :
    allowances client (run ⟨.ofSettings slowSettings, .ofSettings {}⟩ slowSteps).1 =
        [0, 200000000] ∧
      ((allowances client (run ⟨.ofSettings slowSettings, .ofSettings {}⟩ slowSteps).1).countP
        fun u => 0 ≤ u ∧ u ≤ 0 + slowSettings.limiter.reach) ≤ 1 := by
  refine ⟨by decide +kernel, ?_⟩
  apply allowances_le slowSettings (by decide +kernel) rfl (by decide) (.ofSettings {}) slowSteps
  · decide
  · simp [slowSteps]

end Guard

end AdmissionGate
