import AdmissionGate.Proofs.Limiter.Accord
import AdmissionGate.Proofs.Limiter.Locality
import AdmissionGate.Proofs.Limiter.RateBound

/-!
The time that a throttled address is told to wait is the right one. The buckets are gone through
from the oldest on, and the one whose events have to leave is the last that keeps the window full.
It leaves when the window has rolled on by as many buckets as it has, which is the instant that
was told. Until then the window stays full, and from then on there is room. Only when that instant
is too far from the making of the entry to be told in 64 bits, the time that is told is shorter.
-/

namespace AdmissionGate

namespace Window

variable {w : Window} {events : List Nat} {room bucket oldest : Nat} {now next : Instant}

namespace Tallies

theorem countP_le_eq_add (events : List Nat) (bucket : Nat) :
    events.countP (bucket ≤ ·) = events.countP (· = bucket) + events.countP (bucket + 1 ≤ ·) := by
  apply countP_add_of_split
  intro b
  simp only [decide_eq_true_eq]
  split <;> split <;> split <;> omega

theorem countP_le_of_head_lt (tallies : w.Tallies events) (new : w.head < bucket) :
    events.countP (bucket ≤ ·) = 0 := by
  rw [List.countP_eq_zero]
  intro b member later
  have old := tallies.past b member
  exact absurd (of_decide_eq_true later) (by omega)

/-- Going through the buckets of a full window from one on, one comes to the bucket after which
there is room. -/
theorem freeingBucket? (tallies : w.Tallies events) (some_room : 0 < room)
    (inside : w.head < oldest + w.length) (small : events.countP (oldest ≤ ·) ≤ max32)
    (full : room ≤ events.countP (oldest ≤ ·)) :
    ∃ f, w.freeingBucket? room (events.countP (oldest ≤ ·)) (w.bucketsFrom oldest) = some f ∧
      oldest ≤ f ∧ f ≤ w.head ∧ room ≤ events.countP (f ≤ ·) ∧
        events.countP (f + 1 ≤ ·) < room := by
  simp only [bucketsFrom]
  generalize buckets : w.head + 1 - oldest = k
  induction k generalizing oldest with
  | zero =>
      rw [tallies.countP_le_of_head_lt (by omega)] at full
      omega
  | succ k ih =>
      have old : oldest ≤ w.head := by omega
      have split := countP_le_eq_add events oldest
      have left : events.countP (oldest ≤ ·) - w.count oldest =
          events.countP (oldest + 1 ≤ ·) := by
        rw [tallies.count old inside]
        omega
      simp only [List.range'_succ, Window.freeingBucket?, left]
      split
      · rename_i free
        exact ⟨oldest, rfl, Nat.le_refl _, old, full, free⟩
      · rename_i still
        obtain ⟨f, found, after, rest⟩ :=
          @ih (oldest + 1) (by omega) (by omega) (by omega) (by omega)
        exact ⟨f, found, by omega, rest⟩

/-- A full window has room again when its freeing bucket has left it, and not before. -/
theorem freeing? (tallies : w.Tallies events) (some_room : 0 < room)
    (small : (events.countP fun b => w.head < b + w.length) ≤ max32) (full : room ≤ w.total) :
    ∃ f, w.freeing? room = some f ∧ f ≤ w.head ∧ w.head < f + w.length ∧
      ∀ newest, w.head ≤ newest →
        ((events.countP fun b => newest < b + w.length) < room ↔ f + w.length ≤ newest) := by
  have buckets := tallies.buckets
  have oldest : (events.countP fun b => w.head < b + w.length) =
      events.countP (w.head + 1 - w.length ≤ ·) := by
    apply List.countP_congr
    intro b _
    simp only [decide_eq_true_eq]
    omega
  have total := tallies.total
  rw [Nat.min_eq_left small] at total
  rw [total] at full
  rw [Window.freeing?, total]
  rw [oldest] at small full ⊢
  obtain ⟨f, found, after, old, keeps, frees⟩ :=
    tallies.freeingBucket? some_room (by omega) small full
  refine ⟨f, found, old, by omega, fun newest _ => ⟨fun free => ?_, fun left => ?_⟩⟩
  · apply Nat.le_of_not_lt
    intro inside
    have more : events.countP (f ≤ ·) ≤ events.countP fun b => newest < b + w.length := by
      apply List.countP_mono_left
      intro b _ later
      simp only [decide_eq_true_eq] at later ⊢
      omega
    omega
  · have less : (events.countP fun b => newest < b + w.length) ≤
        events.countP (f + 1 ≤ ·) := by
      apply List.countP_mono_left
      intro b _ later
      simp only [decide_eq_true_eq] at later ⊢
      omega
    omega

end Tallies

theorem le_bucketOf_iff (wide : 0 < w.width) (later : 0 < bucket) (told : bucket ≤ max64) :
    bucket ≤ w.bucketOf now ↔ w.origin + w.width * bucket ≤ now := by
  have some_time : 0 < w.width * bucket := Nat.mul_pos wide later
  rw [bucketOf, Nat.max_eq_left wide, Nat.le_min, and_iff_left told,
    Nat.le_div_iff_mul_le wide, Nat.mul_comm, Instant.since]
  constructor
  · intro passed
    have begun : w.origin < now := Nat.lt_of_sub_pos (Nat.lt_of_lt_of_le some_time passed)
    exact Nat.add_le_of_le_sub' (Nat.le_of_lt begun) passed
  · exact Nat.le_sub_of_add_le'

/-- The head bucket has begun. -/
theorem start_le (wide : 0 < w.width) (begun : w.origin ≤ now) (head : bucket ≤ w.bucketOf now) :
    w.origin + w.width * bucket ≤ now := by
  rcases Nat.eq_zero_or_pos bucket with rfl | later
  · exact begun
  · exact (le_bucketOf_iff wide later (Nat.le_trans head (Nat.min_le_right ..))).mp head

/-- The instant at which the freeing bucket has left can be told: its offset fits 64 bits. -/
def Tells (w : Window) (room : Nat) : Prop :=
  ∀ f, w.freeing? room = some f → w.width * (f + w.length) ≤ max64

/-- The window of settings, at the last instant that it was used: it has the buckets of the
settings, and counts no more events than it may. -/
structure Within (w : Window) (s : LimiterSettings) (last : Instant) : Prop where
  width : w.width = s.bucketDuration
  length : w.length = s.bucketCount
  begun : w.origin ≤ last
  head : w.head ≤ w.bucketOf last
  bounded : ∃ events, w.Tallies events ∧
    (events.countP fun b => w.head < b + w.length) ≤ s.maxEventsPerWindow.toNat

namespace Within

variable {s : LimiterSettings} {last : Instant}

theorem later (within : w.Within s last) (le : last ≤ now) : w.Within s now :=
  ⟨within.width, within.length, Nat.le_trans within.begun le,
    Nat.le_trans within.head (w.bucketOf_mono le), within.bounded⟩

theorem ofBuckets (some_bucket : 0 < s.bucketCount) (now : Instant) :
    (ofBuckets s.windowBuckets.toNat s.bucketDuration now).Within s now := by
  refine ⟨rfl, ?_, Nat.le_refl _, Nat.zero_le _, [], tallies_ofBuckets .., Nat.zero_le _⟩
  rw [Window.length, Window.ofBuckets, Array.size_replicate]
  exact Nat.max_eq_left some_bucket

/-- Rolling forward, a window stands in the bucket of the instant. -/
theorem advance (within : w.Within s last) (le : last ≤ now) :
    (w.advance now).Within s now ∧ (w.advance now).head = w.bucketOf now := by
  obtain ⟨width, length, begun, head, events, tallies, few⟩ := within
  have rolled : (w.advance now).head = w.bucketOf now := by
    rw [head_advance]
    exact Nat.max_eq_right (Nat.le_trans head (w.bucketOf_mono le))
  refine ⟨⟨?_, ?_, ?_, ?_, events, tallies.advance now, ?_⟩, rolled⟩
  · rwa [width_advance]
  · rwa [length_advance]
  · rw [origin_advance]
    exact Nat.le_trans begun le
  · rw [bucketOf_advance]
    exact Nat.le_of_eq rolled
  · refine Nat.le_trans (List.countP_mono_left fun b _ inside => ?_) few
    rw [length_advance, head_advance] at inside
    simp only [decide_eq_true_eq] at inside ⊢
    omega

/-- Nothing is counted beyond the largest counter. -/
theorem small (_ : w.Within s last) : s.maxEventsPerWindow.toNat ≤ max32 := by
  have := s.maxEventsPerWindow.toNat_lt
  simp only [max32, UInt32.size]
  omega

theorem record (within : w.Within s last) (room : w.total < s.maxEventsPerWindow.toNat) :
    w.record.Within s last := by
  have small := within.small
  obtain ⟨width, length, begun, head, events, tallies, few⟩ := within
  refine ⟨width, ?_, begun, head, w.head :: events, tallies.record, ?_⟩
  · rwa [length_record]
  · rw [tallies.total] at room
    rw [length_record]
    have one : ((w.head :: events).countP fun b => w.record.head < b + w.length) ≤
        (events.countP fun b => w.head < b + w.length) + 1 := by
      rw [List.countP_cons]
      split
      · exact Nat.le_refl _
      · exact Nat.le_succ _
    omega

/-- A full window has room again when its freeing bucket has left it. -/
theorem opens (within : w.Within s now) (here : w.head = w.bucketOf now)
    (some_room : 0 < s.maxEventsPerWindow.toNat) (full : s.maxEventsPerWindow.toNat ≤ w.total) :
    ∃ f, w.freeing? s.maxEventsPerWindow.toNat = some f ∧ f ≤ w.head ∧ w.head < f + w.length ∧
      ∀ next, now ≤ next → ((w.advance next).total < s.maxEventsPerWindow.toNat ↔
        f + w.length ≤ w.bucketOf next) := by
  have small := within.small
  obtain ⟨-, -, -, -, events, tallies, few⟩ := within
  obtain ⟨f, freeing, old, inside, frees⟩ :=
    tallies.freeing? some_room (Nat.le_trans few small) full
  refine ⟨f, freeing, old, inside, fun next le => ?_⟩
  have rolled : w.head ≤ w.bucketOf next := here ▸ w.bucketOf_mono le
  have fewer : (events.countP fun b => w.bucketOf next < b + w.length) ≤ max32 := by
    refine Nat.le_trans (List.countP_mono_left fun b _ inside => ?_) (Nat.le_trans few small)
    simp only [decide_eq_true_eq] at inside ⊢
    omega
  rw [(tallies.advance next).total, head_advance, length_advance, Nat.max_eq_right rolled,
    Nat.min_eq_left fewer, frees _ rolled]

/-- What a full window tells to wait. It takes no longer than the whole window, in which there is
no room before, and there is room then if the instant could be told. -/
theorem retryAfter (within : w.Within s now) (here : w.head = w.bucketOf now)
    (wide : 0 < s.bucketDuration) (some_room : 0 < s.maxEventsPerWindow.toNat)
    (full : s.maxEventsPerWindow.toNat ≤ w.total) :
    let wait := w.retryAfter s.maxEventsPerWindow.toNat now
    0 < wait ∧ wait ≤ s.span ∧
      ∀ next, now ≤ next → next ≤ w.origin + max64 →
        (next < now + wait → s.maxEventsPerWindow.toNat ≤ (w.advance next).total) ∧
          (now + wait ≤ next → w.Tells s.maxEventsPerWindow.toNat →
            (w.advance next).total < s.maxEventsPerWindow.toNat) := by
  obtain ⟨f, freeing, old, inside, opens⟩ := within.opens here some_room full
  obtain ⟨width, length, begun, -, events, tallies, -⟩ := within
  rw [← width] at wide
  have some_bucket := tallies.buckets
  have span : s.span = w.width * w.length := by
    rw [LimiterSettings.span, ← width, ← length, Nat.mul_comm]
  have later : 0 < f + w.length := Nat.zero_lt_of_lt inside
  by_cases told : w.width * (f + w.length) ≤ max64
  · have numbered : f + w.length ≤ max64 := Nat.le_trans (Nat.le_mul_of_pos_left _ wide) told
    have not_yet : now < w.origin + w.width * (f + w.length) := by
      rw [← Nat.not_le, ← le_bucketOf_iff wide later numbered, ← here]
      exact Nat.not_le.mpr inside
    -- The freeing bucket is no later than the head, which has begun.
    have soon : w.origin + w.width * (f + w.length) ≤ now + s.span := by
      calc w.origin + w.width * (f + w.length)
        _ = w.origin + w.width * f + s.span := by rw [span, Nat.mul_add, Nat.add_assoc]
        _ ≤ w.origin + w.width * w.head + s.span :=
            Nat.add_le_add_right (Nat.add_le_add_left (Nat.mul_le_mul_left _ old) _) _
        _ ≤ now + s.span := Nat.add_le_add_right (start_le wide begun (Nat.le_of_eq here)) _
    have wait : w.retryAfter s.maxEventsPerWindow.toNat now =
        w.origin + w.width * (f + w.length) - now := by
      simp only [Window.retryAfter, freeing, bucketStart?, if_pos told, Instant.since]
    simp only [wait, Nat.add_sub_cancel' (Nat.le_of_lt not_yet)]
    refine ⟨Nat.sub_pos_of_lt not_yet, Nat.sub_le_iff_le_add'.mpr soon, fun next le _ => ?_⟩
    have opens := opens next le
    rw [le_bucketOf_iff wide later numbered] at opens
    exact ⟨fun early => Nat.le_of_not_lt fun room => absurd (opens.mp room) (Nat.not_le.mpr early),
      fun late _ => opens.mpr late⟩
  · have wait : w.retryAfter s.maxEventsPerWindow.toNat now = w.width := by
      simp only [Window.retryAfter, freeing, bucketStart?, if_neg told]
    simp only [wait]
    refine ⟨wide, span ▸ Nat.le_mul_of_pos_right _ some_bucket, fun next le reaches => ⟨fun _ => ?_,
      fun _ tells => absurd (tells f freeing) told⟩⟩
    -- The window rolls on too far only behind all offsets that can be told.
    apply Nat.le_of_not_lt
    intro room
    have gone := start_le wide (Nat.le_trans begun le) ((opens next le).mp room)
    exact told (Nat.le_of_add_le_add_left (Nat.le_trans gone reaches))

end Within

end Window

/-- Whoever is free stays free until somebody blocks the address. -/
theorem Blocklist.free_later {b : Blocklist} {a : Address} {now next : Instant}
    (free : b.status? a now = none) (le : now ≤ next) : b.status? a next = none := by
  rw [Option.eq_none_iff_forall_ne_some]
  intro status blocked
  obtain ⟨e, listed, lasts, -⟩ := status?_eq_some_iff.mp blocked
  rw [BlockEntry.isExpired_mono le (expired_of_free free listed)] at lasts
  contradiction

namespace Limiter

variable {l l' : Limiter} {b : Blocklist} {a : Address} {s : LimiterSettings}
  {last now next : Instant}

structure Paced (l : Limiter) (s : LimiterSettings) (a : Address) (last : Instant) : Prop where
  settings : l.settings = s
  entry : ∀ e, l.entries.get? a = some e → e.window.Within s last

namespace Paced

theorem entryFor (paced : l.Paced s a last) (le : last ≤ now) (some_bucket : 0 < s.bucketCount) :
    (l.entryFor a now).window.Within s now ∧
      (l.entryFor a now).window.head = (l.entryFor a now).window.bucketOf now := by
  simp only [Limiter.entryFor, refresh, Window.bucketOf_advance]
  cases found : l.entries.get? a with
  | some e => exact (paced.entry e found).advance le
  | none =>
      have fresh := Window.Within.ofBuckets some_bucket now
      rw [← paced.settings] at fresh ⊢
      exact fresh.advance (Nat.le_refl now)

theorem keeps (paced : l.Paced s a last) (le : last ≤ now) (some_bucket : 0 < s.bucketCount)
    (keeps : l.Keeps l' a now) : l'.Paced s a now := by
  obtain ⟨settings, same | ⟨e, found, window, -⟩⟩ := keeps
  · exact ⟨settings.trans paced.settings, fun e found =>
      (paced.entry e (same ▸ found)).later le⟩
  · refine ⟨settings.trans paced.settings, fun e' found' => ?_⟩
    cases found.symm.trans found'
    rw [window]
    exact (paced.entryFor le some_bucket).1

theorem purgeIdle (paced : l.Paced s a last) (le : last ≤ now) (b : Blocklist) :
    (l.purgeIdle b now).limiter.Paced s a now := by
  refine ⟨paced.settings, fun e found => ?_⟩
  simp only [Limiter.purgeIdle, AddressMap.get?_filter, AddressMap.get?_map] at found
  obtain ⟨before, -⟩ := Option.filter_eq_some_iff.mp found
  obtain ⟨old, there, rfl⟩ := Option.map_eq_some_iff.mp before
  have within := (paced.entry old there).later le
  split <;> exact within

theorem check (paced : l.Paced s a last) (le : last ≤ now) (some_bucket : 0 < s.bucketCount)
    (b : Blocklist) (x : Address) : (l.check b x now).limiter.Paced s a now := by
  have decision := l.check_decision b x now
  generalize l.check b x now = r at decision
  by_cases own : x = a
  · subst own
    by_cases refused : r.answer = .allow
    · cases decision with
      | allowed _ _ _ room =>
          rw [maxEvents, paced.settings] at room
          refine ⟨paced.settings, fun e found => ?_⟩
          rw [withEntry, AddressMap.get?_insert, if_pos rfl] at found
          cases found
          exact (paced.entryFor le some_bucket).1.record room
      | unguarded => exact paced.keeps le some_bucket ⟨rfl, .inl rfl⟩
      | _ => cases refused
    · exact paced.keeps le some_bucket (decision.keeps refused)
  · exact paced.keeps le some_bucket (decision.keeps_of_ne own)

end Paced

/-- The offset of an instant from the making of the entry of an address fits 64 bits. -/
def Reaches (l : Limiter) (a : Address) (t : Instant) : Prop :=
  ∀ e, l.entries.get? a = some e → t ≤ e.window.origin + max64

def Tells (l : Limiter) (a : Address) (now : Instant) : Prop :=
  (l.entryFor a now).window.Tells l.maxEvents

/-- A check that is throttled leaves the window as it was brought up, and full. -/
theorem Decision.of_throttle {r : Limited Verdict} (decision : Decision l b a now r)
    {reason : Reason} {wait : Duration} (throttled : r.answer = .throttle reason wait) :
    l.settings.enabled = true ∧ l.maxEvents ≤ (l.entryFor a now).window.total ∧
      wait = (l.entryFor a now).window.retryAfter l.maxEvents now ∧
      r.limiter.settings = l.settings ∧ r.blocklist.status? a now = none ∧
      ∃ e, r.limiter.entries.get? a = some e ∧ e.window = (l.entryFor a now).window := by
  cases decision with
  | throttled free enabled _ full =>
      cases throttled
      refine ⟨enabled, Nat.le_of_not_lt full, rfl, rfl, ?_,
        l.addThrottle (l.entryFor a now) now, ?_, rfl⟩
      · exact ((Blocklist.Lapse.settle b a now).status?_eq a).trans free
      · rw [withEntry, AddressMap.get?_insert, if_pos rfl]
  | _ => cases throttled

/-- Only an address with an entry has a full window. -/
theorem Reaches.origin {t : Instant} (reaches : l.Reaches a t) (some_room : 0 < l.maxEvents)
    (full : l.maxEvents ≤ (l.entryFor a now).window.total) :
    t ≤ (l.entryFor a now).window.origin + max64 := by
  simp only [entryFor, refresh] at full ⊢
  cases found : l.entries.get? a with
  | some e =>
      rw [Option.getD_some, Window.origin_advance]
      exact reaches e found
  | none =>
      have empty := (Window.tallies_ofBuckets l.settings.windowBuckets.toNat
        l.settings.bucketDuration now).advance now
      rw [found, Option.getD_none, freshEntry, empty.total, List.countP_nil, Nat.zero_min] at full
      exact absurd full (Nat.not_le.mpr some_room)

/-- With the same window and no block, a check goes by the room in the window. -/
theorem check_of_window {w : Window} {e : LimiterEntry} (enabled : l.settings.enabled = true)
    (free : b.status? a next = none) (found : l.entries.get? a = some e) (same : e.window = w) :
    (l.maxEvents ≤ (w.advance next).total → (l.check b a next).answer ≠ .allow) ∧
      ((w.advance next).total < l.maxEvents → (l.check b a next).answer.isThrottled = false ∧
        ∀ length, (l.check b a next).answer ≠ .block .rateExceeded length) := by
  have window : (l.entryFor a next).window = w.advance next := by
    rw [entryFor, found, Option.getD_some, refresh, same]
  have decision := l.check_decision b a next
  generalize l.check b a next = r at decision
  rw [← window]
  cases decision with
  | blocked status => cases free.symm.trans status
  | unguarded _ disabled => cases enabled.symm.trans disabled
  | disreputable => exact ⟨fun _ => by simp [escalate], fun _ => ⟨rfl, by simp [escalate]⟩⟩
  | allowed _ _ _ room =>
      exact ⟨fun full => absurd room (Nat.not_lt.mpr full), fun _ => ⟨rfl, by simp⟩⟩
  | excessive _ _ _ full | tipped _ _ _ full =>
      exact ⟨fun _ => by simp [escalate], fun room => absurd room full⟩
  | throttled _ _ _ full => exact ⟨fun _ => by simp, fun room => absurd room full⟩

end Limiter

namespace Guard

variable {g g' : Guard} {s : LimiterSettings} {a : Address} {last now : Instant}
  {action : GuardAction}

theorem paced_act (paced : g.limiter.Paced s a last) (le : last ≤ now)
    (some_bucket : 0 < s.bucketCount) (action : GuardAction) :
    (g.act now action).2.limiter.Paced s a now := by
  have unchanged : g.limiter.Paced s a now := paced.keeps le some_bucket ⟨rfl, .inl rfl⟩
  cases action with
  | check x => exact paced.check le some_bucket g.blocklist x
  | penalize x amount =>
      exact paced.keeps le some_bucket
        ((g.limiter.penalize_penalty g.blocklist x amount now).keeps a)
  | reset x =>
      refine ⟨paced.settings, fun e found => ?_⟩
      simp only [act, Limiter.reset, AddressMap.get?_erase] at found
      split at found
      · cases found
      · exact unchanged.entry e found
  | purgeIdle => exact paced.purgeIdle le g.blocklist
  | _ => exact unchanged

theorem paced_run (paced : g.limiter.Paced s a last) (some_bucket : 0 < s.bucketCount)
    {steps : List (Instant × GuardAction)}
    (ordered : (last :: steps.map (·.1)).Pairwise (· ≤ ·)) (le : last ≤ now)
    (past : ∀ step ∈ steps, step.1 ≤ now) : (g.run steps).2.limiter.Paced s a now := by
  induction steps generalizing g last with
  | nil => exact paced.keeps le some_bucket ⟨rfl, .inl rfl⟩
  | cons step rest ih =>
      obtain ⟨t, action⟩ := step
      rw [List.map_cons, List.pairwise_cons] at ordered
      have after := paced_act paced (ordered.1 t (List.mem_cons_self ..)) some_bucket action
      exact ih after ordered.2 (past _ (List.mem_cons_self ..))
        fun step later => past step (List.mem_cons_of_mem _ later)

/-- What is done about other addresses only leaves this one alone. -/
theorem run_elsewhere {steps : List (Instant × GuardAction)}
    (elsewhere : ∀ step ∈ steps, ∃ x, step.2.about? = some x ∧ x ≠ a) :
    g.Agrees a (g.run steps).2 := by
  induction steps generalizing g with
  | nil => exact .refl a g
  | cons step rest ih =>
      obtain ⟨x, about, other⟩ := elsewhere step (List.mem_cons_self ..)
      exact (g.act_elsewhere step.1 about other).trans
        (ih fun step later => elsewhere step (List.mem_cons_of_mem _ later))

/-- An address that is told to wait is not let through before the time is over, and from then on
is not throttled, if nothing is done about it meanwhile and the instant could be told. -/
theorem retry_exact (settings : Settings) (valid : settings.Valid)
    (some_room : 0 < settings.limiter.maxEventsPerWindow.toNat) (blocklist : Blocklist)
    (steps : List (Instant × GuardAction)) (ordered : (steps.map (·.1)).Pairwise (· ≤ ·))
    (a : Address) (now : Instant) (past : ∀ step ∈ steps, step.1 ≤ now) :
    let g := (run ⟨.ofSettings settings, blocklist⟩ steps).2
    let checked := g.act now (.check a)
    ∀ reason wait, checked.1 = .verdict (.throttle reason wait) →
      0 < wait ∧ wait ≤ settings.limiter.span ∧
        ∀ between, (∀ step ∈ between, ∃ x, step.2.about? = some x ∧ x ≠ a) →
          ∀ next, now ≤ next → g.limiter.Reaches a next →
            let g' := (checked.2.run between).2
            let verdict := (g'.limiter.check g'.blocklist a next).answer
            (next < now + wait → verdict ≠ .allow) ∧
              (now + wait ≤ next → g.limiter.Tells a now → verdict.isThrottled = false ∧
                ∀ length, verdict ≠ .block .rateExceeded length) := by
  intro g checked reason wait throttled
  obtain ⟨some_bucket, some_width⟩ := valid.window
  have fresh : (Limiter.ofSettings settings).Paced settings.limiter a 0 :=
    ⟨rfl, fun e found => by simp [Limiter.ofSettings] at found⟩
  have paced : g.limiter.Paced settings.limiter a now :=
    paced_run (g := ⟨.ofSettings settings, blocklist⟩) fresh some_bucket
      (List.pairwise_cons.mpr ⟨fun u _ => Nat.zero_le u, ordered⟩) (Nat.zero_le now) past
  have max : g.limiter.maxEvents = settings.limiter.maxEventsPerWindow.toNat := by
    rw [Limiter.maxEvents, paced.settings]
  obtain ⟨enabled, full, rfl, same, free, e, found, window⟩ :=
    (g.limiter.check_decision g.blocklist a now).of_throttle
      (GuardAnswer.verdict.inj throttled)
  obtain ⟨within, here⟩ := paced.entryFor (Nat.le_refl now) some_bucket
  have retry := within.retryAfter here some_width some_room (max ▸ full)
  rw [← max] at retry
  obtain ⟨some_wait, soon, opens⟩ := retry
  refine ⟨some_wait, soon, fun between elsewhere next le reaches => ?_⟩
  obtain ⟨shut, room⟩ := opens next le (reaches.origin (max ▸ some_room) full)
  have agrees := run_elsewhere (g := checked.2) elsewhere
  have answer := (agrees.limiter.check agrees.blocklist next).answer
  obtain ⟨waits, passes⟩ := Limiter.check_of_window (l := checked.2.limiter)
    (b := checked.2.blocklist) (same ▸ enabled) (Blocklist.free_later free le) found window
  have unchanged : checked.2.limiter.maxEvents = g.limiter.maxEvents :=
    congrArg (fun s : LimiterSettings => s.maxEventsPerWindow.toNat) same
  rw [unchanged] at waits passes
  intro g' verdict
  simp only [verdict, g', answer]
  exact ⟨fun early => waits (shut early), fun late tells => passes (room late tells)⟩

def pairSettings : Settings where
  limiter := { maxEventsPerWindow := 2, windowBuckets := 3 }

def pairSteps : List (Instant × GuardAction) :=
  [(0, .check client), (120000000, .check client), (130000000, .view client)]

/-- In the third bucket a client has to wait for the first one to leave, as long as that may be;
a check of someone else in between does not count. -/
theorem client_retries :
    let g := (run ⟨.ofSettings pairSettings, .ofSettings {}⟩ pairSteps).2
    let checked := g.act 250000000 (.check client)
    let between := [(260000000, .check neighbour)]
    let verdict next :=
      let g' := (checked.2.run between).2
      (g'.limiter.check g'.blocklist client next).answer
    checked.1 = .verdict (.throttle .rateExceeded 50000000) ∧
      verdict 299999999 ≠ .allow ∧ (verdict 300000000).isThrottled = false := by
  intro g checked between verdict
  have throttled : checked.1 = .verdict (.throttle .rateExceeded 50000000) :=
    congrArg GuardAnswer.verdict
      (show (g.limiter.check g.blocklist client 250000000).answer = _ by decide +kernel)
  have reaches {next : Instant} (near : next ≤ 300000000) : g.limiter.Reaches client next := by
    have early : (g.limiter.entries.get? client).all fun e =>
        300000000 ≤ e.window.origin + max64 := by decide +kernel
    intro e found
    rw [found, Option.all_some, decide_eq_true_eq] at early
    exact Nat.le_trans near early
  have tells : g.limiter.Tells client 250000000 := by
    have early : ((g.limiter.entryFor client 250000000).window.freeing? g.limiter.maxEvents).all
        fun f => (g.limiter.entryFor client 250000000).window.width *
          (f + (g.limiter.entryFor client 250000000).window.length) ≤ max64 := by decide +kernel
    intro f freeing
    rwa [freeing, Option.all_some, decide_eq_true_eq] at early
  obtain ⟨-, -, retries⟩ := retry_exact pairSettings (by decide +kernel) (by decide)
    (.ofSettings {}) pairSteps (by simp [pairSteps]) client 250000000 (by simp [pairSteps]) _ _
    throttled
  have elsewhere : ∀ step ∈ between, ∃ x, step.2.about? = some x ∧ x ≠ client := by
    simp [between, GuardAction.about?, neighbour, client]
  exact ⟨throttled, (retries between elsewhere 299999999 (by decide) (reaches (by decide))).1
    (by decide), ((retries between elsewhere 300000000 (by decide) (reaches (by decide))).2
      (by decide) tells).1⟩

def ageSettings : Settings where
  limiter := { maxEventsPerWindow := 1, windowBuckets := 2, bucketMs := 7000000000000 }

def ageSteps : List (Instant × GuardAction) :=
  [(0, .penalize client 1.0), (7000000000000000000, .check client)]

/-- The event in the second bucket leaves after three of them, which cannot be told in 64 bits.
So the client is told to wait for one bucket, and is throttled again after that. -/
theorem client_waits_again :
    let g := (run ⟨.ofSettings ageSettings, .ofSettings {}⟩ ageSteps).2
    let checked := g.act 7000000000000000000 (.check client)
    ageSettings.Valid ∧
      (g.limiter.entries.get? client).map (·.window.origin) = some 0 ∧
      (g.limiter.check g.blocklist client 7000000000000000000).answer =
        .throttle .rateExceeded 7000000000000000000 ∧
      14000000000000000000 ≤ max64 ∧
      (checked.2.limiter.check checked.2.blocklist client 14000000000000000000).answer =
        .throttle .rateExceeded 7000000000000000000 := by
  refine ⟨by decide +kernel, by decide +kernel, by decide +kernel, by decide, by decide +kernel⟩

end Guard

end AdmissionGate
