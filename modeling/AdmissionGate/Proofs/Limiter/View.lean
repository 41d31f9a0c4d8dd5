import AdmissionGate.Proofs.Limiter.Entries
import AdmissionGate.Proofs.Limiter.Retry
import AdmissionGate.Proofs.Limiter.Throttles

/-!
A view of an entry shows what the next check would find. The view adds up the counters of the
buckets that are still in the window, without rolling it, where a check zeroes the slots that have
left and adds up the whole ring; and it counts the throttle events that are young enough, where a
check drops the old ones from the front. Both come to the same, whatever the window has been
through and however long nothing happened. And looking leaves no trace.
-/

namespace AdmissionGate

namespace Window

variable {w : Window} {events : List Nat} {oldest : Nat}

namespace Tallies

theorem countP_buckets_succ (events : List Nat) (oldest k : Nat) :
    events.countP (fun b => oldest ≤ b ∧ b < oldest + (k + 1)) =
      events.countP (fun b => oldest ≤ b ∧ b < oldest + k) + events.countP (· = oldest + k) := by
  apply countP_add_of_split
  intro b
  simp only [decide_eq_true_eq]
  split <;> split <;> split <;> omega

/-- The counters of consecutive buckets of the window, added up. -/
theorem foldl_buckets (tallies : w.Tallies events) (inside : w.head < oldest + w.length) {k : Nat}
    (old : oldest + k ≤ w.head + 1) :
    ((List.range' oldest k).map w.count).foldl addCounts 0 =
      min (events.countP fun b => oldest ≤ b ∧ b < oldest + k) max32 := by
  induction k with
  | zero =>
      have none : (events.countP fun b => oldest ≤ b ∧ b < oldest + 0) = 0 := by
        rw [List.countP_eq_zero]
        intro b _ between
        exact absurd (of_decide_eq_true between) (by omega)
      rw [none]
      rfl
  | succ k ih =>
      have counter : w.count (oldest + k) =
          min (events.countP (· = oldest + k)) max32 := tallies.count (by omega) (by omega)
      rw [List.range'_concat, List.map_append, List.foldl_append, ih (by omega)]
      simp only [List.map_cons, List.map_nil, List.foldl_cons, List.foldl_nil, Nat.one_mul,
        counter, addCounts_min, countP_buckets_succ]

/-- The total without rolling the window is the total of the window that was rolled. -/
theorem totalAt (tallies : w.Tallies events) (now : Instant) :
    w.totalAt now = (w.advance now).total := by
  have buckets := tallies.buckets
  have inside : w.head < max (w.bucketOf now) w.head + 1 - w.length + w.length := by omega
  rw [(tallies.advance now).total, head_advance, length_advance, Nat.max_comm w.head]
  simp only [Window.totalAt, bucketsFrom]
  generalize max (w.bucketOf now) w.head = newest at inside
  by_cases left : newest + 1 - w.length ≤ w.head + 1
  · rw [tallies.foldl_buckets inside (by omega)]
    congr 1
    apply List.countP_congr
    intro b member
    have early := tallies.past b member
    simp only [decide_eq_true_eq]
    omega
  · -- All events have left the window.
    have none : (events.countP fun b => newest < b + w.length) = 0 := by
      rw [List.countP_eq_zero]
      intro b member within
      have early := tallies.past b member
      exact absurd (of_decide_eq_true within) (by omega)
    have empty : w.head + 1 - (newest + 1 - w.length) = 0 := by omega
    rw [none, empty]
    rfl

end Tallies

end Window

def LimiterEntry.reading (e : LimiterEntry) : EntryView where
  score := e.score
  eventsInWindow := e.window.total
  recentThrottles := e.throttles.length
  totalThrottles := e.totalThrottles
  level := e.level

namespace Limiter

variable {l : Limiter} {b : Blocklist} {a : Address} {e : LimiterEntry} {now : Instant}

/-- In an ordered memory the young events are those that are left when it is cut at the front. -/
theorem filter_isRecent (l : Limiter) (now : Instant) {ts : List Instant}
    (sorted : ts.Pairwise (· ≤ ·)) :
    ts.filter (l.isRecent now) = ts.dropWhile fun t => !l.isRecent now t := by
  induction ts with
  | nil => rfl
  | cons t rest ih =>
      rw [List.pairwise_cons] at sorted
      cases recent : l.isRecent now t with
      | false => simp [recent, ih sorted.2]
      | true =>
          have all : ∀ u ∈ t :: rest, l.isRecent now u = true := by
            intro u member
            rcases List.mem_cons.mp member with rfl | later
            · exact recent
            · exact isRecent_mono (sorted.1 u later) recent
          rw [List.filter_eq_self.mpr all]
          simp [recent]

/-- The view is the reading of the entry brought up to the instant. -/
theorem view?_eq_reading {last : Instant} (timely : e.Timely last)
    (found : l.entries.get? a = some e) (now : Instant) :
    l.view? a now = some (l.refresh e now).reading := by
  obtain ⟨events, tallies⟩ := timely.tallies
  simp only [view?, found, Option.map_some, tallies.totalAt, l.filter_isRecent now timely.sorted]
  rfl

theorem entryFor_of_found (found : l.entries.get? a = some e) (now : Instant) :
    l.entryFor a now = l.refresh e now := by
  rw [entryFor, found, Option.getD_some]

/-- The view can be told while the bucket after the newest one has a number. -/
theorem viewOverruns_eq (found : l.entries.get? a = some e) (now : Instant) :
    l.viewOverruns a now = decide ((l.refresh e now).window.head = max64) := by
  rw [viewOverruns, found, Option.any_some, Window.isLastAt, refresh, Window.head_advance,
    Nat.max_comm]

/-- Whoever is free and in good standing is let in by the number of events alone. -/
theorem check_eq_allow_iff (enabled : l.settings.enabled = true) (free : b.status? a now = none)
    (low : l.blocksAt (l.entryFor a now).score = false) :
    (l.check b a now).answer = .allow ↔ (l.entryFor a now).window.total < l.maxEvents := by
  have decision := l.check_decision b a now
  generalize l.check b a now = r at decision
  cases decision with
  | blocked status => cases free.symm.trans status
  | unguarded _ disabled => cases enabled.symm.trans disabled
  | disreputable _ _ high => cases low.symm.trans high
  | allowed _ _ _ room => exact ⟨fun _ => room, fun _ => rfl⟩
  | excessive _ _ _ full | tipped _ _ _ full | throttled _ _ _ full =>
      exact ⟨fun allowed => (nomatch allowed), fun room => absurd room full⟩

end Limiter

def GuardAction.isView : GuardAction → Bool
  | .view _ => true
  | _ => false

namespace Guard

theorem act_view (g : Guard) (now : Instant) {action : GuardAction}
    (looks : action.isView = true) : (g.act now action).2 = g := by
  cases action with
  | view a => rfl
  | _ => cases looks

/-- A run with all the looks left out comes to the same. -/
theorem run_unseen (g : Guard) (steps : List (Instant × GuardAction)) :
    g.run (steps.filter fun step => !step.2.isView) =
      ((g.run steps).1.filter fun event => !event.action.isView, (g.run steps).2) := by
  induction steps generalizing g with
  | nil => rfl
  | cons step rest ih =>
      obtain ⟨now, action⟩ := step
      cases looks : action.isView with
      | true => simp [run, looks, ih, g.act_view now looks]
      | false => simp [run, looks, ih]

/-- The view of a tracked address at any instant is the reading of its entry as the next check
would bring it up and go by it; and what is done and answered is the same with and without looks
in between. -/
theorem view_reads_entry (settings : Settings) (blocklist : Blocklist)
    (steps : List (Instant × GuardAction)) (ordered : (steps.map (·.1)).Pairwise (· ≤ ·))
    (a : Address) :
    let g := (run ⟨.ofSettings settings, blocklist⟩ steps).2
    (∀ e, g.limiter.entries.get? a = some e → ∀ now,
      let up := g.limiter.entryFor a now
      up = g.limiter.refresh e now ∧ up.window = e.window.advance now ∧
      (up.window.head < max64 → g.limiter.viewOverruns a now = false) ∧
      g.limiter.view? a now = some up.reading ∧ up.throttles.length ≤ max32 ∧
      g.limiter.score? a now = some up.score ∧
      (settings.limiter.enabled = true → g.blocklist.status? a now = none →
        g.limiter.blocksAt up.reading.score = false →
        ((g.limiter.check g.blocklist a now).answer = .allow ↔
          up.reading.eventsInWindow < settings.limiter.maxEventsPerWindow.toNat))) ∧
    ∀ later, g.run (later.filter fun step => !step.2.isView) =
      ((g.run later).1.filter fun event => !event.action.isView, (g.run later).2) := by
  intro g
  have ordered : (0 :: steps.map (·.1)).Pairwise (· ≤ ·) :=
    List.pairwise_cons.mpr ⟨fun u _ => Nat.zero_le u, ordered⟩
  -- Any instant behind the run will do.
  have past : ∀ step ∈ steps, step.1 ≤ (steps.map (·.1)).sum :=
    fun step member => List.le_sum_of_mem (List.mem_map_of_mem member)
  have timely := timely_run (g := ⟨.ofSettings settings, blocklist⟩)
    (Limiter.timely_ofSettings settings 0) ordered (Nat.zero_le _) past
  refine ⟨?_, g.run_unseen⟩
  intro e found now up
  have same : up = g.limiter.refresh e now := Limiter.entryFor_of_found found now
  have unchanged : g.limiter.settings = settings.limiter := settings_run _ steps
  refine ⟨same, congrArg LimiterEntry.window same, fun fits => ?_, ?_, ?_, ?_, ?_⟩
  · rw [same] at fits
    rw [Limiter.viewOverruns_eq found, decide_eq_false_iff_not]
    exact Nat.ne_of_lt fits
  · rw [same]
    exact Limiter.view?_eq_reading (timely a e found) found now
  · rw [same]
    exact Nat.le_trans (List.dropWhile_sublist _).length_le (timely a e found).few
  · rw [same, Limiter.score?, found, Option.map_some]
    rfl
  · intro enabled free low
    rw [← unchanged] at enabled ⊢
    exact Limiter.check_eq_allow_iff enabled free low

/-- The last visit is so late that its bucket takes the slot of the first. -/
def lateSteps : List (Instant × GuardAction) :=
  [(0, .check client), (120000000, .check client), (250000000, .check client),
    (900000000, .check client)]

/-- Of the client's events only the last one is still in the window, where there is room for one
more; a look at it changes nothing. -/
theorem client_is_seen :
    let g := (run ⟨.ofSettings pairSettings, .ofSettings {}⟩ lateSteps).2
    let checks := [(1050000000, GuardAction.check client)]
    ∃ v, g.limiter.view? client 1050000000 = some v ∧ v.eventsInWindow = 1 ∧
      v.recentThrottles = 1 ∧ g.limiter.viewOverruns client 1050000000 = false ∧
      (g.limiter.check g.blocklist client 1050000000).answer = .allow ∧
      (g.run ((1000000000, .view client) :: checks)).2 = (g.run checks).2 := by
  intro g checks
  obtain ⟨reads, unseen⟩ := view_reads_entry pairSettings (.ofSettings {}) lateSteps (by decide)
    client
  obtain ⟨e, found⟩ := Option.isSome_iff_exists.mp
    (show (g.limiter.entries.get? client).isSome = true by decide +kernel)
  obtain ⟨-, -, told, view, -, -, allows⟩ := reads e found 1050000000
  have events : (g.limiter.entryFor client 1050000000).window.total = 1 := by decide +kernel
  have throttles : (g.limiter.entryFor client 1050000000).throttles.length = 1 := by
    decide +kernel
  refine ⟨_, view, by simpa only [LimiterEntry.reading] using events,
    by simpa only [LimiterEntry.reading] using throttles, told (by decide +kernel), ?_, ?_⟩
  · refine (allows rfl (by decide +kernel) (by decide +kernel)).mpr ?_
    have room : (g.limiter.entryFor client 1050000000).window.total <
        pairSettings.limiter.maxEventsPerWindow.toNat := by
      rw [events]
      decide
    simpa only [LimiterEntry.reading] using room
  · exact (congrArg Prod.snd (unseen ((1000000000, .view client) :: checks))).symm

end Guard

end AdmissionGate
