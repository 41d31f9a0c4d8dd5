import AdmissionGate.Proofs.Limiter.Tally

/-!
A window under any use. Whatever the order of the instants that it is rolled to and however far
they are apart, it counts each event in the bucket of the latest instant that it has seen. Each of
the last buckets has a slot of its own, which counts its events, a slot of none of them is zero,
and the total counts the events in the last buckets.
-/

namespace AdmissionGate

inductive WindowStep where
  | advance (now : Instant)
  | record

namespace WindowStep

def latest : Instant → List WindowStep → Instant
  | seen, [] => seen
  | seen, advance now :: rest => latest (max seen now) rest
  | seen, record :: rest => latest seen rest

/-- The events of some steps, each at the latest instant seen before it. -/
def events : Instant → List WindowStep → List Instant
  | _, [] => []
  | seen, advance now :: rest => events (max seen now) rest
  | seen, record :: rest => seen :: events seen rest

/-- What is true of the first instant and of all that are rolled to is true of all that count. -/
theorem forall_of_advances {P : Instant → Prop} {seen : Instant} {steps : List WindowStep}
    (start : P seen) (advances : ∀ now, advance now ∈ steps → P now) :
    P (latest seen steps) ∧ ∀ u ∈ events seen steps, P u := by
  induction steps generalizing seen with
  | nil => exact ⟨start, fun _ member => (nomatch member)⟩
  | cons s rest ih =>
      have later now (member : advance now ∈ rest) : P now :=
        advances now (List.mem_cons_of_mem _ member)
      cases s with
      | advance now =>
          have there : P (max seen now) := by
            rw [Nat.max_def]
            split
            · exact advances now (List.mem_cons_self ..)
            · exact start
          exact ih there later
      | record =>
          obtain ⟨last, counted⟩ := ih start later
          exact ⟨last, List.forall_mem_cons.mpr ⟨start, counted⟩⟩

end WindowStep

namespace Window

variable {w : Window} {seen : Instant} {events : List Nat} {bucket i : Nat}

def step (w : Window) : WindowStep → Window
  | .advance now => w.advance now
  | .record => w.record

def after (w : Window) (steps : List WindowStep) : Window := steps.foldl step w

/-- Number of the bucket of an instant, however large. A bucket lasts for a nanosecond at least. -/
def bucketNumber (width : Duration) (origin now : Instant) : Nat := (now - origin) / max width 1

theorem bucketOf_eq_bucketNumber {now : Instant}
    (told : bucketNumber w.width w.origin now ≤ max64) :
    w.bucketOf now = bucketNumber w.width w.origin now :=
  Nat.min_eq_left told

theorem bucketOf_max (w : Window) (u v : Instant) :
    w.bucketOf (max u v) = max (w.bucketOf u) (w.bucketOf v) := by
  rcases Nat.le_total u v with le | le
  · rw [Nat.max_eq_right le, Nat.max_eq_right (w.bucketOf_mono le)]
  · rw [Nat.max_eq_left le, Nat.max_eq_left (w.bucketOf_mono le)]

/-- The window ends with the bucket of the latest instant that it has seen, and tallies events. -/
structure StandsAt (w : Window) (seen : Instant) (events : List Nat) : Prop where
  head : w.head = w.bucketOf seen
  tallies : w.Tallies events

namespace StandsAt

theorem ofBuckets (buckets : Nat) (width : Duration) (origin : Instant) :
    (ofBuckets buckets width origin).StandsAt origin [] where
  head := by simp [Window.ofBuckets, bucketOf, Instant.since]
  tallies := tallies_ofBuckets ..

theorem advance (stands : w.StandsAt seen events) (now : Instant) :
    (w.advance now).StandsAt (max seen now) events where
  head := by rw [head_advance, stands.head, bucketOf_advance, bucketOf_max]
  tallies := stands.tallies.advance now

theorem record (stands : w.StandsAt seen events) :
    w.record.StandsAt seen (events ++ [w.bucketOf seen]) where
  head := stands.head
  tallies := by
    rw [← stands.head]
    exact stands.tallies.record.perm (List.perm_append_singleton ..).symm

theorem after (stands : w.StandsAt seen events) (steps : List WindowStep) :
    (w.after steps).StandsAt (WindowStep.latest seen steps)
      (events ++ (WindowStep.events seen steps).map w.bucketOf) := by
  -- Buckets are told the same after each step, so the events so far keep theirs.
  induction steps generalizing w seen events with
  | nil => simpa [Window.after, WindowStep.latest, WindowStep.events] using stands
  | cons s rest ih =>
      cases s with
      | advance now =>
          have run := ih (stands.advance now)
          rwa [bucketOf_advance] at run
      | record =>
          have run := ih stands.record
          rwa [List.append_assoc] at run

end StandsAt

theorem step_frame (w : Window) (s : WindowStep) :
    (w.step s).length = w.length ∧ (w.step s).bucketOf = w.bucketOf := by
  cases s with
  | advance now => exact ⟨w.length_advance now, w.bucketOf_advance now⟩
  | record => exact ⟨w.length_record, rfl⟩

theorem after_frame (w : Window) (steps : List WindowStep) :
    (w.after steps).length = w.length ∧ (w.after steps).bucketOf = w.bucketOf := by
  induction steps generalizing w with
  | nil => exact ⟨rfl, rfl⟩
  | cons s rest ih =>
      obtain ⟨length, bucketOf⟩ := w.step_frame s
      exact ⟨(ih _).1.trans length, (ih _).2.trans bucketOf⟩

theorem getElem?_counts (there : i < w.length) : w.counts[i]? = some (w.counts.getD i 0) := by
  rw [Array.getD_eq_getD_getElem?, Array.getElem?_eq_getElem there, Option.getD_some]

theorem Tallies.slot_of_bucket (tallies : w.Tallies events) (inside : w.head < bucket + w.length)
    (old : bucket ≤ w.head) :
    w.counts[bucket % w.length]? = some (min (events.count bucket) max32) := by
  have counter := tallies.count old inside
  rw [Window.count, slot] at counter
  rw [getElem?_counts (Nat.mod_lt _ tallies.buckets), counter, List.count]
  rfl

theorem Tallies.slot_of_none (tallies : w.Tallies events) (there : i < w.length)
    (idle : ∀ b, w.head < b + w.length → b ≤ w.head → b % w.length ≠ i) :
    w.counts[i]? = some 0 := by
  have none : (events.countP fun b => w.head < b + w.length ∧ b % w.length = i) = 0 := by
    rw [List.countP_eq_zero]
    intro b member counted
    obtain ⟨inside, slot⟩ := of_decide_eq_true counted
    exact idle b inside (tallies.past b member) slot
  rw [getElem?_counts there, tallies.slots i there, none]
  rfl

/-- However a window is rolled and however often events are recorded in it, the slot of each of
its last buckets counts the events in that bucket, the other slots are zero, and the total counts
the events in all of the last buckets, where an event is in the bucket of the latest instant seen
before it. The counters stop at the largest one. -/
theorem ring_counts_events (n : Nat) (some_bucket : 0 < n) (width : Duration) (origin : Instant)
    (steps : List WindowStep)
    (told : ∀ now, .advance now ∈ steps → bucketNumber width origin now ≤ max64) :
    let w := (ofBuckets n width origin).after steps
    let events := (WindowStep.events origin steps).map (bucketNumber width origin)
    w.counts.size = n ∧
    w.head = bucketNumber width origin (WindowStep.latest origin steps) ∧
    (∀ b, w.head < b + n → b ≤ w.head →
      w.counts[b % n]? = some (min (events.count b) max32)) ∧
    (∀ i, i < n → (∀ b, w.head < b + n → b ≤ w.head → b % n ≠ i) → w.counts[i]? = some 0) ∧
    w.total = min (events.countP fun b => w.head < b + n ∧ b ≤ w.head) max32 := by
  intro w events
  obtain ⟨length, bucketOf⟩ := (ofBuckets n width origin).after_frame steps
  have length : w.length = n := by
    rw [length, Window.length, Window.ofBuckets, Array.size_replicate]
    exact Nat.max_eq_left some_bucket
  have first : bucketNumber width origin origin ≤ max64 := by
    rw [bucketNumber, Nat.sub_self, Nat.zero_div]
    exact Nat.zero_le _
  -- No instant that counts is so late that its bucket has no number.
  obtain ⟨last, counted⟩ := WindowStep.forall_of_advances
    (P := fun u => (ofBuckets n width origin).bucketOf u = bucketNumber width origin u)
    (bucketOf_eq_bucketNumber first) fun now member => bucketOf_eq_bucketNumber (told now member)
  obtain ⟨head, tallies⟩ := (StandsAt.ofBuckets n width origin).after steps
  rw [bucketOf, last] at head
  rw [List.nil_append, List.map_congr_left counted] at tallies
  refine ⟨length, head, ?_, ?_, ?_⟩
  · intro b inside old
    rw [← length] at inside ⊢
    exact tallies.slot_of_bucket inside old
  · intro i there idle
    rw [← length] at there idle
    exact tallies.slot_of_none there idle
  · rw [tallies.total, length]
    congr 1
    apply List.countP_congr
    intro b member
    have old := tallies.past b member
    simp only [decide_eq_true_eq]
    exact ⟨fun inside => ⟨inside, old⟩, And.left⟩

/-- A window of three buckets is rolled back, over as many buckets as it has, far away, and over
as many buckets again. -/
def lappingSteps : List WindowStep :=
  [.record, .advance 115, .record, .advance 102, .record, .advance 140, .record,
    .advance 7000000000000000125, .record, .advance 7000000000000000155, .record, .record]

/-- The last two events are in a bucket that uses the slot of the event before them, which has
left the window as all others have. -/
theorem lapping_ring_counts :
    let w := (ofBuckets 3 10 100).after lappingSteps
    w.head = 700000000000000005 ∧ w.counts[700000000000000005 % 3]? = some 2 ∧
      w.counts[700000000000000004 % 3]? = some 0 ∧ w.total = 2 := by
  intro w
  obtain ⟨-, head, slots, -, total⟩ := ring_counts_events 3 (by decide) 10 100 lappingSteps
    (by simp [lappingSteps, bucketNumber])
  have here : w.head = 700000000000000005 := head.trans (by decide)
  rw [here] at slots total
  refine ⟨here, ?_, ?_, ?_⟩
  · exact (slots 700000000000000005 (by decide) (by decide)).trans (by decide)
  · exact (slots 700000000000000004 (by decide) (by decide)).trans (by decide)
  · exact total.trans (by decide)

end Window

end AdmissionGate
