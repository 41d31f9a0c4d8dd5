import AdmissionGate.Limiter.Window

/-!
What the counters of a sliding window stand for. A window tallies events, each given by the
number of its bucket: the counter in a slot counts the events that are still in the window and
whose bucket uses that slot. Rolling forward keeps this, and so the total counts the events in
the last buckets, however long nothing happened.
-/

namespace AdmissionGate

namespace Window

theorem addCounts_min (a b : Nat) :
    addCounts (min a max32) (min b max32) = min (a + b) max32 := by
  simp only [addCounts]
  omega

/-- A later number with the same remainder is at least `n` further on. -/
theorem add_mod_ne {b d n : Nat} (some_way : 0 < d) (short : d < n) : (b + d) % n ≠ b % n := by
  intro same
  have none := Nat.sub_mod_eq_zero_of_mod_eq same
  rw [Nat.add_sub_cancel_left, Nat.mod_eq_of_lt short] at none
  exact Nat.lt_irrefl 0 (none ▸ some_way)

/-- Two buckets that are less than a ring apart and share a slot are one. -/
theorem eq_of_slot_eq {b bucket head n : Nat} (old : b ≤ head) (inside : head < b + n)
    (other : bucket ≤ head) (within : head < bucket + n) (slot : b % n = bucket % n) :
    b = bucket := by
  rcases Nat.lt_trichotomy b bucket with less | same | more
  · have apart := add_mod_ne (b := b) (d := bucket - b) (n := n) (by omega) (by omega)
    rw [Nat.add_sub_cancel' (Nat.le_of_lt less)] at apart
    exact absurd slot.symm apart
  · exact same
  · have apart := add_mod_ne (b := bucket) (d := b - bucket) (n := n) (by omega) (by omega)
    rw [Nat.add_sub_cancel' (Nat.le_of_lt more)] at apart
    exact absurd slot apart

theorem size_zeroAfter (counts : Array Nat) (bucket steps : Nat) :
    (zeroAfter counts bucket steps).size = counts.size := by
  induction steps generalizing counts bucket with
  | zero => rfl
  | succ steps ih => rw [zeroAfter, ih, Array.size_setIfInBounds]

theorem getD_setIfInBounds (counts : Array Nat) {slot i : Nat} (there : i < counts.size) :
    (counts.setIfInBounds slot 0).getD i 0 = if slot = i then 0 else counts.getD i 0 := by
  simp only [Array.getD_eq_getD_getElem?, Array.getElem?_setIfInBounds]
  by_cases here : slot = i
  · subst here
    simp [there]
  · simp [here]

theorem getD_zeroAfter_of_zero (counts : Array Nat) (bucket steps : Nat) {i : Nat}
    (there : i < counts.size) (zero : counts.getD i 0 = 0) :
    (zeroAfter counts bucket steps).getD i 0 = 0 := by
  induction steps generalizing counts bucket with
  | zero => exact zero
  | succ steps ih =>
      apply ih
      · rwa [Array.size_setIfInBounds]
      · rw [getD_setIfInBounds counts there, zero, ite_self]

/-- The slots of the `steps` buckets after a bucket are zero. -/
theorem getD_zeroAfter_of_eq (counts : Array Nat) (bucket steps : Nat) {i k : Nat}
    (there : i < counts.size) (passed : 0 < k) (inside : k ≤ steps)
    (slot : (bucket + k) % counts.size = i) :
    (zeroAfter counts bucket steps).getD i 0 = 0 := by
  induction steps generalizing counts bucket k with
  | zero => omega
  | succ steps ih =>
      have size : (counts.setIfInBounds ((bucket + 1) % counts.size) 0).size = counts.size :=
        Array.size_setIfInBounds
      rw [zeroAfter]
      by_cases first : k = 1
      · apply getD_zeroAfter_of_zero
        · rwa [size]
        · rw [getD_setIfInBounds counts there, if_pos (first ▸ slot)]
      · apply ih (k := k - 1)
        · rwa [size]
        · omega
        · omega
        · rw [size, Nat.add_assoc, Nat.add_sub_cancel' passed]
          exact slot

/-- The others are as before. -/
theorem getD_zeroAfter_of_ne (counts : Array Nat) (bucket steps : Nat) {i : Nat}
    (there : i < counts.size)
    (other : ∀ k, 0 < k → k ≤ steps → (bucket + k) % counts.size ≠ i) :
    (zeroAfter counts bucket steps).getD i 0 = counts.getD i 0 := by
  induction steps generalizing counts bucket with
  | zero => rfl
  | succ steps ih =>
      rw [zeroAfter, ih]
      · rw [getD_setIfInBounds counts there, if_neg (other 1 (by omega) (by omega))]
      · rwa [Array.size_setIfInBounds]
      · intro k passed inside
        rw [Array.size_setIfInBounds, Nat.add_assoc]
        exact other (1 + k) (by omega) (by omega)

/-- The window counts these events, as far as they are still in it. -/
structure Tallies (w : Window) (events : List Nat) : Prop where
  buckets : 0 < w.length
  past : ∀ b ∈ events, b ≤ w.head
  slots : ∀ i, i < w.length → w.counts.getD i 0 =
    min (events.countP fun b => w.head < b + w.length ∧ b % w.length = i) max32

theorem tallies_ofBuckets (buckets : Nat) (width : Duration) (origin : Instant) :
    (ofBuckets buckets width origin).Tallies [] := by
  have some_bucket : 0 < max buckets 1 := by omega
  refine ⟨?_, ?_, ?_⟩
  · rw [length, ofBuckets, Array.size_replicate]
    exact some_bucket
  · intro b member
    cases member
  · intro i there
    simp only [ofBuckets, Array.getD_eq_getD_getElem?, Array.getElem?_replicate]
    split <;> rfl

namespace Tallies

variable {w : Window} {events : List Nat}

theorem getD_record (w : Window) {i : Nat} (there : i < w.length) :
    w.record.counts.getD i 0 =
      if w.head % w.length = i then addCounts (w.counts.getD i 0) 1 else w.counts.getD i 0 := by
  simp only [Window.record, slot, Array.getD_eq_getD_getElem?, Array.getElem?_modify]
  split
  · rw [Array.getElem?_eq_getElem there]
    rfl
  · rfl

theorem record (tallies : w.Tallies events) : w.record.Tallies (w.head :: events) := by
  obtain ⟨buckets, past, slots⟩ := tallies
  have length : w.record.length = w.length := Array.size_modify ..
  refine ⟨?_, ?_, ?_⟩
  · rwa [length]
  · intro b member
    rcases List.mem_cons.mp member with rfl | old
    · exact Nat.le_refl _
    · exact past b old
  intro i there
  rw [length] at there
  have here : w.head < w.head + w.length := Nat.lt_add_of_pos_right buckets
  rw [getD_record w there, slots i there, List.countP_cons, length]
  change _ = min (events.countP (fun b => w.head < b + w.length ∧ b % w.length = i) +
    if decide (w.head < w.head + w.length ∧ w.head % w.length = i) then 1 else 0) max32
  by_cases same : w.head % w.length = i
  · simp only [same, here, and_self, decide_true, if_true, addCounts]
    omega
  · simp only [same, and_false, decide_false, if_false, Bool.false_eq_true, Nat.add_zero]

/-- The order of the events does not matter. -/
theorem perm (tallies : w.Tallies events) {events' : List Nat} (same : events.Perm events') :
    w.Tallies events' where
  buckets := tallies.buckets
  past b member := tallies.past b (same.mem_iff.mpr member)
  slots i there := by rw [tallies.slots i there, same.countP_eq]

/-- The counter of a bucket of the window counts the events in that bucket. -/
theorem count (tallies : w.Tallies events) {bucket : Nat} (old : bucket ≤ w.head)
    (inside : w.head < bucket + w.length) :
    w.count bucket = min (events.countP (· = bucket)) max32 := by
  rw [Window.count, slot, tallies.slots _ (Nat.mod_lt _ tallies.buckets)]
  congr 1
  apply List.countP_congr
  intro b member
  simp only [decide_eq_true_eq]
  constructor
  · rintro ⟨within, same⟩
    exact eq_of_slot_eq (tallies.past b member) within old inside same
  · rintro rfl
    exact ⟨inside, rfl⟩

theorem countP_add_of_split {p q r : Nat → Bool}
    (split : ∀ b, (if p b then 1 else 0) = (if q b then 1 else 0) + if r b then 1 else 0)
    (events : List Nat) : events.countP p = events.countP q + events.countP r := by
  induction events with
  | nil => rfl
  | cons b rest ih =>
      have here := split b
      rw [List.countP_cons, List.countP_cons, List.countP_cons, ih]
      omega

/-- Events counted slot by slot, for the first slots. -/
theorem foldl_slots (events : List Nat) (p : Nat → Bool) (m n : Nat) :
    ((List.range n).map fun i =>
      min (events.countP fun b => p b ∧ b % m = i) max32).foldl addCounts 0 =
        min (events.countP fun b => p b ∧ b % m < n) max32 := by
  induction n with
  | zero => simp
  | succ n ih =>
      rw [List.range_succ, List.map_append, List.foldl_append, ih]
      simp only [List.map_cons, List.map_nil, List.foldl_cons, List.foldl_nil, addCounts_min]
      congr 1
      symm
      apply countP_add_of_split
      intro b
      by_cases counted : p b = true
      · simp only [counted, true_and, decide_eq_true_eq]
        split <;> split <;> split <;> omega
      · simp [counted]

/-- The total counts the events in the last buckets. -/
theorem total (tallies : w.Tallies events) :
    w.total = min (events.countP fun b => w.head < b + w.length) max32 := by
  have counts : w.counts.toList = (List.range w.length).map fun i =>
      min (events.countP fun b => w.head < b + w.length ∧ b % w.length = i) max32 := by
    apply List.ext_getElem
    · simp [Window.length]
    · intro i there _
      rw [Array.length_toList] at there
      have slot := tallies.slots i there
      rw [Array.getD_eq_getD_getElem?, Array.getElem?_eq_getElem there] at slot
      simpa using slot
  have all := foldl_slots events (fun b => w.head < b + w.length) w.length w.length
  simp only [decide_eq_true_eq, Nat.mod_lt _ tallies.buckets, and_true] at all
  rw [Window.total, ← Array.foldl_toList, counts, all]

/-- Rolling forward to a later bucket. -/
theorem roll (tallies : w.Tallies events) {bucket : Nat} (later : w.head < bucket) :
    Tallies
      { w with
        counts := zeroAfter w.counts w.head (min (bucket - w.head) w.length), head := bucket }
      events := by
  obtain ⟨buckets, past, slots⟩ := tallies
  have length : Window.length
      { w with
        counts := zeroAfter w.counts w.head (min (bucket - w.head) w.length), head := bucket } =
      w.length := size_zeroAfter ..
  refine ⟨?_, ?_, ?_⟩
  · rwa [length]
  · intro b member
    exact Nat.le_of_lt (Nat.lt_of_le_of_lt (past b member) later)
  intro i there
  simp only [length] at there ⊢
  by_cases zeroed : ∃ k, 0 < k ∧ k ≤ min (bucket - w.head) w.length ∧ (w.head + k) % w.length = i
  · -- an event in this slot that is still in the window would be less than a ring away
    obtain ⟨k, passed, inside, slot⟩ := zeroed
    have none : (events.countP fun b => bucket < b + w.length ∧ b % w.length = i) = 0 := by
      rw [List.countP_eq_zero]
      intro b member recent
      have early := past b member
      obtain ⟨recent, same⟩ := of_decide_eq_true recent
      have apart := add_mod_ne (b := b) (d := w.head + k - b) (n := w.length) (by omega) (by omega)
      rw [show b + (w.head + k - b) = w.head + k by omega, slot, same] at apart
      exact apart rfl
    rw [none, getD_zeroAfter_of_eq w.counts w.head _ there passed inside slot]
    rfl
  · -- an event that leaves the window leaves it in a slot that was zeroed
    have other (k : Nat) (passed : 0 < k) (inside : k ≤ min (bucket - w.head) w.length) :
        (w.head + k) % w.length ≠ i := fun slot => zeroed ⟨k, passed, inside, slot⟩
    rw [getD_zeroAfter_of_ne w.counts w.head _ there other, slots i there]
    congr 1
    apply List.countP_congr
    intro b member
    have early := past b member
    simp only [decide_eq_true_eq]
    constructor
    · intro recent
      refine ⟨?_, recent.2⟩
      apply Nat.lt_of_not_le
      intro left
      apply other (b + w.length - w.head) (by omega) (by omega)
      rw [show w.head + (b + w.length - w.head) = b + w.length by omega, Nat.add_mod_right]
      exact recent.2
    · intro recent
      exact ⟨by omega, recent.2⟩

theorem advance (tallies : w.Tallies events) (now : Instant) :
    (w.advance now).Tallies events := by
  simp only [Window.advance]
  split
  · exact tallies
  · rename_i later
    exact tallies.roll (Nat.lt_of_not_le later)

end Tallies

@[simp] theorem length_advance (w : Window) (now : Instant) : (w.advance now).length = w.length := by
  simp only [advance]
  split
  · rfl
  · exact size_zeroAfter ..

@[simp] theorem width_advance (w : Window) (now : Instant) : (w.advance now).width = w.width := by
  simp only [advance]
  split <;> rfl

@[simp] theorem origin_advance (w : Window) (now : Instant) :
    (w.advance now).origin = w.origin := by
  simp only [advance]
  split <;> rfl

theorem head_advance (w : Window) (now : Instant) :
    (w.advance now).head = max w.head (w.bucketOf now) := by
  simp only [advance]
  split
  · rename_i old
    exact (Nat.max_eq_left old).symm
  · rename_i new
    exact (Nat.max_eq_right (Nat.le_of_not_le new)).symm

@[simp] theorem length_record (w : Window) : w.record.length = w.length := Array.size_modify ..

theorem bucketOf_mono (w : Window) {earlier later : Instant} (le : earlier ≤ later) :
    w.bucketOf earlier ≤ w.bucketOf later := by
  have passed := Nat.sub_le_sub_right le w.origin
  have bucket := Nat.div_le_div_right (c := max w.width 1) passed
  simp only [bucketOf, Instant.since]
  omega

@[simp] theorem bucketOf_advance (w : Window) (now : Instant) :
    (w.advance now).bucketOf = w.bucketOf := by
  funext u
  rw [bucketOf, width_advance, origin_advance, bucketOf]

theorem sub_le_sub_add {a b origin more : Nat} (begun : origin ≤ a) (near : b ≤ a + more) :
    b - origin ≤ a - origin + more := by
  omega

/-- In the time of `count` buckets the bucket moves on by that many at most. -/
theorem bucketOf_le_add (w : Window) {earlier later : Instant} {count : Nat}
    (begun : w.origin ≤ earlier) (near : later ≤ earlier + count * w.width) :
    w.bucketOf later ≤ w.bucketOf earlier + count := by
  have width : count * w.width ≤ count * max w.width 1 :=
    Nat.mul_le_mul_left count (Nat.le_max_left ..)
  have some_width : 0 < max w.width 1 := Nat.lt_of_lt_of_le Nat.one_pos (Nat.le_max_right ..)
  have passed := sub_le_sub_add begun (Nat.le_trans near (Nat.add_le_add_left width earlier))
  have bucket := Nat.div_le_div_right (c := max w.width 1) passed
  rw [Nat.add_mul_div_right _ _ some_width] at bucket
  simp only [bucketOf, Instant.since]
  omega

end Window

end AdmissionGate
