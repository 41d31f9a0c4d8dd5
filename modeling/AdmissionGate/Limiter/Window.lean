import AdmissionGate.Time

/-!
A sliding window of events: a ring of counters, one a bucket of time. Buckets
are numbered from the window's origin on, and a bucket uses the counter at its
number modulo the number of counters; the newest bucket is the head.
-/

namespace AdmissionGate

structure Window where
  counts : Array Nat
  width : Duration
  origin : Instant
  /-- Number of the newest bucket. -/
  head : Nat := 0

namespace Window

def addCounts (a b : Nat) : Nat := min (a + b) max32

/-- A window without events; it has at least one bucket. -/
def ofBuckets (buckets : Nat) (width : Duration) (origin : Instant) : Window where
  counts := .replicate (max buckets 1) 0
  width := width
  origin := origin

def length (w : Window) : Nat := w.counts.size

def slot (w : Window) (bucket : Nat) : Nat := bucket % w.length

def count (w : Window) (bucket : Nat) : Nat := w.counts.getD (w.slot bucket) 0

def bucketOf (w : Window) (now : Instant) : Nat :=
  min (Instant.since now w.origin / max w.width 1) max64

/-- The instant at which a bucket starts, if it can be told in 64 bits. -/
def bucketStart? (w : Window) (bucket : Nat) : Option Instant :=
  if w.width * bucket ≤ max64 then some (w.origin + w.width * bucket) else none

def zeroAfter (counts : Array Nat) (bucket : Nat) : Nat → Array Nat
  | 0 => counts
  | steps + 1 =>
      zeroAfter (counts.setIfInBounds ((bucket + 1) % counts.size) 0) (bucket + 1) steps

/-- Rolls the window forward to an instant; buckets that come in are empty. -/
def advance (w : Window) (now : Instant) : Window :=
  let bucket := w.bucketOf now
  if bucket ≤ w.head then w
  else
    { w with
      counts := zeroAfter w.counts w.head (min (bucket - w.head) w.length), head := bucket }

def record (w : Window) : Window :=
  { w with counts := w.counts.modify (w.slot w.head) fun c => addCounts c 1 }

def total (w : Window) : Nat := w.counts.foldl addCounts 0

def bucketsFrom (w : Window) (first : Nat) : List Nat := List.range' first (w.head + 1 - first)

/-- Events that are still in the window at an instant, without rolling it. -/
def totalAt (w : Window) (now : Instant) : Nat :=
  let newest := max (w.bucketOf now) w.head
  ((w.bucketsFrom (newest + 1 - w.length)).map w.count).foldl addCounts 0

/-- The first bucket after which fewer than `room` events are left. -/
def freeingBucket? (w : Window) (room : Nat) : Nat → List Nat → Option Nat
  | _, [] => none
  | left, bucket :: rest =>
      let left := left - w.count bucket
      if left < room then some bucket else w.freeingBucket? room left rest

def freeing? (w : Window) (room : Nat) : Option Nat :=
  w.freeingBucket? room w.total (w.bucketsFrom (w.head + 1 - w.length))

/-- Time until enough buckets have rolled out for one more event. -/
def retryAfter (w : Window) (room : Nat) (now : Instant) : Duration :=
  match w.freeing? room with
  | some bucket =>
      match w.bucketStart? (bucket + w.length) with
      | some start => Instant.since start now
      | none => w.width
  | none => Duration.times w.width w.length

/-- Whether the window of an instant ends with the last bucket that has a number in 64 bits. -/
def isLastAt (w : Window) (now : Instant) : Bool := max (w.bucketOf now) w.head = max64

/-- Whether the time for one more event rests on a bucket without a number in 64 bits: on the
one after the head, or on the one in which the freeing bucket has rolled out. -/
def retryOverruns (w : Window) (room : Nat) : Bool :=
  w.head = max64 || (w.freeing? room).any (max64 < · + w.length)

end Window

end AdmissionGate
