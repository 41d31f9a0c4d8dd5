/-!
Spans of time and instants, both counted in whole nanoseconds. An instant is
counted from the start of the run, so an earlier instant is a smaller number,
and time that has passed between two instants is their truncated difference.
-/

namespace AdmissionGate

/-- A span of time, in nanoseconds. -/
abbrev Duration := Nat

/-- A point in time, in nanoseconds since the start of the run. -/
abbrev Instant := Nat

abbrev max32 : Nat := UInt32.size - 1

abbrev max64 : Nat := UInt64.size - 1

namespace Duration

def nanosPerSecond : Nat := 1000000000

def nanosPerMilli : Nat := 1000000

/-- The longest span that can be told: its seconds fill 64 bits. -/
def longest : Duration := max64 * nanosPerSecond + (nanosPerSecond - 1)

def ofMillis (ms : Nat) : Duration := ms * nanosPerMilli

def toMillis (d : Duration) : Nat := d / nanosPerMilli

/-- Whole milliseconds as a 64-bit word, which wraps. -/
def wrappedMillis (d : Duration) : Nat := d.toMillis % UInt64.size

def plus (a b : Duration) : Duration := min (a + b) longest

def times (a : Duration) (n : Nat) : Duration := min (a * n) longest

/-- Seconds as a floating-point number: the whole seconds and the rest are
converted apart and then added. -/
def seconds (d : Duration) : Float :=
  Float.ofNat (d / nanosPerSecond) + Float.ofNat (d % nanosPerSecond) / 1000000000.0

end Duration

namespace Instant

/-- The last instant that can be told. The clock counts seconds in 63 bits from the start
of the machine, and a run starts a million seconds after that at the latest. -/
def latest : Instant := (9223372036854775807 - 1000000) * Duration.nanosPerSecond

/-- Time that has passed at `now` since `before`; zero if `before` is later. -/
def since (now before : Instant) : Duration := now - before

end Instant

end AdmissionGate
