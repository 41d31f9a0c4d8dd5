import AdmissionGate.Limiter.Basic

/-!
A limiter in use, together with the blocklist that it blocks on. A run is a list of actions at
instants, each with the answer it got. `Limiter.Decision` and `Limiter.Penalty` tell what a
check and a penalty can do, one case a way through them.
-/

namespace AdmissionGate

namespace Limiter

inductive Decision (l : Limiter) (b : Blocklist) (a : Address) (now : Instant) :
    Limited Verdict → Prop
  | blocked {block : BlockStatus} (status : b.status? a now = some block) :
      Decision l b a now ⟨.block .reputationBlocked block.remaining, l, b⟩
  | unguarded (free : b.status? a now = none) (disabled : l.settings.enabled = false) :
      Decision l b a now ⟨.allow, l, b.settle a now⟩
  | disreputable (free : b.status? a now = none) (enabled : l.settings.enabled = true)
      (high : l.blocksAt (l.entryFor a now).score = true) :
      Decision l b a now
        (l.escalate (b.settle a now) a (l.entryFor a now) .reputationBlocked now)
  | allowed (free : b.status? a now = none) (enabled : l.settings.enabled = true)
      (low : l.blocksAt (l.entryFor a now).score = false)
      (room : (l.entryFor a now).window.total < l.maxEvents) :
      Decision l b a now
        ⟨.allow, l.withEntry a { l.entryFor a now with
          window := (l.entryFor a now).window.record }, b.settle a now⟩
  | excessive (free : b.status? a now = none) (enabled : l.settings.enabled = true)
      (low : l.blocksAt (l.entryFor a now).score = false)
      (full : ¬(l.entryFor a now).window.total < l.maxEvents)
      (often : l.escalationThreshold ≤ (l.addThrottle (l.entryFor a now) now).throttles.length) :
      Decision l b a now
        (l.escalate (b.settle a now) a (l.addThrottle (l.entryFor a now) now) .rateExceeded now)
  | tipped (free : b.status? a now = none) (enabled : l.settings.enabled = true)
      (low : l.blocksAt (l.entryFor a now).score = false)
      (full : ¬(l.entryFor a now).window.total < l.maxEvents)
      (seldom : ¬l.escalationThreshold ≤ (l.addThrottle (l.entryFor a now) now).throttles.length)
      (high : l.blocksAt (l.addThrottle (l.entryFor a now) now).score = true) :
      Decision l b a now
        (l.escalate (b.settle a now) a (l.addThrottle (l.entryFor a now) now) .reputationBlocked
          now)
  | throttled (free : b.status? a now = none) (enabled : l.settings.enabled = true)
      (low : l.blocksAt (l.entryFor a now).score = false)
      (full : ¬(l.entryFor a now).window.total < l.maxEvents)
      (seldom : ¬l.escalationThreshold ≤ (l.addThrottle (l.entryFor a now) now).throttles.length)
      (still : l.blocksAt (l.addThrottle (l.entryFor a now) now).score = false) :
      Decision l b a now
        ⟨.throttle .rateExceeded
          ((l.addThrottle (l.entryFor a now) now).window.retryAfter l.maxEvents now),
          { l.withEntry a (l.addThrottle (l.entryFor a now) now) with
            overrun := l.overrun ||
              (l.addThrottle (l.entryFor a now) now).window.retryOverruns l.maxEvents },
          b.settle a now⟩

theorem check_decision (l : Limiter) (b : Blocklist) (a : Address) (now : Instant) :
    Decision l b a now (l.check b a now) := by
  simp only [check]
  split
  · rename_i block status
    exact .blocked status
  rename_i free
  split
  · rename_i enabled
    simp only [checkEntry]
    split
    · rename_i high
      exact .disreputable free enabled high
    rename_i low
    rw [Bool.not_eq_true] at low
    split
    · rename_i room
      exact .allowed free enabled low room
    rename_i full
    split
    · rename_i often
      exact .excessive free enabled low full often
    rename_i seldom
    split
    · rename_i high
      exact .tipped free enabled low full seldom high
    · rename_i still
      rw [Bool.not_eq_true] at still
      exact .throttled free enabled low full seldom still
  · rename_i disabled
    rw [Bool.not_eq_true] at disabled
    exact .unguarded free disabled

def penalized (l : Limiter) (a : Address) (amount : Float) (now : Instant) : LimiterEntry :=
  { l.entryFor a now with score := (l.entryFor a now).score + amount }

inductive Penalty (l : Limiter) (b : Blocklist) (a : Address) (amount : Float) (now : Instant) :
    Limited (Option Verdict) → Prop
  | ignored (none : isPenalty amount = false) : Penalty l b a amount now ⟨.none, l, b⟩
  | added (some : isPenalty amount = true)
      (low : l.blocksAt (l.penalized a amount now).score = false) :
      Penalty l b a amount now ⟨none, l.withEntry a (l.penalized a amount now), b⟩
  | known (some : isPenalty amount = true)
      (high : l.blocksAt (l.penalized a amount now).score = true)
      (blocked : b.isBlocked a now = true) :
      Penalty l b a amount now ⟨none, l.withEntry a (l.penalized a amount now), b⟩
  | tipped (some : isPenalty amount = true)
      (high : l.blocksAt (l.penalized a amount now).score = true)
      (free : b.isBlocked a now = false) :
      Penalty l b a amount now
        ⟨.some (l.escalate (b.settle a now) a (l.penalized a amount now) .reputationBlocked
            now).answer,
          (l.escalate (b.settle a now) a (l.penalized a amount now) .reputationBlocked
            now).limiter,
          (l.escalate (b.settle a now) a (l.penalized a amount now) .reputationBlocked
            now).blocklist⟩

theorem penalize_penalty (l : Limiter) (b : Blocklist) (a : Address) (amount : Float)
    (now : Instant) : Penalty l b a amount now (l.penalize b a amount now) := by
  simp only [penalize]
  split
  · rename_i some
    split
    · rename_i high
      split
      · rename_i blocked
        exact .known some high blocked
      · rename_i free
        rw [Bool.not_eq_true] at free
        exact .tipped some high free
    · rename_i low
      rw [Bool.not_eq_true] at low
      exact .added some low
  · rename_i none
    rw [Bool.not_eq_true] at none
    exact .ignored none

end Limiter

structure Guard where
  limiter : Limiter
  blocklist : Blocklist

inductive GuardAction where
  | check (a : Address)
  | penalize (a : Address) (amount : Float)
  | view (a : Address)
  | score (a : Address)
  | reset (a : Address)
  | purgeIdle
  | block (a : Address) (reason : Reason) (length : Option Duration)
  | unblock (a : Address)
  | lookUp (a : Address)
  | purgeBlocks

inductive GuardAnswer where
  | verdict (v : Verdict)
  | penalty (v : Option Verdict)
  | view (v : Option EntryView)
  | score (s : Option Float)
  | known (b : Bool)
  | removed (count : Nat)
  | length (d : Option Duration)
  | status (s : Option BlockStatus)

structure GuardEvent where
  now : Instant
  action : GuardAction
  answer : GuardAnswer

namespace Guard

def act (g : Guard) (now : Instant) : GuardAction → GuardAnswer × Guard
  | .check a =>
      let r := g.limiter.check g.blocklist a now
      (.verdict r.answer, ⟨r.limiter, r.blocklist⟩)
  | .penalize a amount =>
      let r := g.limiter.penalize g.blocklist a amount now
      (.penalty r.answer, ⟨r.limiter, r.blocklist⟩)
  | .view a => (.view (g.limiter.view? a now), g)
  | .score a => (.score (g.limiter.score? a now), g)
  | .reset a => (.known (g.limiter.isTracked a), { g with limiter := g.limiter.reset a })
  | .purgeIdle =>
      let r := g.limiter.purgeIdle g.blocklist now
      (.removed r.answer, ⟨r.limiter, r.blocklist⟩)
  | .block a reason length =>
      (.length (g.blocklist.effective length),
        { g with blocklist := g.blocklist.block a reason length now })
  | .unblock a => (.known (g.blocklist.isListed a), { g with blocklist := g.blocklist.unblock a })
  | .lookUp a =>
      (.status (g.blocklist.status? a now), { g with blocklist := g.blocklist.settle a now })
  | .purgeBlocks =>
      (.removed (g.blocklist.size - (g.blocklist.purge now).size),
        { g with blocklist := g.blocklist.purge now })

def run (g : Guard) : List (Instant × GuardAction) → List GuardEvent × Guard
  | [] => ([], g)
  | (now, action) :: rest =>
      let (answer, g) := g.act now action
      let (events, g) := g.run rest
      (⟨now, action, answer⟩ :: events, g)

end Guard

end AdmissionGate
