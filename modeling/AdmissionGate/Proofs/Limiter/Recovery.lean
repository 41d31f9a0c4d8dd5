import AdmissionGate.Proofs.Limiter.Guard
import Mathlib.Algebra.Order.Group.MinMax
import Mathlib.Tactic.Linarith
import Mathlib.Tactic.Positivity

/-!
How a score recovers. Each time an entry is brought up to an instant, its score is written anew
and stands for that instant from then on. With exact numbers it makes no difference how often that
happens: what is seen at an instant depends on the time since the last penalty and on nothing else.
-/

namespace AdmissionGate

/-- How scores of one kind of number go down. -/
structure Decay (α : Type) where
  baseline : α
  /-- Points that a second takes off. -/
  rate : α
  /-- A span of time in seconds. -/
  seconds : Duration → α

structure Standing (α : Type) where
  score : α
  scoredAt : Instant

/-- What happens to an entry between two penalties. -/
inductive Touch where
  | read (now : Instant)
  | refresh (now : Instant)

def Touch.instant : Touch → Instant
  | read now | refresh now => now

namespace Decay

section

variable {α : Type} [Sub α] [Mul α] [LT α] [DecidableLT α] [BEq α]

def scoreAt (d : Decay α) (s : Standing α) (now : Instant) : α :=
  decayed d.baseline d.rate (d.seconds (Instant.since now s.scoredAt)) s.score

def touch (d : Decay α) (s : Standing α) : Touch → Standing α
  | .read _ => s
  | .refresh now => ⟨d.scoreAt s now, max s.scoredAt now⟩

def seen (d : Decay α) (s : Standing α) : List Touch → List α
  | [] => []
  | t :: rest => d.scoreAt s t.instant :: d.seen (d.touch s t) rest

end

def exactSeconds (d : Duration) : ℚ := d / Duration.nanosPerSecond

def exact (baseline rate : ℚ) : Decay ℚ := ⟨baseline, rate, exactSeconds⟩

def remaining (baseline rate score : ℚ) (quiet : Duration) : ℚ :=
  max baseline (score - rate * exactSeconds quiet)

end Decay

namespace Limiter

def decay (l : Limiter) : Decay Float where
  baseline := l.reputation.baselineScore
  rate := l.reputation.decayPerSecond
  seconds := Duration.seconds

end Limiter

def LimiterEntry.standing (e : LimiterEntry) : Standing Float := ⟨e.score, e.scoredAt⟩

namespace Limiter

def touch (l : Limiter) (e : LimiterEntry) : Touch → LimiterEntry
  | .read _ => e
  | .refresh now => l.refresh e now

def seen (l : Limiter) (e : LimiterEntry) : List Touch → List Float
  | [] => []
  | t :: rest => l.scoreOf e t.instant :: l.seen (l.touch e t) rest

theorem standing_touch (l : Limiter) (e : LimiterEntry) (t : Touch) :
    (l.touch e t).standing = l.decay.touch e.standing t := by
  cases t <;> rfl

/-- Score and instant go by the rule, whatever else an entry holds. -/
theorem seen_eq (l : Limiter) (e : LimiterEntry) (touches : List Touch) :
    l.seen e touches = l.decay.seen e.standing touches := by
  induction touches generalizing e with
  | nil => rfl
  | cons t rest ih => rw [seen, Decay.seen, ih, standing_touch]; rfl

end Limiter

namespace Decay

variable {baseline rate score : ℚ} {start now : Instant} {touches : List Touch}

theorem decayed_exact (baseline rate seconds score : ℚ) :
    decayed baseline rate seconds score = max baseline (score - rate * seconds) := by
  unfold decayed
  simp only [beq_self_eq_true, Bool.not_true, Bool.or_false, decide_eq_true_eq]
  split
  · rename_i below
    exact (max_eq_left below.le).symm
  · rename_i above
    exact (max_eq_right (not_lt.mp above)).symm

theorem exactSeconds_nonneg (d : Duration) : 0 ≤ exactSeconds d := by
  unfold exactSeconds
  positivity

theorem exactSeconds_add (d e : Duration) :
    exactSeconds (d + e) = exactSeconds d + exactSeconds e := by
  simp only [exactSeconds, Nat.cast_add, add_div]

/-- Two quiet spans in a row count as one. Where the score has come down to the baseline, the
second span has nothing left to take off. -/
theorem remaining_remaining (falls : 0 ≤ rate) (score : ℚ) (d e : Duration) :
    remaining baseline rate (remaining baseline rate score d) e =
      remaining baseline rate score (d + e) := by
  have lower : baseline - rate * exactSeconds e ≤ baseline :=
    sub_le_self _ (mul_nonneg falls (exactSeconds_nonneg e))
  simp only [remaining, exactSeconds_add, mul_add]
  rw [← max_sub_sub_right, ← max_assoc, max_eq_left lower, sub_sub]

theorem remaining_antitone (falls : 0 ≤ rate) (score : ℚ) :
    Antitone (remaining baseline rate score) := by
  intro d e le
  obtain ⟨more, rfl⟩ := Nat.exists_eq_add_of_le le
  have taken := mul_nonneg falls (exactSeconds_nonneg more)
  refine max_le_max_left _ ?_
  rw [exactSeconds_add, mul_add]
  linarith

theorem remaining_zero (low : baseline ≤ score) (rate : ℚ) :
    remaining baseline rate score 0 = score := by
  simp [remaining, exactSeconds, low]

theorem remaining_le (low : baseline ≤ score) (falls : 0 ≤ rate) (quiet : Duration) :
    remaining baseline rate score quiet ≤ score :=
  (remaining_antitone falls score (Nat.zero_le quiet)).trans_eq (remaining_zero low rate)

/-- Nothing is left above the baseline once the rate has taken off what was above it. -/
theorem remaining_eq_baseline_iff (quiet : Duration) :
    remaining baseline rate score quiet = baseline ↔
      score - baseline ≤ rate * exactSeconds quiet := by
  rw [remaining, max_eq_left_iff, sub_le_comm]

theorem scoreAt_exact (s : Standing ℚ) (now : Instant) :
    (exact baseline rate).scoreAt s now =
      remaining baseline rate s.score (Instant.since now s.scoredAt) :=
  decayed_exact ..

/-- Which touches came before does not show: each finds what is left since the start. -/
theorem seen_exact (falls : 0 ≤ rate)
    (ordered : (start :: touches.map Touch.instant).Pairwise (· ≤ ·)) {s : Standing ℚ}
    (before : s.scoredAt ≤ start)
    (score : ℚ) (origin : Instant) (early : origin ≤ s.scoredAt)
    (stands : s.score = remaining baseline rate score (s.scoredAt - origin)) :
    (exact baseline rate).seen s touches =
      touches.map fun t => remaining baseline rate score (t.instant - origin) := by
  induction touches generalizing s start with
  | nil => rfl
  | cons t rest ih =>
      rw [List.map_cons, List.pairwise_cons] at ordered
      have later : start ≤ t.instant := ordered.1 _ List.mem_cons_self
      have whole : s.scoredAt - origin + (t.instant - s.scoredAt) = t.instant - origin := by
        rw [Nat.add_comm]
        exact Nat.sub_add_sub_cancel (before.trans later) early
      have found : (exact baseline rate).scoreAt s t.instant =
          remaining baseline rate score (t.instant - origin) := by
        rw [scoreAt_exact, stands, remaining_remaining falls, Instant.since, whole]
      rw [seen, List.map_cons, found]
      congr 1
      cases t with
      | read now => exact ih ordered.2 (before.trans later) early stands
      | refresh now =>
          have here : (exact baseline rate).touch s (.refresh now) =
              ⟨remaining baseline rate score (now - origin), now⟩ := by
            have moved : max s.scoredAt now = now := max_eq_right (before.trans later)
            rw [touch, moved]
            exact congrArg (Standing.mk · now) found
          rw [here]
          exact ih ordered.2 le_rfl (early.trans (before.trans later)) rfl

/-- What is found of a score without penalties in between is told by the time that has passed,
however the entry was touched on the way; so it never rises, never falls below the baseline, and is
the baseline from the moment on at which the rate has taken off the rest. -/
theorem score_of_elapsed (low : baseline ≤ score) (falls : 0 ≤ rate)
    (ordered : (start :: touches.map Touch.instant).Pairwise (· ≤ ·)) :
    let found := (exact baseline rate).seen ⟨score, start⟩ touches
    (∀ (l : Limiter) (e : LimiterEntry), l.seen e touches = l.decay.seen e.standing touches) ∧
    found = touches.map (fun t : Touch =>
      max baseline (score - rate * exactSeconds (Instant.since t.instant start))) ∧
    (score :: found).Pairwise (· ≥ ·) ∧
    (∀ x ∈ found, baseline ≤ x) ∧
    ∀ (i : Nat) (t : Touch), touches[i]? = some t →
      (found[i]? = some baseline ↔
        score - baseline ≤ rate * exactSeconds (Instant.since t.instant start)) := by
  have found := seen_exact (s := ⟨score, start⟩) falls ordered le_rfl score start le_rfl
    (by rw [Nat.sub_self, remaining_zero low])
  rw [found]
  refine ⟨fun l e => l.seen_eq e touches, rfl, ?_, ?_, ?_⟩
  · rw [List.pairwise_cons, List.forall_mem_map, List.pairwise_map]
    refine ⟨fun t _ => remaining_le low falls _, ?_⟩
    rw [List.pairwise_cons, List.pairwise_map] at ordered
    exact ordered.2.imp fun le => remaining_antitone falls score (Nat.sub_le_sub_right le start)
  · rw [List.forall_mem_map]
    exact fun t _ => le_max_left ..
  · intro i t here
    rw [List.getElem?_map, here, Option.map_some, Option.some_inj]
    exact remaining_eq_baseline_iff _

end Decay

namespace Sample

def glances : List Touch :=
  [.read 1000000000, .refresh 2500000000, .refresh 2500000000, .read 6000000000]

/-- Ten points above the baseline, of which two go each second. -/
theorem glances_find_less : (Decay.exact 5 2).seen ⟨15, 0⟩ glances = [13, 10, 10, 5] := by
  have low : (5 : ℚ) ≤ 15 := by norm_num
  have falls : (0 : ℚ) ≤ 2 := by norm_num
  have ordered : (0 :: glances.map Touch.instant).Pairwise (· ≤ ·) := by decide
  rw [(Decay.score_of_elapsed low falls ordered).2.1]
  norm_num [glances, Touch.instant, Instant.since, Decay.exactSeconds, Duration.nanosPerSecond]

end Sample

end AdmissionGate
