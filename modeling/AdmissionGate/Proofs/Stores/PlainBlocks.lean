import AdmissionGate.Proofs.Limiter.Blocks

/-!
A blocklist as those who use it see it. An entry whose block has ended lingers until somebody
looks, and lookups and purges drop it. None of that shows: what the list answers about blocks is
what a plain map answers, in which only blocks, unblocks and clears change anything and nothing
goes by itself. So a lookup or a purge more or less makes no difference to what is answered later.
-/

namespace AdmissionGate

inductive BlocklistAction where
  | block (a : Address) (reason : Reason) (requested : Option Duration)
  | unblock (a : Address)
  | lookUp (a : Address)
  /-- Whether a block is in force, and no more. -/
  | ask (a : Address)
  | purge
  | clear

inductive BlocklistAnswer where
  | length (d : Option Duration)
  | known (b : Bool)
  | status (s : Option BlockStatus)
  | blocked (b : Bool)
  | removed (count : Nat)
  | cleared

/-- The part of an answer that is about blocks, and not about what is stored. -/
inductive BlocklistSight where
  | length (d : Option Duration)
  /-- The reason of the block that is in force, and the time left. -/
  | status (s : Option (Reason × Option Duration))
  | blocked (b : Bool)
  | nothing
deriving DecidableEq

namespace BlocklistAction

def changes : BlocklistAction → Bool
  | block .. | unblock _ | clear => true
  | lookUp _ | ask _ | purge => false

/-- A block is asked for that ends behind the last instant. -/
def overruns (cap : Duration) (now : Instant) : BlocklistAction → Bool
  | block _ _ (some requested) => Instant.latest < now + min requested cap
  | _ => false

end BlocklistAction

def BlockStatus.seen (s : BlockStatus) : Reason × Option Duration := (s.reason, s.remaining)

def BlocklistAnswer.sight : BlocklistAnswer → BlocklistSight
  | length d => .length d
  | status s => .status (s.map (·.seen))
  | blocked b => .blocked b
  | known _ | removed _ | cleared => .nothing

namespace Blocklist

def act (b : Blocklist) (now : Instant) : BlocklistAction → BlocklistAnswer × Blocklist
  | .block a reason requested => (.length (b.effective requested), b.block a reason requested now)
  | .unblock a => (.known (b.isListed a), b.unblock a)
  | .lookUp a => (.status (b.status? a now), b.settle a now)
  | .ask a => (.blocked (b.isBlocked a now), b.settle a now)
  | .purge => (.removed (b.size - (b.purge now).size), b.purge now)
  | .clear => (.cleared, b.clear)

def after (b : Blocklist) (steps : List (Instant × BlocklistAction)) : Blocklist :=
  steps.foldl (fun b s => (b.act s.1 s.2).2) b

end Blocklist

structure PlainBlock where
  reason : Reason
  /-- When the block ends; a permanent one does not. -/
  ends : Option Instant

/-- The last block on each address since it was last unblocked. -/
abbrev PlainBlocks := Address → Option PlainBlock

namespace PlainBlocks

def act (m : PlainBlocks) (cap : Duration) (now : Instant) : BlocklistAction → PlainBlocks
  | .block a reason requested => fun x =>
      if a = x then some ⟨reason, requested.map fun d => now + min d cap⟩ else m x
  | .unblock a => fun x => if a = x then none else m x
  | .clear => fun _ => none
  | .lookUp _ | .ask _ | .purge => m

def after (m : PlainBlocks) (cap : Duration) (steps : List (Instant × BlocklistAction)) :
    PlainBlocks :=
  steps.foldl (fun m s => m.act cap s.1 s.2) m

/-- A block is seen for as long as its end is to come. -/
def status? (m : PlainBlocks) (a : Address) (now : Instant) : Option (Reason × Option Duration) :=
  match m a with
  | none => none
  | some ⟨reason, none⟩ => some (reason, none)
  | some ⟨reason, some ends⟩ => if now < ends then some (reason, some (ends - now)) else none

def answer (m : PlainBlocks) (cap : Duration) (now : Instant) : BlocklistAction → BlocklistSight
  | .block _ _ requested => .length (requested.map (min · cap))
  | .lookUp a => .status (m.status? a now)
  | .ask a => .blocked (m.status? a now).isSome
  | .unblock _ | .purge | .clear => .nothing

theorem act_of_not_changes {action : BlocklistAction} (looks : action.changes = false)
    (m : PlainBlocks) (cap : Duration) (now : Instant) : m.act cap now action = m := by
  cases action with
  | block | unblock | clear => contradiction
  | lookUp | ask | purge => rfl

/-- Only the actions that change something count. -/
theorem after_filter (m : PlainBlocks) (cap : Duration)
    (steps : List (Instant × BlocklistAction)) :
    m.after cap (steps.filter (·.2.changes)) = m.after cap steps := by
  induction steps generalizing m with
  | nil => rfl
  | cons s rest ih =>
      cases looks : s.2.changes with
      | true =>
          simp only [List.filter_cons, looks, if_true]
          exact ih _
      | false =>
          simp only [List.filter_cons, looks, Bool.false_eq_true, if_false, ih]
          simp only [after, List.foldl_cons, act_of_not_changes looks]

end PlainBlocks

namespace Blocklist

variable {b b' : Blocklist} {m : PlainBlocks} {cap : Duration} {now next last : Instant}

/-- The list holds what the map holds, but for blocks that have ended. -/
structure Shows (cap : Duration) (now : Instant) (m : PlainBlocks) (b : Blocklist) : Prop where
  capped : b.Capped cap now
  entry : ∀ a, (b.entries.get? a).map (fun e => ⟨e.reason, e.expires⟩) = m a ∨
    b.entries.get? a = none ∧ ∀ p, m a = some p → p.ends.any (· ≤ now) = true

namespace Shows

theorem empty (cap : Duration) (now : Instant) : Shows cap now (fun _ => none) { cap } where
  capped := ⟨rfl, fun a e t listed _ => by simp at listed⟩
  entry a := .inl (by simp)

theorem later (shown : Shows cap now m b) (le : now ≤ next) : Shows cap next m b where
  capped := shown.capped.later le
  entry a := by
    rcases shown.entry a with same | ⟨gone, expired⟩
    · exact .inl same
    · refine .inr ⟨gone, fun p there => ?_⟩
      have past := expired p there
      simp only [Option.any_eq_true, decide_eq_true_eq] at past ⊢
      obtain ⟨ends, same, past⟩ := past
      exact ⟨ends, same, Nat.le_trans past le⟩

/-- An entry may go once its block has ended. -/
theorem lapse (shown : Shows cap now m b) (lapse : b.Lapse now b') : Shows cap now m b' where
  capped := shown.capped.lapse lapse
  entry a := by
    rcases lapse.entry a with same | ⟨gone, expired⟩
    · rw [same]
      exact shown.entry a
    · refine .inr ⟨gone, fun p there => ?_⟩
      rcases shown.entry a with same | ⟨-, expired⟩
      · rw [there, Option.map_eq_some_iff] at same
        obtain ⟨e, listed, rfl⟩ := same
        exact expired e listed
      · exact expired p there

/-- Whatever is done to the list shows as it does in the map. -/
theorem act (shown : Shows cap now m b) (action : BlocklistAction) :
    Shows cap now (m.act cap now action) (b.act now action).2 := by
  cases action with
  | block a reason requested =>
      refine ⟨shown.capped.block a reason requested, fun x => ?_⟩
      simp only [Blocklist.act, PlainBlocks.act, get?_block]
      split
      · refine .inl ?_
        simp [effective, shown.capped.own, Function.comp_def]
      · exact shown.entry x
  | unblock a =>
      refine ⟨shown.capped.unblock a, fun x => ?_⟩
      simp only [Blocklist.act, PlainBlocks.act, Blocklist.unblock, AddressMap.get?_erase]
      split
      · exact .inl rfl
      · exact shown.entry x
  | clear =>
      refine ⟨shown.capped.clear, fun x => .inl ?_⟩
      simp [Blocklist.act, PlainBlocks.act, clear]
  | lookUp a | ask a => exact shown.lapse (.settle b a now)
  | purge => exact shown.lapse (.purge b now)

theorem after (shown : Shows cap last m b) {steps : List (Instant × BlocklistAction)}
    (ordered : (last :: steps.map (·.1)).Pairwise (· ≤ ·)) (le : last ≤ now)
    (past : ∀ s ∈ steps, s.1 ≤ now) : Shows cap now (m.after cap steps) (b.after steps) := by
  induction steps generalizing m b last with
  | nil => exact shown.later le
  | cons s rest ih =>
      rw [List.map_cons, List.pairwise_cons] at ordered
      have here := (shown.later (ordered.1 s.1 (List.mem_cons_self ..))).act s.2
      exact ih here ordered.2 (past s (List.mem_cons_self ..)) fun s member =>
        past s (List.mem_cons_of_mem _ member)

/-- A block is seen in the list as it is seen in the map. -/
theorem status? (shown : Shows cap now m b) (a : Address) :
    (b.status? a now).map (·.seen) = m.status? a now := by
  simp only [Blocklist.status?, PlainBlocks.status?]
  rcases shown.entry a with same | ⟨gone, expired⟩
  · rw [← same]
    rcases b.entries.get? a with _ | ⟨reason, _ | ends, count⟩
    · rfl
    · rfl
    · by_cases past : ends ≤ now
      · simp [BlockEntry.isExpired, past, Nat.not_lt.mpr past]
      · simp [BlockEntry.isExpired, past, Nat.not_le.mp past, BlockEntry.status,
          BlockStatus.seen, Instant.since]
  · rw [gone]
    rcases there : m a with _ | ⟨reason, _ | ends⟩
    · rfl
    · exact absurd (expired _ there) Bool.false_ne_true
    · have past : ends ≤ now := by simpa using expired _ there
      simp [Nat.not_lt.mpr past]

theorem answer (shown : Shows cap now m b) (action : BlocklistAction) :
    (b.act now action).1.sight = m.answer cap now action := by
  cases action with
  | block a reason requested =>
      simp only [Blocklist.act, BlocklistAnswer.sight, PlainBlocks.answer, effective,
        shown.capped.own]
  | lookUp a =>
      simp only [Blocklist.act, BlocklistAnswer.sight, PlainBlocks.answer, shown.status?]
  | ask a =>
      simp only [Blocklist.act, BlocklistAnswer.sight, PlainBlocks.answer, isBlocked,
        ← shown.status?, Option.isSome_map]
  | unblock | purge | clear => rfl

end Shows

theorem settle_frame (b : Blocklist) (a : Address) (now : Instant) :
    (b.settle a now).cap = b.cap ∧ (b.settle a now).overrun = b.overrun := by
  simp only [settle]
  split
  · exact ⟨rfl, rfl⟩
  · split <;> exact ⟨rfl, rfl⟩

/-- Blocks that end behind the last instant are the only ones that overrun. -/
theorem act_frame (b : Blocklist) (now : Instant) (action : BlocklistAction) :
    (b.act now action).2.cap = b.cap ∧
      (b.act now action).2.overrun = (b.overrun || action.overruns b.cap now) := by
  cases action with
  | block a reason requested =>
      refine ⟨rfl, ?_⟩
      cases requested <;> simp [act, block, effective, BlocklistAction.overruns]
  | lookUp a | ask a =>
      obtain ⟨cap, overrun⟩ := b.settle_frame a now
      exact ⟨cap, overrun.trans (Bool.or_false _).symm⟩
  | unblock | purge | clear => simp [act, unblock, purge, clear, BlocklistAction.overruns]

theorem overrun_after (b : Blocklist) (steps : List (Instant × BlocklistAction)) :
    (b.after steps).overrun = (b.overrun || steps.any fun s => s.2.overruns b.cap s.1) := by
  induction steps generalizing b with
  | nil => simp [after]
  | cons s rest ih =>
      obtain ⟨cap, overrun⟩ := b.act_frame s.1 s.2
      rw [List.any_cons, ← Bool.or_assoc, ← overrun, ← cap]
      exact ih _

/-- After any actions on a clock that does not go back, a new list answers as the plain map does,
and tells of no more time than the cap. Any other run with the same changes gets the same answer,
whatever lookups and purges either has. And the list survives unless a block would end behind the
last instant. -/
theorem answers_plainly (cap : Duration) {steps : List (Instant × BlocklistAction)}
    {now : Instant} (ordered : (steps.map (·.1) ++ [now]).Pairwise (· ≤ ·))
    (action : BlocklistAction) :
    let b := after { cap } steps
    (b.act now action).1.sight =
        (PlainBlocks.after (fun _ => none) cap steps).answer cap now action ∧
      (∀ a s d, b.status? a now = some s → s.remaining = some d → d ≤ cap) ∧
      (∀ other : List (Instant × BlocklistAction),
        (other.map (·.1) ++ [now]).Pairwise (· ≤ ·) →
        other.filter (·.2.changes) = steps.filter (·.2.changes) →
        ((after { cap } other).act now action).1.sight = (b.act now action).1.sight) ∧
      b.overrun = steps.any fun s => s.2.overruns cap s.1 := by
  intro b
  have shown {run : List (Instant × BlocklistAction)}
      (ordered : (run.map (·.1) ++ [now]).Pairwise (· ≤ ·)) :
      Shows cap now (PlainBlocks.after (fun _ => none) cap run) (after { cap } run) := by
    rw [List.pairwise_append] at ordered
    obtain ⟨inside, -, past⟩ := ordered
    refine (Shows.empty cap 0).after ?_ (Nat.zero_le now) ?_
    · exact List.pairwise_cons.mpr ⟨fun t _ => Nat.zero_le t, inside⟩
    · exact fun s member => past s.1 (List.mem_map_of_mem member) now (List.mem_singleton_self now)
  refine ⟨(shown ordered).answer action, ?_, ?_, ?_⟩
  · intro a s d blocked remaining
    exact (lasts_of_status? blocked remaining).le (shown ordered).capped
  · intro other ordered' same
    rw [(shown ordered').answer, (shown ordered).answer, ← PlainBlocks.after_filter, same,
      PlainBlocks.after_filter]
  · simpa using overrun_after { cap } steps

end Blocklist

namespace Sample

/-- A block that the cap cuts short ends unseen at 10, is purged, and another one is placed. -/
def blocksOnTheWay (a : Address) : List (Instant × BlocklistAction) :=
  [(0, .block a .manualBlock (some 50)), (4, .lookUp a), (12, .purge), (12, .ask a),
    (13, .block a .rateExceeded (some 3))]

theorem block_seen_to_its_end :
    let a : Address := .v4 #v[192, 0, 2, 1]
    ((blocksOnTheWay a).map Prod.fst ++ [15]).Pairwise (· ≤ ·) ∧
      (((Blocklist.after { cap := 10 } (blocksOnTheWay a)).act 15 (.lookUp a)).1.sight =
        .status (some (.rateExceeded, some 1))) := by
  intro a
  have ordered : ((blocksOnTheWay a).map Prod.fst ++ [15]).Pairwise (· ≤ ·) := by decide
  have plainly := (Blocklist.answers_plainly 10 ordered (.lookUp a)).1
  exact ⟨ordered, plainly.trans (by decide)⟩

end Sample

end AdmissionGate
