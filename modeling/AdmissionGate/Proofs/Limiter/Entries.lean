import AdmissionGate.Proofs.Limiter.Locality
import AdmissionGate.Proofs.Limiter.Tally

/-!
What becomes of the entries of a limiter. `Limiter.Revises` lists what an action can leave behind
for an address, so that an invariant of entries is one proof for each way and not one for each
action. The first such invariant is kept here: an entry is of its time, as no instant that it
holds is later than the last action, its throttle events are in order and fewer than their
counter can tell, and its window tallies some events.
-/

namespace AdmissionGate

namespace Limiter

variable {l : Limiter} {b : Blocklist} {a : Address} {e : LimiterEntry} {now : Instant}

inductive Revises (l : Limiter) (a : Address) (now : Instant) : LimiterEntry → Prop
  | kept {e : LimiterEntry} (there : l.entries.get? a = some e) : Revises l a now e
  | spared {e : LimiterEntry} (there : l.entries.get? a = some e) :
      Revises l a now { e with lastSeen := max e.lastSeen now }
  | allowed : Revises l a now { l.entryFor a now with window := (l.entryFor a now).window.record }
  | penalized (amount : Float) : Revises l a now (l.penalized a amount now)
  | throttled
      (seldom : ¬l.escalationThreshold ≤ (l.addThrottle (l.entryFor a now) now).throttles.length) :
      Revises l a now (l.addThrottle (l.entryFor a now) now)
  | escalated {e : LimiterEntry} (window : e.window = (l.entryFor a now).window)
      (seen : e.lastSeen = (l.entryFor a now).lastSeen) (cleared : e.throttles = []) :
      Revises l a now e

theorem get?_withEntry (l : Limiter) (a : Address) (e : LimiterEntry) :
    (l.withEntry a e).entries.get? a = some e := by
  rw [withEntry, AddressMap.get?_insert, if_pos rfl]

theorem Decision.revises {r : Limited Verdict} (decision : Decision l b a now r)
    (found : r.limiter.entries.get? a = some e) : l.Revises a now e := by
  cases decision with
  | blocked | unguarded => exact .kept found
  | allowed =>
      cases (get?_withEntry ..).symm.trans found
      exact .allowed
  | disreputable | excessive | tipped =>
      cases (get?_withEntry ..).symm.trans found
      exact .escalated rfl rfl rfl
  | throttled _ _ _ _ seldom =>
      cases (get?_withEntry ..).symm.trans found
      exact .throttled seldom

theorem Penalty.revises {r : Limited (Option Verdict)} {amount : Float}
    (penalty : Penalty l b a amount now r) (found : r.limiter.entries.get? a = some e) :
    l.Revises a now e := by
  cases penalty with
  | ignored => exact .kept found
  | added | known =>
      cases (get?_withEntry ..).symm.trans found
      exact .penalized amount
  | tipped =>
      cases (get?_withEntry ..).symm.trans found
      exact .escalated rfl rfl rfl

theorem revises_purgeIdle (found : (l.purgeIdle b now).limiter.entries.get? a = some e) :
    l.Revises a now e := by
  simp only [purgeIdle, AddressMap.get?_filter, AddressMap.get?_map] at found
  obtain ⟨before, -⟩ := Option.filter_eq_some_iff.mp found
  obtain ⟨old, there, rfl⟩ := Option.map_eq_some_iff.mp before
  split
  · exact .spared there
  · exact .kept there

end Limiter

namespace Guard

variable {g : Guard} {a : Address} {e : LimiterEntry} {now : Instant}

theorem act_revises (g : Guard) (now : Instant) (action : GuardAction)
    (found : (g.act now action).2.limiter.entries.get? a = some e) :
    g.limiter.Revises a now e := by
  cases about : action.about? with
  | none =>
      cases action with
      | purgeIdle => exact Limiter.revises_purgeIdle found
      | purgeBlocks => exact .kept found
      | _ => cases about
  | some x =>
      by_cases own : x = a
      · subst own
        cases action with
        | check y =>
            cases about
            exact (g.limiter.check_decision g.blocklist x now).revises found
        | penalize y amount =>
            cases about
            exact (g.limiter.penalize_penalty g.blocklist x amount now).revises found
        | reset y =>
            cases about
            simp [act, Limiter.reset] at found
        | purgeIdle | purgeBlocks => cases about
        | view | score | block | unblock | lookUp => exact .kept found
      · rw [(g.act_elsewhere now about own).limiter.entry] at found
        exact .kept found

theorem settings_act (g : Guard) (now : Instant) (action : GuardAction) :
    (g.act now action).2.limiter.settings = g.limiter.settings := by
  cases action with
  | check x =>
      have decision := g.limiter.check_decision g.blocklist x now
      simp only [act]
      generalize g.limiter.check g.blocklist x now = r at decision
      cases decision <;> rfl
  | penalize x amount =>
      have penalty := g.limiter.penalize_penalty g.blocklist x amount now
      simp only [act]
      generalize g.limiter.penalize g.blocklist x amount now = r at penalty
      cases penalty <;> rfl
  | _ => rfl

theorem settings_run (g : Guard) (steps : List (Instant × GuardAction)) :
    (g.run steps).2.limiter.settings = g.limiter.settings := by
  induction steps generalizing g with
  | nil => rfl
  | cons step rest ih => exact (ih _).trans (g.settings_act step.1 step.2)

end Guard

structure LimiterEntry.Timely (e : LimiterEntry) (last : Instant) : Prop where
  seen : e.lastSeen ≤ last
  sorted : e.throttles.Pairwise (· ≤ ·)
  past : ∀ u ∈ e.throttles, u ≤ last
  /-- Their number fits its counter. -/
  few : e.throttles.length ≤ max32
  tallies : ∃ events, e.window.Tallies events

namespace LimiterEntry.Timely

variable {e : LimiterEntry} {last now : Instant}

theorem later (timely : e.Timely last) (le : last ≤ now) : e.Timely now where
  seen := Nat.le_trans timely.seen le
  sorted := timely.sorted
  past u member := Nat.le_trans (timely.past u member) le
  few := timely.few
  tallies := timely.tallies

theorem refresh (timely : e.Timely last) (le : last ≤ now) (l : Limiter) :
    (l.refresh e now).Timely now where
  seen := Nat.max_le.mpr ⟨Nat.le_trans timely.seen le, Nat.le_refl now⟩
  sorted := timely.sorted.sublist (List.dropWhile_sublist _)
  past u member :=
    Nat.le_trans (timely.past u ((List.dropWhile_sublist _).subset member)) le
  few := Nat.le_trans (List.dropWhile_sublist _).length_le timely.few
  tallies := timely.tallies.imp fun _ tallies => tallies.advance now

end LimiterEntry.Timely

namespace Limiter

variable {l : Limiter} {a : Address} {e : LimiterEntry} {last now : Instant}

theorem timely_freshEntry (l : Limiter) (now : Instant) : (l.freshEntry now).Timely now where
  seen := Nat.le_refl now
  sorted := .nil
  past _ member := nomatch member
  few := Nat.zero_le _
  tallies := ⟨[], Window.tallies_ofBuckets ..⟩

theorem escalationThreshold_le (l : Limiter) : l.escalationThreshold ≤ max32 :=
  Nat.le_of_lt_succ l.settings.escalationThreshold.toNat_lt

def Timely (l : Limiter) (last : Instant) : Prop :=
  ∀ a e, l.entries.get? a = some e → e.Timely last

theorem Timely.entryFor (timely : l.Timely last) (le : last ≤ now) (a : Address) :
    (l.entryFor a now).Timely now := by
  simp only [Limiter.entryFor]
  cases found : l.entries.get? a with
  | some e => exact (timely a e found).refresh le l
  | none => exact (l.timely_freshEntry now).refresh (Nat.le_refl now) l

theorem Revises.timely (revises : l.Revises a now e) (timely : l.Timely last)
    (le : last ≤ now) : e.Timely now := by
  have up := timely.entryFor le a
  cases revises with
  | kept there => exact (timely a e there).later le
  | spared there =>
      obtain ⟨seen, sorted, past, few, tallies⟩ := (timely a _ there).later le
      exact ⟨Nat.max_le.mpr ⟨seen, Nat.le_refl now⟩, sorted, past, few, tallies⟩
  | allowed =>
      exact ⟨up.seen, up.sorted, up.past, up.few,
        up.tallies.elim fun _ tallies => ⟨_, tallies.record⟩⟩
  | penalized amount => exact ⟨up.seen, up.sorted, up.past, up.few, up.tallies⟩
  | throttled seldom =>
      refine ⟨up.seen, ?_, ?_, ?_, up.tallies⟩
      · refine List.pairwise_append.mpr ⟨up.sorted, List.pairwise_singleton .., ?_⟩
        intro u member t single
        rw [List.mem_singleton.mp single]
        exact up.past u member
      · intro u member
        rcases List.mem_append.mp member with before | single
        · exact up.past u before
        · exact Nat.le_of_eq (List.mem_singleton.mp single)
      · exact Nat.le_of_lt (Nat.lt_of_lt_of_le (Nat.lt_of_not_le seldom) l.escalationThreshold_le)
  | escalated window seen cleared =>
      refine ⟨?_, ?_, ?_, ?_, ?_⟩
      · rw [seen]
        exact up.seen
      · rw [cleared]
        exact .nil
      · rw [cleared]
        exact fun _ member => nomatch member
      · rw [cleared]
        exact Nat.zero_le _
      · rw [window]
        exact up.tallies

theorem timely_ofSettings (s : Settings) (last : Instant) : (ofSettings s).Timely last := by
  intro a e found
  simp [ofSettings] at found

end Limiter

namespace Guard

variable {g : Guard} {last now : Instant}

theorem timely_act (timely : g.limiter.Timely last) (le : last ≤ now) (action : GuardAction) :
    (g.act now action).2.limiter.Timely now :=
  fun _ _ found => (g.act_revises now action found).timely timely le

theorem timely_run (timely : g.limiter.Timely last) {steps : List (Instant × GuardAction)}
    (ordered : (last :: steps.map (·.1)).Pairwise (· ≤ ·)) (le : last ≤ now)
    (past : ∀ step ∈ steps, step.1 ≤ now) : (g.run steps).2.limiter.Timely now := by
  induction steps generalizing g last with
  | nil => exact fun a e found => (timely a e found).later le
  | cons step rest ih =>
      rw [List.map_cons, List.pairwise_cons] at ordered
      have after := timely_act timely (ordered.1 step.1 (List.mem_cons_self ..)) step.2
      exact ih after ordered.2 (past step (List.mem_cons_self ..))
        fun step later => past step (List.mem_cons_of_mem _ later)

end Guard

end AdmissionGate
