import AdmissionGate.Proofs.Limiter.Guard

/-!
What the limiter does to a blocklist. Entries whose block has ended may go, and a new block is
placed on an address only while none is in force; so a block that is in force keeps its entry
until it ends. Nothing that is placed lasts longer than the cap, and a block that the limiter
answers with is one that stands in the list.
-/

namespace AdmissionGate

theorem BlockEntry.isExpired_mono {e : BlockEntry} {now next : Instant} (le : now ≤ next)
    (expired : e.isExpired now = true) : e.isExpired next = true := by
  simp only [isExpired, Option.any_eq_true, decide_eq_true_eq] at expired ⊢
  obtain ⟨ends, same, past⟩ := expired
  exact ⟨ends, same, Nat.le_trans past le⟩

namespace Blocklist

variable {b b' b'' : Blocklist} {a x : Address} {e : BlockEntry} {now next : Instant}

theorem status?_eq_some_iff {status : BlockStatus} :
    b.status? a now = some status ↔
      ∃ e, b.entries.get? a = some e ∧ e.isExpired now = false ∧ e.status now = status := by
  simp only [status?]
  cases b.entries.get? a with
  | none => simp
  | some e => cases expired : e.isExpired now <;> simp [expired]

/-- No entry of an address that is free lasts. -/
theorem expired_of_free (free : b.status? a now = none) (listed : b.entries.get? a = some e) :
    e.isExpired now = true := by
  cases expired : e.isExpired now with
  | true => rfl
  | false => simp [status?, listed, expired] at free

theorem free_of_not_blocked (free : b.isBlocked a now = false) : b.status? a now = none := by
  simpa [isBlocked] using free

theorem get?_block (b : Blocklist) (a x : Address) (reason : Reason) (requested : Option Duration)
    (now : Instant) :
    (b.block a reason requested now).entries.get? x =
      if a = x then
        some ⟨reason, (b.effective requested).map (now + ·),
          min (((b.entries.get? a).map (·.count)).getD 0 + 1) max32⟩
      else b.entries.get? x :=
  AddressMap.get?_insert ..

theorem status?_block (b : Blocklist) (a : Address) (reason : Reason) {requested : Option Duration}
    {length : Duration} (placed : b.effective requested = some length) (lasting : 0 < length)
    (now : Instant) :
    (b.block a reason requested now).status? a now =
      some ⟨reason, some length, min (((b.entries.get? a).map (·.count)).getD 0 + 1) max32⟩ := by
  rw [status?_eq_some_iff]
  refine ⟨_, (get?_block ..).trans (if_pos rfl), ?_, ?_⟩
  · simp only [placed, Option.map_some, BlockEntry.isExpired, Option.any_some,
      decide_eq_false_iff_not, Nat.not_le]
    exact Nat.lt_add_of_pos_right lasting
  · simp only [placed, Option.map_some, BlockEntry.status, Instant.since, Nat.add_sub_cancel_left]

theorem get?_settle_of_ne (other : x ≠ a) (now : Instant) :
    (b.settle x now).entries.get? a = b.entries.get? a := by
  simp only [settle]
  split
  · rfl
  · split
    · exact (AddressMap.get?_erase ..).trans (if_neg other)
    · rfl

/-- Entries whose block has ended may be gone; nothing else has changed. -/
structure Lapse (now : Instant) (b b' : Blocklist) : Prop where
  cap : b'.cap = b.cap
  entry : ∀ a, b'.entries.get? a = b.entries.get? a ∨
    b'.entries.get? a = none ∧ ∀ e, b.entries.get? a = some e → e.isExpired now = true

namespace Lapse

theorem refl (now : Instant) (b : Blocklist) : b.Lapse now b := ⟨rfl, fun _ => .inl rfl⟩

theorem trans (first : b.Lapse now b') (second : b'.Lapse now b'') : b.Lapse now b'' where
  cap := second.cap.trans first.cap
  entry a := by
    rcases first.entry a with same | ⟨gone, expired⟩
    · rw [← same]
      exact second.entry a
    · rcases second.entry a with same | ⟨gone', -⟩
      · exact .inr ⟨same.trans gone, expired⟩
      · exact .inr ⟨gone', expired⟩

/-- What has ended by now has ended by any later instant. -/
theorem later (lapse : b.Lapse now b') (le : now ≤ next) : b.Lapse next b' where
  cap := lapse.cap
  entry a := by
    rcases lapse.entry a with same | ⟨gone, expired⟩
    · exact .inl same
    · exact .inr ⟨gone, fun e listed => BlockEntry.isExpired_mono le (expired e listed)⟩

theorem filter (b : Blocklist) {p : Address → BlockEntry → Bool}
    (keeps : ∀ a e, e.isExpired now = false → p a e = true) :
    b.Lapse now { b with entries := b.entries.filter p } where
  cap := rfl
  entry a := by
    rw [AddressMap.get?_filter]
    cases listed : b.entries.get? a with
    | none => exact .inl rfl
    | some e =>
        by_cases kept : p a e = true
        · exact .inl (by simp [Option.filter, kept])
        · refine .inr ⟨by simp [Option.filter, kept], ?_⟩
          intro e' same
          cases same
          cases expired : e.isExpired now with
          | true => rfl
          | false => exact absurd (keeps a e expired) kept

theorem purge (b : Blocklist) (now : Instant) : b.Lapse now (b.purge now) := by
  apply filter
  intro a e lasts
  simp [lasts]

theorem settle (b : Blocklist) (a : Address) (now : Instant) : b.Lapse now (b.settle a now) := by
  simp only [Blocklist.settle]
  split
  · exact refl now b
  · rename_i e listed
    split
    · rename_i expired
      refine ⟨rfl, ?_⟩
      intro x
      simp only [AddressMap.get?_erase]
      split
      · rename_i same
        subst same
        refine .inr ⟨rfl, ?_⟩
        intro e' listed'
        cases listed.symm.trans listed'
        exact expired
      · exact .inl rfl
    · exact refl now b

/-- An entry that lasts stays. -/
theorem keeps (lapse : b.Lapse now b') (listed : b.entries.get? x = some e)
    (lasts : e.isExpired now = false) : b'.entries.get? x = some e := by
  rcases lapse.entry x with same | ⟨-, expired⟩
  · rw [same]
    exact listed
  · rw [expired e listed] at lasts
    contradiction

/-- What went had no effect any more. -/
theorem status?_eq (lapse : b.Lapse now b') (x : Address) :
    b'.status? x now = b.status? x now := by
  simp only [status?]
  rcases lapse.entry x with same | ⟨gone, expired⟩
  · rw [same]
  · rw [gone]
    cases listed : b.entries.get? x with
    | none => rfl
    | some e => simp [expired e listed]

end Lapse

inductive Enforced (now : Instant) (b : Blocklist) : Blocklist → Prop
  | lapse {b' : Blocklist} (lapse : b.Lapse now b') : Enforced now b b'
  /-- A block is placed only if none is in force. -/
  | block {b' : Blocklist} {a : Address} (lapse : b.Lapse now b')
      (free : b.status? a now = none) (reason : Reason) (length : Duration) :
      Enforced now b (b'.block a reason (some length) now)

namespace Enforced

theorem refl (now : Instant) (b : Blocklist) : b.Enforced now b := .lapse (.refl now b)

theorem after (enforced : b'.Enforced now b'') (first : b.Lapse now b') :
    b.Enforced now b'' := by
  cases enforced with
  | lapse lapse => exact .lapse (first.trans lapse)
  | block lapse free reason length =>
      exact .block (first.trans lapse) (first.status?_eq _ ▸ free) reason length

/-- A block that is in force stays as it is. -/
theorem keeps (enforced : b.Enforced now b') (listed : b.entries.get? x = some e)
    (lasts : e.isExpired now = false) : b'.entries.get? x = some e := by
  cases enforced with
  | lapse lapse => exact lapse.keeps listed lasts
  | @block _ a lapse free reason length =>
      have other : a ≠ x := by
        intro same
        subst same
        rw [expired_of_free free listed] at lasts
        contradiction
      rw [get?_block, if_neg other]
      exact lapse.keeps listed lasts

end Enforced

/-- No block lasts longer than the cap from now on. -/
structure Capped (cap : Duration) (now : Instant) (b : Blocklist) : Prop where
  own : b.cap = cap
  ends : ∀ a e t, b.entries.get? a = some e → e.expires = some t → t ≤ now + cap

namespace Capped

variable {cap : Duration}

theorem ofSettings (s : BlockSettings) (now : Instant) :
    (Blocklist.ofSettings s).Capped s.maxBlock now where
  own := rfl
  ends _ _ _ listed _ := by simp [Blocklist.ofSettings] at listed

theorem later (capped : b.Capped cap now) (le : now ≤ next) : b.Capped cap next where
  own := capped.own
  ends a e t listed ends :=
    Nat.le_trans (capped.ends a e t listed ends) (Nat.add_le_add_right le cap)

theorem lapse (capped : b.Capped cap now) (lapse : b.Lapse next b') : b'.Capped cap now where
  own := lapse.cap.trans capped.own
  ends a e t listed ends := by
    rcases lapse.entry a with same | ⟨gone, -⟩
    · exact capped.ends a e t (same ▸ listed) ends
    · rw [gone] at listed
      contradiction

theorem block (capped : b.Capped cap now) (a : Address) (reason : Reason)
    (requested : Option Duration) : (b.block a reason requested now).Capped cap now where
  own := capped.own
  ends x e t listed ends := by
    rw [get?_block] at listed
    split at listed
    · cases listed
      simp only [effective, Option.map_map, Option.map_eq_some_iff, Function.comp_apply,
        capped.own] at ends
      obtain ⟨length, -, rfl⟩ := ends
      exact Nat.add_le_add_left (Nat.min_le_right ..) now
    · exact capped.ends x e t listed ends

theorem unblock (capped : b.Capped cap now) (a : Address) : (b.unblock a).Capped cap now where
  own := capped.own
  ends x e t listed ends := by
    simp only [Blocklist.unblock, AddressMap.get?_erase] at listed
    split at listed
    · contradiction
    · exact capped.ends x e t listed ends

theorem clear (capped : b.Capped cap now) : b.clear.Capped cap now where
  own := capped.own
  ends a e t listed _ := by simp [Blocklist.clear] at listed

theorem enforced (capped : b.Capped cap now) (enforced : b.Enforced now b') :
    b'.Capped cap now := by
  cases enforced with
  | lapse lapse => exact capped.lapse lapse
  | block lapse _ reason length => exact (capped.lapse lapse).block _ reason _

end Capped

def Lasts (b : Blocklist) (a : Address) (t : Instant) : Prop :=
  ∃ e, b.entries.get? a = some e ∧ e.expires = some t

theorem Lasts.le {cap length : Duration} (lasts : b.Lasts a (now + length))
    (capped : b.Capped cap now) : length ≤ cap := by
  obtain ⟨e, listed, ends⟩ := lasts
  exact Nat.le_of_add_le_add_left (capped.ends a e _ listed ends)

theorem lasts_of_status? {status : BlockStatus} {length : Duration}
    (blocked : b.status? a now = some status) (remaining : status.remaining = some length) :
    b.Lasts a (now + length) := by
  obtain ⟨e, listed, lasts, rfl⟩ := status?_eq_some_iff.mp blocked
  simp only [BlockEntry.status, Option.map_eq_some_iff] at remaining
  obtain ⟨ends, expires, rfl⟩ := remaining
  refine ⟨e, listed, ?_⟩
  simp only [BlockEntry.isExpired, expires, Option.any_some, decide_eq_false_iff_not] at lasts
  rw [expires, Instant.since, Nat.add_sub_cancel' (Nat.le_of_lt (Nat.lt_of_not_le lasts))]

theorem lasts_block (b : Blocklist) (a : Address) (reason : Reason) {requested : Option Duration}
    {length : Duration} (placed : b.effective requested = some length) (now : Instant) :
    (b.block a reason requested now).Lasts a (now + length) := by
  refine ⟨_, by rw [get?_block, if_pos rfl], ?_⟩
  simp [placed]

end Blocklist

namespace Limiter

open Blocklist

variable (l : Limiter) (b : Blocklist) (a : Address) (now : Instant)

theorem check_enforced : b.Enforced now (l.check b a now).blocklist := by
  have decision := l.check_decision b a now
  generalize l.check b a now = r at decision
  cases decision with
  | blocked => exact .refl now b
  | unguarded | allowed | throttled => exact .lapse (.settle b a now)
  | disreputable free | excessive free | tipped free => exact .block (.settle b a now) free _ _

theorem penalize_enforced (amount : Float) :
    b.Enforced now (l.penalize b a amount now).blocklist := by
  have penalty := l.penalize_penalty b a amount now
  generalize l.penalize b a amount now = r at penalty
  cases penalty with
  | ignored | added | known => exact .refl now b
  | tipped _ _ free => exact .block (.settle b a now) (free_of_not_blocked free) _ _

variable {l b a now}

/-- The block that a check answers with stands in the list. -/
theorem lasts_of_check {reason : Reason} {length : Duration}
    (answer : (l.check b a now).answer = .block reason (some length)) :
    (l.check b a now).blocklist.Lasts a (now + length) := by
  have decision := l.check_decision b a now
  generalize l.check b a now = r at decision answer
  cases decision with
  | blocked status =>
      simp only [Verdict.block.injEq] at answer
      exact lasts_of_status? status answer.2
  | unguarded | allowed | throttled => cases answer
  | disreputable free | excessive free | tipped free =>
      simp only [escalate, Verdict.block.injEq] at answer
      exact lasts_block _ _ _ answer.2 now

/-- The block that a penalty answers with stands in the list. -/
theorem lasts_of_penalize {amount : Float} {reason : Reason} {length : Duration}
    (answer : (l.penalize b a amount now).answer = some (.block reason (some length))) :
    (l.penalize b a amount now).blocklist.Lasts a (now + length) := by
  have penalty := l.penalize_penalty b a amount now
  generalize l.penalize b a amount now = r at penalty answer
  cases penalty with
  | ignored | added | known => cases answer
  | tipped =>
      simp only [escalate, Option.some.injEq, Verdict.block.injEq] at answer
      exact lasts_block _ _ _ answer.2 now

/-- An idle sweep drops ended blocks only. -/
theorem lapse_purgeIdle (l : Limiter) (b : Blocklist) (now : Instant) :
    b.Lapse now (l.purgeIdle b now).blocklist := by
  apply Lapse.filter
  intro a e lasts
  simp [lasts]

end Limiter

end AdmissionGate
