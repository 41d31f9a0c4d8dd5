import AdmissionGate.Proofs.Limiter.Blocks

/-!
What a guard keeps of one address. An action about another address leaves it alone, and what an
action about the address itself does and answers depends on it only. Sweeps visit every address,
but treat each by its own entries. How many entries there are, and whether a number was too large
for the program, is left out of this.
-/

namespace AdmissionGate

namespace Blocklist

variable {b b' b'' : Blocklist} {a x : Address} {now : Instant}

structure Agrees (a : Address) (b b' : Blocklist) : Prop where
  cap : b'.cap = b.cap
  entry : b'.entries.get? a = b.entries.get? a

namespace Agrees

theorem refl (a : Address) (b : Blocklist) : b.Agrees a b := ⟨rfl, rfl⟩

theorem trans (first : b.Agrees a b') (second : b'.Agrees a b'') : b.Agrees a b'' :=
  ⟨second.cap.trans first.cap, second.entry.trans first.entry⟩

theorem symm (agrees : b.Agrees a b') : b'.Agrees a b :=
  ⟨agrees.cap.symm, agrees.entry.symm⟩

theorem status?_eq (agrees : b.Agrees a b') (now : Instant) :
    b'.status? a now = b.status? a now := by
  rw [status?, status?, agrees.entry]

theorem isBlocked_eq (agrees : b.Agrees a b') (now : Instant) :
    b'.isBlocked a now = b.isBlocked a now := by
  rw [isBlocked, isBlocked, agrees.status?_eq]

theorem isListed_eq (agrees : b.Agrees a b') : b'.isListed a = b.isListed a := by
  rw [isListed, isListed, agrees.entry]

theorem effective_eq (agrees : b.Agrees a b') (length : Option Duration) :
    b'.effective length = b.effective length := by
  rw [effective, effective, agrees.cap]

theorem settle (agrees : b.Agrees a b') (now : Instant) :
    (b.settle a now).Agrees a (b'.settle a now) := by
  simp only [Blocklist.settle, agrees.entry]
  split
  · exact agrees
  split
  · exact ⟨agrees.cap, by simp⟩
  · exact agrees

theorem block (agrees : b.Agrees a b') (reason : Reason) (length : Option Duration)
    (now : Instant) :
    (b.block a reason length now).Agrees a (b'.block a reason length now) := by
  refine ⟨agrees.cap, ?_⟩
  rw [get?_block, get?_block, agrees.entry, agrees.effective_eq]

theorem unblock (agrees : b.Agrees a b') : (b.unblock a).Agrees a (b'.unblock a) :=
  ⟨agrees.cap, by simp [Blocklist.unblock]⟩

/-- A sweep goes by the entry alone. -/
theorem filter (agrees : b.Agrees a b') {p p' : Address → BlockEntry → Bool}
    (same : p' a = p a) :
    Agrees a { b with entries := b.entries.filter p }
      { b' with entries := b'.entries.filter p' } := by
  refine ⟨agrees.cap, ?_⟩
  rw [AddressMap.get?_filter, AddressMap.get?_filter, agrees.entry, same]

theorem purge (agrees : b.Agrees a b') (now : Instant) :
    (b.purge now).Agrees a (b'.purge now) :=
  agrees.filter rfl

end Agrees

theorem settle_elsewhere (b : Blocklist) (other : x ≠ a) (now : Instant) :
    b.Agrees a (b.settle x now) :=
  ⟨(Lapse.settle b x now).cap, b.get?_settle_of_ne other now⟩

theorem block_elsewhere (b : Blocklist) (other : x ≠ a) (reason : Reason)
    (length : Option Duration) (now : Instant) : b.Agrees a (b.block x reason length now) :=
  ⟨rfl, (get?_block ..).trans (if_neg other)⟩

theorem unblock_elsewhere (b : Blocklist) (other : x ≠ a) : b.Agrees a (b.unblock x) :=
  ⟨rfl, (AddressMap.get?_erase ..).trans (if_neg other)⟩

end Blocklist

namespace Limiter

variable {l l' l'' : Limiter} {b b' : Blocklist} {a x : Address} {now : Instant}

structure Agrees (a : Address) (l l' : Limiter) : Prop where
  settings : l'.settings = l.settings
  reputation : l'.reputation = l.reputation
  baseBlock : l'.baseBlock = l.baseBlock
  entry : l'.entries.get? a = l.entries.get? a

namespace Agrees

theorem refl (a : Address) (l : Limiter) : l.Agrees a l := ⟨rfl, rfl, rfl, rfl⟩

theorem trans (first : l.Agrees a l') (second : l'.Agrees a l'') : l.Agrees a l'' :=
  ⟨second.settings.trans first.settings, second.reputation.trans first.reputation,
    second.baseBlock.trans first.baseBlock, second.entry.trans first.entry⟩

theorem symm (agrees : l.Agrees a l') : l'.Agrees a l :=
  ⟨agrees.settings.symm, agrees.reputation.symm, agrees.baseBlock.symm, agrees.entry.symm⟩

theorem withEntry (agrees : l.Agrees a l') (e : LimiterEntry) :
    (l.withEntry a e).Agrees a (l'.withEntry a e) := by
  refine ⟨agrees.settings, agrees.reputation, agrees.baseBlock, ?_⟩
  simp only [Limiter.withEntry, AddressMap.get?_insert, if_pos]

theorem scoreOf_eq (agrees : l.Agrees a l') (e : LimiterEntry) (now : Instant) :
    l'.scoreOf e now = l.scoreOf e now := by
  rw [scoreOf, scoreOf, agrees.reputation]

theorem isRecent_eq (agrees : l.Agrees a l') (now : Instant) :
    l'.isRecent now = l.isRecent now := by
  funext t
  rw [isRecent, isRecent, agrees.settings]

theorem maxEvents_eq (agrees : l.Agrees a l') : l'.maxEvents = l.maxEvents := by
  rw [maxEvents, maxEvents, agrees.settings]

theorem escalationThreshold_eq (agrees : l.Agrees a l') :
    l'.escalationThreshold = l.escalationThreshold := by
  rw [escalationThreshold, escalationThreshold, agrees.settings]

theorem blocksAt_eq (agrees : l.Agrees a l') (score : Float) :
    l'.blocksAt score = l.blocksAt score := by
  rw [blocksAt, blocksAt, agrees.reputation]

theorem addThrottle_eq (agrees : l.Agrees a l') (e : LimiterEntry) (now : Instant) :
    l'.addThrottle e now = l.addThrottle e now := by
  rw [addThrottle, addThrottle, agrees.reputation]

theorem entryFor_eq (agrees : l.Agrees a l') (now : Instant) :
    l'.entryFor a now = l.entryFor a now := by
  simp only [entryFor, refresh, freshEntry, agrees.scoreOf_eq, agrees.isRecent_eq, agrees.entry,
    agrees.settings, agrees.reputation]

theorem score?_eq (agrees : l.Agrees a l') (now : Instant) :
    l'.score? a now = l.score? a now := by
  simp only [score?, agrees.scoreOf_eq, agrees.entry]

theorem view?_eq (agrees : l.Agrees a l') (now : Instant) :
    l'.view? a now = l.view? a now := by
  simp only [view?, agrees.scoreOf_eq, agrees.isRecent_eq, agrees.entry]

theorem isTracked_eq (agrees : l.Agrees a l') : l'.isTracked a = l.isTracked a := by
  rw [isTracked, isTracked, agrees.entry]

theorem reset (agrees : l.Agrees a l') : (l.reset a).Agrees a (l'.reset a) :=
  ⟨agrees.settings, agrees.reputation, agrees.baseBlock, by simp [Limiter.reset]⟩

end Agrees

theorem withEntry_elsewhere (l : Limiter) (other : x ≠ a) (e : LimiterEntry) :
    l.Agrees a (l.withEntry x e) :=
  ⟨rfl, rfl, rfl, (AddressMap.get?_insert ..).trans (if_neg other)⟩

theorem reset_elsewhere (l : Limiter) (other : x ≠ a) : l.Agrees a (l.reset x) :=
  ⟨rfl, rfl, rfl, (AddressMap.get?_erase ..).trans (if_neg other)⟩

end Limiter

structure Limited.Agrees {α : Type} (a : Address) (r r' : Limited α) : Prop where
  answer : r'.answer = r.answer
  limiter : r.limiter.Agrees a r'.limiter
  blocklist : r.blocklist.Agrees a r'.blocklist

namespace Limiter

variable {l l' : Limiter} {b b' : Blocklist} {a x : Address} {now : Instant}

namespace Agrees

theorem escalate (agrees : l.Agrees a l') (listed : b.Agrees a b') (e : LimiterEntry)
    (reason : Reason) (now : Instant) :
    (l.escalate b a e reason now).Agrees a (l'.escalate b' a e reason now) := by
  simp only [Limiter.escalate, agrees.baseBlock]
  exact ⟨by rw [listed.effective_eq], agrees.withEntry _, listed.block ..⟩

theorem checkEntry (agrees : l.Agrees a l') (listed : b.Agrees a b') (e : LimiterEntry)
    (now : Instant) :
    (l.checkEntry b a e now).Agrees a (l'.checkEntry b' a e now) := by
  simp only [Limiter.checkEntry, agrees.blocksAt_eq, agrees.maxEvents_eq, agrees.addThrottle_eq,
    agrees.escalationThreshold_eq]
  split
  · exact agrees.escalate listed ..
  split
  · exact ⟨rfl, agrees.withEntry _, listed⟩
  split
  · exact agrees.escalate listed ..
  split
  · exact agrees.escalate listed ..
  · obtain ⟨settings, reputation, baseBlock, entry⟩ := agrees.withEntry (l.addThrottle e now)
    exact ⟨rfl, ⟨settings, reputation, baseBlock, entry⟩, listed⟩

theorem check (agrees : l.Agrees a l') (listed : b.Agrees a b') (now : Instant) :
    (l.check b a now).Agrees a (l'.check b' a now) := by
  have settled := listed.settle now
  simp only [Limiter.check, listed.status?_eq, agrees.settings, agrees.entryFor_eq]
  split
  · exact ⟨rfl, agrees, listed⟩
  split
  · exact agrees.checkEntry settled ..
  · exact ⟨rfl, agrees, settled⟩

theorem penalize (agrees : l.Agrees a l') (listed : b.Agrees a b') (amount : Float)
    (now : Instant) :
    (l.penalize b a amount now).Agrees a (l'.penalize b' a amount now) := by
  have settled := listed.settle now
  simp only [Limiter.penalize, agrees.entryFor_eq, agrees.blocksAt_eq, listed.isBlocked_eq]
  split
  · split
    · split
      · exact ⟨rfl, agrees.withEntry _, listed⟩
      · obtain ⟨answer, limiter, blocklist⟩ := agrees.escalate settled
          { l.entryFor a now with score := (l.entryFor a now).score + amount } .reputationBlocked
          now
        exact ⟨congrArg some answer, limiter, blocklist⟩
    · exact ⟨rfl, agrees.withEntry _, listed⟩
  · exact ⟨rfl, agrees, listed⟩

theorem purgeIdle (agrees : l.Agrees a l') (listed : b.Agrees a b') (now : Instant) :
    (l.purgeIdle b now).limiter.Agrees a (l'.purgeIdle b' now).limiter ∧
      (l.purgeIdle b now).blocklist.Agrees a (l'.purgeIdle b' now).blocklist := by
  have swept : (l.purgeIdle b now).blocklist.Agrees a (l'.purgeIdle b' now).blocklist :=
    listed.filter (by rw [agrees.isTracked_eq])
  refine ⟨⟨agrees.settings, agrees.reputation, agrees.baseBlock, ?_⟩, swept⟩
  have blocked := swept.isBlocked_eq now
  simp only [Limiter.purgeIdle] at blocked
  simp only [Limiter.purgeIdle, AddressMap.get?_filter, AddressMap.get?_map, agrees.entry,
    agrees.settings, blocked]

end Agrees

theorem Decision.elsewhere {r : Limited Verdict} (decision : Decision l b x now r)
    (other : x ≠ a) : l.Agrees a r.limiter ∧ b.Agrees a r.blocklist := by
  have settled := b.settle_elsewhere other now
  cases decision with
  | blocked => exact ⟨.refl a l, .refl a b⟩
  | unguarded => exact ⟨.refl a l, settled⟩
  | allowed => exact ⟨l.withEntry_elsewhere other _, settled⟩
  | throttled =>
      obtain ⟨settings, reputation, baseBlock, entry⟩ :=
        l.withEntry_elsewhere other (l.addThrottle (l.entryFor x now) now)
      exact ⟨⟨settings, reputation, baseBlock, entry⟩, settled⟩
  | disreputable | excessive | tipped =>
      exact ⟨l.withEntry_elsewhere other _,
        settled.trans (Blocklist.block_elsewhere _ other _ _ now)⟩

theorem Penalty.elsewhere {r : Limited (Option Verdict)} {amount : Float}
    (penalty : Penalty l b x amount now r) (other : x ≠ a) :
    l.Agrees a r.limiter ∧ b.Agrees a r.blocklist := by
  cases penalty with
  | ignored => exact ⟨.refl a l, .refl a b⟩
  | added | known => exact ⟨l.withEntry_elsewhere other _, .refl a b⟩
  | tipped =>
      exact ⟨l.withEntry_elsewhere other _, (b.settle_elsewhere other now).trans
        (Blocklist.block_elsewhere _ other _ _ now)⟩

end Limiter

def GuardAction.about? : GuardAction → Option Address
  | .check a | .penalize a _ | .view a | .score a | .reset a | .block a _ _ | .unblock a
  | .lookUp a => some a
  | .purgeIdle | .purgeBlocks => none

namespace Guard

variable {g g' g'' : Guard} {a x : Address} {now : Instant} {action : GuardAction}

structure Agrees (a : Address) (g g' : Guard) : Prop where
  limiter : g.limiter.Agrees a g'.limiter
  blocklist : g.blocklist.Agrees a g'.blocklist

theorem Agrees.refl (a : Address) (g : Guard) : g.Agrees a g := ⟨.refl a _, .refl a _⟩

theorem Agrees.trans (first : g.Agrees a g') (second : g'.Agrees a g'') : g.Agrees a g'' :=
  ⟨first.limiter.trans second.limiter, first.blocklist.trans second.blocklist⟩

theorem Agrees.symm (agrees : g.Agrees a g') : g'.Agrees a g :=
  ⟨agrees.limiter.symm, agrees.blocklist.symm⟩

/-- What is done about one address leaves the others alone. -/
theorem act_elsewhere (g : Guard) (now : Instant) (about : action.about? = some x)
    (other : x ≠ a) : g.Agrees a (g.act now action).2 := by
  cases action with
  | check y =>
      cases about
      obtain ⟨limiter, blocklist⟩ :=
        (g.limiter.check_decision g.blocklist x now).elsewhere other
      exact ⟨limiter, blocklist⟩
  | penalize y amount =>
      cases about
      obtain ⟨limiter, blocklist⟩ :=
        (g.limiter.penalize_penalty g.blocklist x amount now).elsewhere other
      exact ⟨limiter, blocklist⟩
  | view y | score y => exact .refl a g
  | reset y =>
      cases about
      exact ⟨g.limiter.reset_elsewhere other, .refl a _⟩
  | block y reason length =>
      cases about
      exact ⟨.refl a _, g.blocklist.block_elsewhere other reason length now⟩
  | unblock y =>
      cases about
      exact ⟨.refl a _, g.blocklist.unblock_elsewhere other⟩
  | lookUp y =>
      cases about
      exact ⟨.refl a _, g.blocklist.settle_elsewhere other now⟩
  | purgeIdle | purgeBlocks => cases about

/-- What is done about an address, and what is answered, depends on that address only. -/
theorem Agrees.act (agrees : g.Agrees a g') (now : Instant) (about : action.about? = some a) :
    (g'.act now action).1 = (g.act now action).1 ∧
      (g.act now action).2.Agrees a (g'.act now action).2 := by
  obtain ⟨limiter, blocklist⟩ := agrees
  cases action with
  | check y =>
      cases about
      have checked := limiter.check blocklist now
      exact ⟨congrArg GuardAnswer.verdict checked.answer, checked.limiter, checked.blocklist⟩
  | penalize y amount =>
      cases about
      have added := limiter.penalize blocklist amount now
      exact ⟨congrArg GuardAnswer.penalty added.answer, added.limiter, added.blocklist⟩
  | view y =>
      cases about
      exact ⟨congrArg GuardAnswer.view (limiter.view?_eq now), limiter, blocklist⟩
  | score y =>
      cases about
      exact ⟨congrArg GuardAnswer.score (limiter.score?_eq now), limiter, blocklist⟩
  | reset y =>
      cases about
      exact ⟨congrArg GuardAnswer.known limiter.isTracked_eq, limiter.reset, blocklist⟩
  | block y reason length =>
      cases about
      exact ⟨congrArg GuardAnswer.length (blocklist.effective_eq length), limiter,
        blocklist.block reason length now⟩
  | unblock y =>
      cases about
      exact ⟨congrArg GuardAnswer.known blocklist.isListed_eq, limiter, blocklist.unblock⟩
  | lookUp y =>
      cases about
      exact ⟨congrArg GuardAnswer.status (blocklist.status?_eq now), limiter,
        blocklist.settle now⟩
  | purgeIdle | purgeBlocks => cases about

theorem Agrees.sweep (agrees : g.Agrees a g') (now : Instant) (sweep : action.about? = none) :
    (g.act now action).2.Agrees a (g'.act now action).2 := by
  obtain ⟨limiter, blocklist⟩ := agrees
  cases action with
  | purgeIdle =>
      have swept := limiter.purgeIdle blocklist now
      exact ⟨swept.1, swept.2⟩
  | purgeBlocks => exact ⟨limiter, blocklist.purge now⟩
  | _ => cases sweep

end Guard

end AdmissionGate
