import AdmissionGate.Proofs.Gate.Standing
import AdmissionGate.Proofs.Registry.Records

/-!
What a sweep takes away: blocks that have ended, entries of the limiter that were idle for long
enough, and slots without a live connection. Nothing that is still in force shows the difference,
the report counts what went, and a second sweep at the same instant finds nothing left to do.
-/

namespace AdmissionGate

namespace AddressMap

variable {α : Type}

theorem filter_eq_self {m : AddressMap α} {p : Address → α → Bool}
    (all : ∀ e ∈ m.entries, p e.1 e.2 = true) : m.filter p = m := by
  obtain ⟨entries, nodup⟩ := m
  simp only [filter, mk.injEq]
  exact List.filter_eq_self.mpr all

theorem map_eq_self {m : AddressMap α} {f : Address → α → α}
    (all : ∀ e ∈ m.entries, f e.1 e.2 = e.2) : m.map f = m := by
  obtain ⟨entries, nodup⟩ := m
  simp only [map, mk.injEq]
  refine (List.map_congr_left ?_).trans (List.map_id _)
  intro e member
  rw [all e member, id]

/-- From one map to the other, `count` addresses went and none came. -/
structure Dropped (m m' : AddressMap α) (count : Nat) : Prop where
  addresses : (m'.entries.map (·.1)).Sublist (m.entries.map (·.1))
  count : m.size = m'.size + count

theorem dropped_of_sublist {m m' : AddressMap α}
    (fewer : (m'.entries.map (·.1)).Sublist (m.entries.map (·.1))) :
    m.Dropped m' (m.size - m'.size) where
  addresses := fewer
  count := by
    have le := fewer.length_le
    simp only [List.length_map] at le
    exact (Nat.add_sub_cancel' le).symm

theorem dropped_filter (m : AddressMap α) (p : Address → α → Bool) :
    m.Dropped (m.filter p) (m.size - (m.filter p).size) :=
  dropped_of_sublist (List.filter_sublist.map _)

end AddressMap

namespace Blocklist

variable {b : Blocklist} {now : Instant}

def Current (b : Blocklist) (now : Instant) : Prop :=
  ∀ e ∈ b.entries.entries, e.2.isExpired now = false

theorem current_purge (b : Blocklist) (now : Instant) : (b.purge now).Current now := by
  intro e member
  simpa [purge, AddressMap.filter] using (List.mem_filter.mp member).2

theorem Current.purge (current : b.Current now) : b.purge now = b := by
  have same : b.entries.filter (fun _ e => !e.isExpired now) = b.entries := by
    apply AddressMap.filter_eq_self
    intro e member
    simp [current e member]
  rw [Blocklist.purge, same]

end Blocklist

namespace Limiter

variable {l : Limiter} {b : Blocklist} {a : Address} {now : Instant} {e : LimiterEntry}

def keeps (l : Limiter) (b : Blocklist) (now : Instant) (a : Address) (e : LimiterEntry) : Bool :=
  b.isBlocked a now || Instant.since now e.lastSeen < l.settings.idleTtl

def spared (b : Blocklist) (now : Instant) (a : Address) (e : LimiterEntry) : LimiterEntry :=
  if b.isBlocked a now then { e with lastSeen := max e.lastSeen now } else e

theorem spared_idem (b : Blocklist) (now : Instant) (a : Address) (e : LimiterEntry) :
    spared b now a (spared b now a e) = spared b now a e := by
  by_cases blocked : b.isBlocked a now = true
  · simp [spared, blocked]
  · simp [spared, blocked]

theorem keeps_spared (l : Limiter) (b : Blocklist) (now : Instant) (a : Address)
    (e : LimiterEntry) : l.keeps b now a (spared b now a e) = l.keeps b now a e := by
  by_cases blocked : b.isBlocked a now = true
  · simp [keeps, blocked]
  · simp [keeps, spared, blocked]

def sweptEntries (l : Limiter) (b : Blocklist) (now : Instant) : AddressMap LimiterEntry :=
  (l.entries.map (spared b now)).filter (l.keeps b now)

/-- Of a purged list, an idle sweep takes no block. -/
theorem purgeIdle_eq (l : Limiter) (current : b.Current now) :
    l.purgeIdle b now =
      ⟨l.entries.size - (l.sweptEntries b now).size, { l with entries := l.sweptEntries b now },
        b⟩ := by
  have same : b.entries.filter (fun a e => !(l.isTracked a && e.isExpired now)) = b.entries := by
    apply AddressMap.filter_eq_self
    intro e member
    simp [current e member]
  simp only [purgeIdle, same]
  rfl

theorem dropped_sweptEntries (l : Limiter) (b : Blocklist) (now : Instant) :
    l.entries.Dropped (l.sweptEntries b now) (l.entries.size - (l.sweptEntries b now).size) := by
  apply AddressMap.dropped_of_sublist
  have same : (l.entries.map (spared b now)).entries.map (·.1) = l.entries.entries.map (·.1) := by
    simp [AddressMap.map, Function.comp_def]
  exact same ▸ List.filter_sublist.map _

theorem get?_sweptEntries (kept : ∀ e, l.entries.get? a = some e → l.keeps b now a e = true) :
    (l.sweptEntries b now).get? a = (l.entries.get? a).map (spared b now a) := by
  simp only [sweptEntries, AddressMap.get?_filter, AddressMap.get?_map]
  cases found : l.entries.get? a with
  | none => rfl
  | some e => simp [Option.filter, keeps_spared, kept e found]

/-- An entry that is kept looks as before. -/
theorem view?_sweptEntries (kept : ∀ e, l.entries.get? a = some e → l.keeps b now a e = true)
    (t : Instant) :
    view? { l with entries := l.sweptEntries b now } a t = l.view? a t ∧
      viewOverruns { l with entries := l.sweptEntries b now } a t = l.viewOverruns a t := by
  simp only [view?, viewOverruns, get?_sweptEntries kept]
  cases l.entries.get? a with
  | none => exact ⟨rfl, rfl⟩
  | some e =>
      have same : spared b now a e = { e with lastSeen := (spared b now a e).lastSeen } := by
        by_cases blocked : b.isBlocked a now = true <;> simp [spared, blocked]
      rw [Option.map_some, same]
      exact ⟨rfl, rfl⟩

theorem sweptEntries_again (l : Limiter) (b : Blocklist) (now : Instant) :
    sweptEntries { l with entries := l.sweptEntries b now } b now = l.sweptEntries b now := by
  have left {e : Address × LimiterEntry} (member : e ∈ (l.sweptEntries b now).entries) :
      l.keeps b now e.1 e.2 = true ∧ spared b now e.1 e.2 = e.2 := by
    obtain ⟨known, kept⟩ := List.mem_filter.mp member
    obtain ⟨old, -, rfl⟩ := List.mem_map.mp known
    exact ⟨kept, spared_idem ..⟩
  have seen : (l.sweptEntries b now).map (spared b now) = l.sweptEntries b now :=
    AddressMap.map_eq_self fun e member => (left member).2
  have kept : (l.sweptEntries b now).filter (l.keeps b now) = l.sweptEntries b now :=
    AddressMap.filter_eq_self fun e member => (left member).1
  change ((l.sweptEntries b now).map (spared b now)).filter (l.keeps b now) = _
  rw [seen, kept]

end Limiter

namespace Registry

theorem purge_again (r : Registry) (now : Instant) : (r.purge now).purge now = r.purge now := by
  have same : (r.purge now).slots.filter (fun _ slot => r.keeps now slot) = (r.purge now).slots := by
    apply AddressMap.filter_eq_self
    intro e member
    exact (List.mem_filter.mp member).2
  change { r with slots := (r.purge now).slots.filter fun _ slot => r.keeps now slot } = _
  rw [same]
  rfl

/-- An address with a live connection keeps its slot. -/
theorem slot?_purge {r : Registry} {k : ConnectionKey} (live : r.isLive k = true) (now : Instant) :
    (r.purge now).slot? k.address = r.slot? k.address := by
  obtain ⟨record, found⟩ := isLive_iff.mp live
  obtain ⟨slot, there, stored⟩ := record?_eq_some_iff.mp found
  have some_live : slot.live ≠ [] := List.ne_nil_of_mem (List.mem_of_find?_eq_some stored)
  have kept : r.keeps now slot = true := by simp [keeps, some_live]
  rw [there]
  simp only [slot?] at there
  simp [slot?, purge, there, Option.filter, kept]

end Registry

namespace Gate

variable {g : Gate} {now : Instant}

/-- What a sweep leaves, and what it reports. -/
structure Swept (now : Instant) (g : Gate) (report : SweepReport) (g' : Gate) : Prop where
  records : ∀ k, g'.registry.record? k = g.registry.record? k
  registrations : ∀ k, g.registry.isLive k = true →
    g'.registry.registrations k.address = g.registry.registrations k.address
  statuses : ∀ a t, now ≤ t → g'.blocklist.status? a t = g.blocklist.status? a t
  /-- An entry stays whose address is blocked or was seen lately. -/
  views : ∀ a, (g.blocklist.isBlocked a now = true ∨ ∀ e, g.limiter.entries.get? a = some e →
      Instant.since now e.lastSeen < g.limiter.settings.idleTtl) →
    ∀ t, g'.limiter.view? a t = g.limiter.view? a t ∧
      g'.limiter.viewOverruns a t = g.limiter.viewOverruns a t
  blocks : g.blocklist.entries.Dropped g'.blocklist.entries report.expiredBlocks
  idle : g.limiter.entries.Dropped g'.limiter.entries report.idleEntries
  stale : g.registry.slots.Dropped g'.registry.slots report.staleAddresses
  again : g'.sweep now = ({}, g')

theorem sweep_eq (g : Gate) (now : Instant) :
    ∃ notes, g.sweep now =
      ({ expiredBlocks := g.blocklist.size - (g.blocklist.purge now).size
         idleEntries := g.limiter.entries.size -
           (g.limiter.sweptEntries (g.blocklist.purge now) now).size
         staleAddresses := g.registry.slots.size - (g.registry.purge now).slots.size },
        { g.note notes with
          blocklist := g.blocklist.purge now
          limiter :=
            { g.limiter with
              entries := g.limiter.sweptEntries (g.blocklist.purge now) now }
          registry := g.registry.purge now }) := by
  simp only [sweep, Limiter.purgeIdle_eq _ (g.blocklist.current_purge now)]
  exact ⟨_, rfl⟩

/-- A sweep that finds nothing to do. -/
theorem sweep_eq_self (current : g.blocklist.Current now)
    (idle : g.limiter.sweptEntries g.blocklist now = g.limiter.entries)
    (stale : g.registry.purge now = g.registry) : g.sweep now = ({}, g) := by
  simp [sweep, current.purge, Limiter.purgeIdle_eq _ current, idle, stale, note]

/-- A sweep takes away nothing that is still in force, its report counts what it takes, and a
second one at the same instant takes nothing. -/
theorem sweep_takes_dead (g : Gate) (now : Instant) :
    g.Swept now (g.sweep now).1 (g.sweep now).2 := by
  obtain ⟨notes, same⟩ := g.sweep_eq now
  have lapse := Blocklist.Lapse.purge g.blocklist now
  have current := g.blocklist.current_purge now
  rw [same]
  refine ⟨?_, ?_, ?_, ?_, ?_, ?_, ?_, ?_⟩
  · exact g.registry.record?_purge now
  · intro k live
    simp only [Registry.registrations, Registry.slot?_purge live]
  · intro a t le
    exact (lapse.later le).status?_eq a
  · intro a used t
    apply Limiter.view?_sweptEntries
    intro e found
    simp only [Limiter.keeps, Blocklist.isBlocked, lapse.status?_eq, Bool.or_eq_true,
      decide_eq_true_eq]
    exact used.imp id fun lately => lately e found
  · exact AddressMap.dropped_filter g.blocklist.entries fun _ e => !e.isExpired now
  · exact Limiter.dropped_sweptEntries ..
  · exact AddressMap.dropped_filter g.registry.slots fun _ slot => g.registry.keeps now slot
  · exact sweep_eq_self current (Limiter.sweptEntries_again ..) (g.registry.purge_again now)

end Gate

end AdmissionGate
