import AdmissionGate.Proofs.Registry.Renaming
import AdmissionGate.Proofs.Registry.Turnover

/-!
What a registry remembers of an address. The slot of an address counts its registrations since it
was made, and a new record is told that count. A slot that has seen a registration goes in a sweep
only, and in just those sweeps that find no live record and no activity of late. A registration
that is refused leaves no trace, but for the empty slot of a new address if none may hold
anything.
-/

namespace AdmissionGate

/-- A value that is put where it stands changes nothing. -/
theorem AddressMap.insert_of_get? {α : Type} {m : AddressMap α} {a : Address} {v : α}
    (found : m.get? a = some v) : m.insert a v = m := by
  have same (es : List (Address × α)) (found : lookup a es = some v) : put a v es = es := by
    induction es with
    | nil => cases found
    | cons e rest ih =>
        obtain ⟨b, w⟩ := e
        simp only [lookup] at found
        simp only [put]
        split at found
        · rename_i here
          cases found
          rw [if_pos here, here]
        · rename_i other
          rw [if_neg other, ih found]
  obtain ⟨es, nodup⟩ := m
  simp only [insert, same es found]

namespace Registry

variable {r r' : Registry} {a : Address} {b landed : Blocklist} {k : ConnectionKey}
  {now : Instant} {action : RegistryAction} {e : GateError}

theorem slot?_insert (r : Registry) (x a : Address) (slot : Slot) :
    slot? { r with slots := r.slots.insert x slot } a =
      if x = a then some slot else r.slot? a :=
  AddressMap.get?_insert ..

theorem slot?_modify (r : Registry) (k : ConnectionKey)
    (f : ConnectionRecord → ConnectionRecord) :
    (r.modify k f).slot? k.address = (r.slot? k.address).map (·.modify k.id f) := by
  simp only [modify]
  split
  · rename_i missing
    rw [missing, Option.map_none]
  · rename_i slot found
    rw [slot?_insert, if_pos rfl, found, Option.map_some]

theorem slot?_touch (r : Registry) (a : Address) (now : Instant) :
    (r.touch a now).slot? a = (r.slot? a).map fun slot => { slot with lastActivity := now } := by
  simp only [touch]
  split
  · rename_i missing
    rw [missing, Option.map_none]
  · rename_i slot found
    rw [slot?_insert, if_pos rfl, found, Option.map_some]

theorem slot?_of_isLive (live : r.isLive k = true) : ∃ slot, r.slot? k.address = some slot := by
  obtain ⟨record, found⟩ := isLive_iff.mp live
  obtain ⟨slot, there, -⟩ := record?_eq_some_iff.mp found
  exact ⟨slot, there⟩

theorem slot?_update (live : r.isLive k = true) (bytes : Nat) (now : Instant) :
    ∃ live', (r.update k bytes now).slot? k.address =
      (r.slot? k.address).map fun slot => { slot with live := live', lastActivity := now } := by
  obtain ⟨slot, there⟩ := slot?_of_isLive live
  rw [update, if_pos live, slot?_touch, slot?_modify, there]
  exact ⟨_, rfl⟩

theorem slot?_release (live : r.isLive k = true) (now : Instant) :
    ∃ live', (r.release k now).slot? k.address =
      (r.slot? k.address).map fun slot => { slot with live := live', lastActivity := now } := by
  obtain ⟨slot, there⟩ := slot?_of_isLive live
  refine ⟨(slot.remove k.id).live, ?_⟩
  simp only [release, live, there, if_true, Option.map_some]
  exact (AddressMap.get?_insert ..).trans (if_pos rfl)

theorem slot?_purge_eq_filter (r : Registry) (now : Instant) (a : Address) :
    (r.purge now).slot? a = (r.slot? a).filter (r.keeps now) :=
  AddressMap.get?_filter ..

theorem slotAt_of_slot? {slot : Slot} (found : r.slot? a = some slot) (now : Instant) :
    r.slotAt a now = slot := by
  rw [slotAt, found, Option.getD_some]

theorem slotAt_of_missing (missing : r.slot? a = none) (now : Instant) :
    r.slotAt a now = { lastActivity := now } := by
  rw [slotAt, missing, Option.getD_none]

theorem slot?_register (ok : r.register b landed a now = (.ok k, r')) :
    r'.slot? a = some
      { live := (r.slotAt a now).live ++
          [{ key := k, priorConnections := (r.slotAt a now).registrations }],
        registrations := min ((r.slotAt a now).registrations + 1) max64, lastActivity := now } := by
  obtain ⟨-, rfl, rfl⟩ := register_made ok
  rw [registrations_slotAt]
  exact (AddressMap.get?_insert ..).trans (if_pos rfl)

/-- Which refusals leave a new slot, and why: the first look let the registration pass, and then
a block had landed, or no connection is allowed at all. -/
theorem register_of_error (refused : r.register b landed a now = (.error e, r')) :
    ((b.status? a now).isSome ∨ (r.slot? a).isSome) ∧ r' = r ∨
    b.status? a now = none ∧ r.slot? a = none ∧
      (r.limit = 0 ∨ (landed.status? a now).isSome) ∧
        r' = { r with slots := r.slots.insert a { lastActivity := now } } := by
  rcases register_refused refused with ⟨block, blocked, -, rfl⟩ | ⟨free, rfl, cause⟩
  · exact .inl ⟨.inl (by rw [blocked]; rfl), rfl⟩
  cases found : r.slot? a with
  | some slot =>
      rw [slotAt_of_slot? found, AddressMap.insert_of_get? found]
      exact .inl ⟨.inr rfl, rfl⟩
  | none =>
      rw [slotAt_of_missing found] at cause ⊢
      refine .inr ⟨free, rfl, ?_, rfl⟩
      rcases cause with ⟨block, blocked, -⟩ | ⟨-, full, -⟩
      · exact .inr (by rw [blocked]; rfl)
      · exact .inl (Nat.le_zero.mp full)

def registers (r : Registry) (a : Address) (now : Instant) (action : RegistryAction) : Bool :=
  (r.act now action).1.key?.any (·.address = a)

/-- The action is activity of the address: a connection of it is registered, updated or
released. -/
def stirs (r : Registry) (a : Address) (now : Instant) (action : RegistryAction) : Bool :=
  r.registers a now action ||
    match action with
    | .drop k | .release k | .update k _ => k.address = a && r.isLive k
    | _ => false

/-- What has become of a slot in one action that is no sweep: it counts registrations, and keeps
the time of the last activity. -/
structure Carries (r r' : Registry) (a : Address) (now : Instant) (registers stirs : Bool) :
    Prop where
  slot : ∀ slot, r'.slot? a = some slot →
    slot.registrations = (if registers then min ((r.slotAt a now).registrations + 1) max64
      else (r.slotAt a now).registrations) ∧
    slot.lastActivity = if stirs then now else (r.slotAt a now).lastActivity
  missing : r'.slot? a = none → r.slot? a = none ∧ registers = false

theorem Carries.same (same : r'.slot? a = r.slot? a) (now : Instant) :
    Carries r r' a now false false := by
  refine ⟨fun slot found => ?_, fun gone => ⟨same.symm.trans gone, rfl⟩⟩
  rw [slotAt_of_slot? (same.symm.trans found)]
  exact ⟨rfl, rfl⟩

theorem Carries.live {live' : List ConnectionRecord} {there : Slot}
    (found : r.slot? a = some there)
    (moved : r'.slot? a = (r.slot? a).map fun slot =>
      { slot with live := live', lastActivity := now }) :
    Carries r r' a now false true := by
  rw [found, Option.map_some] at moved
  refine ⟨fun slot found' => ?_, fun gone => ?_⟩
  · cases moved.symm.trans found'
    rw [slotAt_of_slot? found]
    exact ⟨rfl, rfl⟩
  · cases moved.symm.trans gone

theorem register_carries (r : Registry) (x a : Address) (b landed : Blocklist) (now : Instant) :
    Carries r (r.act now (.register x b landed)).2 a now
      (r.registers a now (.register x b landed)) (r.stirs a now (.register x b landed)) := by
  simp only [stirs, Bool.or_false, registers, act]
  rcases answer : r.register b landed x now with ⟨result, r'⟩
  by_cases own : x = a
  · subst own
    cases result with
    | ok k =>
        obtain ⟨rfl, -⟩ := register_ok answer
        simp only [RegistryAnswer.key?, Option.any_some, decide_true]
        have made := slot?_register answer
        refine ⟨fun slot found => ?_, fun gone => ?_⟩
        · cases made.symm.trans found
          exact ⟨rfl, rfl⟩
        · cases made.symm.trans gone
    | error e =>
        rcases register_of_error answer with ⟨-, rfl⟩ | ⟨-, missing, -, rfl⟩
        · exact .same rfl now
        · refine ⟨fun slot found => ?_, fun gone => ?_⟩
          · rw [slot?_insert, if_pos rfl] at found
            cases found
            rw [slotAt_of_missing missing]
            exact ⟨rfl, rfl⟩
          · rw [slot?_insert, if_pos rfl] at gone
            cases gone
  · have spared := r.spares_register own b landed now
    rw [answer] at spared
    cases result with
    | ok k =>
        obtain ⟨rfl, -⟩ := register_ok answer
        simp only [RegistryAnswer.key?, Option.any_some, decide_eq_false own]
        exact .same spared.slot now
    | error e => exact .same spared.slot now

/-- An action on the record of a key that makes its slot active if the record is live. -/
theorem tended_carries (tended : Tended k r r') (same : r.isLive k = false → r' = r)
    (moved : r.isLive k = true → ∃ live', r'.slot? k.address =
      (r.slot? k.address).map fun slot => { slot with live := live', lastActivity := now }) :
    Carries r r' a now false (k.address = a && r.isLive k) := by
  by_cases own : k.address = a
  · subst own
    simp only [decide_true, Bool.true_and]
    cases live : r.isLive k with
    | false =>
        rw [same live]
        exact .same rfl now
    | true =>
        obtain ⟨slot, there⟩ := slot?_of_isLive live
        obtain ⟨live', moved⟩ := moved live
        exact .live there moved
  · simp only [decide_eq_false own, Bool.false_and]
    exact .same (tended.spares own).slot now

theorem modify_carries (r : Registry) (k : ConnectionKey)
    (f : ConnectionRecord → ConnectionRecord) (a : Address) (now : Instant) :
    Carries r (r.modify k f) a now false false := by
  by_cases own : k.address = a
  · subst own
    have modified := r.slot?_modify k f
    cases found : r.slot? k.address with
    | none => exact .same (by rw [modified, found, Option.map_none]) now
    | some slot =>
        rw [found, Option.map_some] at modified
        refine ⟨fun slot' found' => ?_, fun gone => ?_⟩
        · cases modified.symm.trans found'
          rw [slotAt_of_slot? found]
          exact ⟨rfl, rfl⟩
        · cases modified.symm.trans gone
  · exact .same (r.spares_modify own f).slot now

theorem act_carries (r : Registry) (a : Address) (now : Instant) (kept : action ≠ .purge) :
    Carries r (r.act now action).2 a now (r.registers a now action)
      (r.stirs a now action) := by
  cases action with
  | register x b landed => exact r.register_carries x a b landed now
  | drop k | release k =>
      refine tended_carries (.release .refl now) (fun gone => ?_) fun live => slot?_release live now
      simp [act, release, gone]
  | update k bytes =>
      refine tended_carries (.update .refl bytes now) (fun gone => ?_)
        fun live => slot?_update live bytes now
      simp [act, update, gone]
  | move k state =>
      simp only [act, setState]
      split
      · exact r.modify_carries k _ a now
      · exact .same rfl now
  | rate k score => exact r.modify_carries k _ a now
  | purge => exact absurd rfl kept

end Registry

structure Attendance where
  registrations : Nat := 0
  /-- When a connection of it was last registered, updated or released. -/
  lastActive : Instant := 0

namespace Registry

variable {r r' : Registry} {a : Address} {b landed : Blocklist} {h : Attendance} {now : Instant}
  {action : RegistryAction} {e : GateError}

/-- One more action; it is told from the start again when the slot has gone. -/
def attend (r : Registry) (a : Address) (h : Attendance) (now : Instant)
    (action : RegistryAction) : Attendance :=
  if ((r.act now action).2.slot? a).isSome then
    { registrations := if r.registers a now action then h.registrations + 1 else h.registrations
      lastActive := if r.stirs a now action then now else h.lastActive }
  else {}

theorem attend_of_gone (gone : (r.act now action).2.slot? a = none) :
    r.attend a h now action = {} := by
  rw [attend, gone]
  rfl

theorem attend_of_slot? {slot : Slot} (found : (r.act now action).2.slot? a = some slot) :
    r.attend a h now action =
      { registrations := if r.registers a now action then h.registrations + 1 else h.registrations
        lastActive := if r.stirs a now action then now else h.lastActive } := by
  rw [attend, found]
  rfl

def attendance (a : Address) (h : Attendance) (r : Registry) :
    List (Instant × RegistryAction) → Attendance
  | [] => h
  | (now, action) :: rest => attendance a (r.attend a h now action) (r.act now action).2 rest

/-- The slot of an address tells this attendance; the count stops at the largest one. -/
structure Attends (r : Registry) (a : Address) (h : Attendance) : Prop where
  counted : ∀ slot, r.slot? a = some slot → slot.registrations = min h.registrations max64
  seen : 0 < h.registrations → ∃ slot, r.slot? a = some slot ∧ slot.lastActivity = h.lastActive

namespace Attends

theorem ofSettings (s : RegistrySettings) (a : Address) : (ofSettings s).Attends a {} := by
  refine ⟨fun slot found => ?_, fun some_time => absurd some_time (Nat.lt_irrefl 0)⟩
  simp [Registry.slot?, Registry.ofSettings] at found

theorem slotAt (attends : r.Attends a h) (now : Instant) :
    (r.slotAt a now).registrations = min h.registrations max64 := by
  cases found : r.slot? a with
  | some slot =>
      rw [slotAt_of_slot? found]
      exact attends.counted slot found
  | none =>
      have never : h.registrations = 0 := by
        apply Nat.eq_zero_of_not_pos
        intro some_time
        obtain ⟨slot, there, -⟩ := attends.seen some_time
        cases found.symm.trans there
      rw [slotAt_of_missing found, never]
      rfl

theorem forgotten (gone : (r.act now action).2.slot? a = none) :
    (r.act now action).2.Attends a (r.attend a h now action) := by
  rw [attend_of_gone gone]
  refine ⟨fun slot there => ?_, fun some_time => absurd some_time (Nat.lt_irrefl 0)⟩
  cases gone.symm.trans there

theorem purge (attends : r.Attends a h) (now : Instant) :
    (r.act now .purge).2.Attends a (r.attend a h now .purge) := by
  cases found : (r.act now .purge).2.slot? a with
  | none => exact .forgotten found
  | some slot =>
      have kept := (r.slot?_purge_eq_filter now a).symm.trans found
      obtain ⟨there, -⟩ := Option.filter_eq_some_iff.mp kept
      rw [attend_of_slot? found]
      refine ⟨fun slot' there' => ?_, fun some_time => ?_⟩
      · cases found.symm.trans there'
        exact attends.counted slot there
      · obtain ⟨slot', there', seen⟩ := attends.seen some_time
        cases there.symm.trans there'
        exact ⟨slot, found, seen⟩

theorem act (attends : r.Attends a h) (now : Instant) (action : RegistryAction) :
    (r.act now action).2.Attends a (r.attend a h now action) := by
  by_cases sweep : action = .purge
  · subst sweep
    exact attends.purge now
  have carries := r.act_carries a now sweep
  have before := attends.slotAt now
  cases found : (r.act now action).2.slot? a with
  | none => exact .forgotten found
  | some slot =>
      obtain ⟨counted, active⟩ := carries.slot slot found
      rw [attend_of_slot? found]
      refine ⟨fun slot' there => ?_, fun some_time => ⟨slot, found, ?_⟩⟩
      · cases found.symm.trans there
        rw [counted, before]
        dsimp only
        split <;> omega
      · rw [active]
        dsimp only at some_time ⊢
        split
        · rfl
        · rename_i still
          -- What is not activity is no registration, so there is an earlier one.
          have calm : ¬r.registers a now action = true := by
            simp only [stirs, Bool.or_eq_true, not_or] at still
            exact still.1
          rw [if_neg calm] at some_time
          obtain ⟨slot', there, seen⟩ := attends.seen some_time
          rw [slotAt_of_slot? there, seen]

theorem run (attends : r.Attends a h) (steps : List (Instant × RegistryAction)) :
    (r.run steps).2.Attends a (attendance a h r steps) := by
  induction steps generalizing r h with
  | nil => exact attends
  | cons step rest ih => exact ih (attends.act step.1 step.2)

end Attends

def guest : Address := .v4 #v[192, 0, 2, 7]

end Registry

end AdmissionGate
