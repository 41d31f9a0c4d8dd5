import AdmissionGate.Proofs.Registry.Records

/-!
Numbers of connections. A registry gives each connection the next number, so a record stands
under the address of its own key and bears a number given out before, which no other record of
that address bears. This holds of a new registry and after every operation. `Tended` collects
the operations on the record of one key: they leave the other records and the supply of
numbers alone.
-/

namespace AdmissionGate

structure Slot.Numbered (s : Slot) (a : Address) (supply : Nat) : Prop where
  own : ∀ r ∈ s.live, r.key.address = a
  issued : ∀ r ∈ s.live, r.key.id < supply
  distinct : (s.live.map (·.key.id)).Nodup

namespace Slot

theorem Numbered.modify {s : Slot} {a : Address} {supply : Nat} (h : s.Numbered a supply)
    (id : Nat) {f : ConnectionRecord → ConnectionRecord} (keeps : ∀ r, (f r).key = r.key) :
    (s.modify id f).Numbered a supply := by
  have keys (r : ConnectionRecord) : (if r.key.id = id then f r else r).key = r.key := by
    split <;> simp [keeps]
  refine ⟨?_, ?_, ?_⟩
  · intro r hr
    obtain ⟨old, member, rfl⟩ := List.mem_map.mp hr
    rw [keys]
    exact h.own old member
  · intro r hr
    obtain ⟨old, member, rfl⟩ := List.mem_map.mp hr
    rw [keys]
    exact h.issued old member
  · simpa only [Slot.modify, List.map_map, Function.comp_def, keys] using h.distinct

theorem Numbered.remove {s : Slot} {a : Address} {supply : Nat} (h : s.Numbered a supply)
    (id : Nat) : (s.remove id).Numbered a supply where
  own r hr := h.own r (List.mem_filter.mp hr |>.1)
  issued r hr := h.issued r (List.mem_filter.mp hr |>.1)
  distinct := h.distinct.sublist (List.filter_sublist.map _)

theorem Numbered.append {s : Slot} {a : Address} {supply : Nat} (h : s.Numbered a supply)
    {r : ConnectionRecord} (key : r.key = ⟨a, supply⟩) (registrations : Nat) (now : Instant) :
    Numbered ⟨s.live ++ [r], registrations, now⟩ a (supply + 1) := by
  refine ⟨?_, ?_, ?_⟩
  · intro other member
    rcases List.mem_append.mp member with old | new
    · exact h.own other old
    · simp [List.mem_singleton.mp new, key]
  · intro other member
    rcases List.mem_append.mp member with old | new
    · exact Nat.lt_succ_of_lt (h.issued other old)
    · simp [List.mem_singleton.mp new, key]
  · simp only [List.map_append, List.map_cons, List.map_nil, key]
    rw [List.nodup_append]
    refine ⟨h.distinct, by simp, ?_⟩
    intro id old other new same
    obtain ⟨record, member, rfl⟩ := List.mem_map.mp old
    have := h.issued record member
    simp only [List.mem_singleton] at new
    omega

theorem Numbered.find?_key {s : Slot} {a : Address} {supply id : Nat} (h : s.Numbered a supply)
    {r : ConnectionRecord} (found : s.find? id = some r) : r.key = ⟨a, id⟩ := by
  have own := h.own r (List.mem_of_find?_eq_some found)
  have number : r.key.id = id := by simpa using List.find?_some found
  rw [← own, ← number]

end Slot

namespace Registry

def Numbered (r : Registry) : Prop :=
  ∀ a slot, r.slot? a = some slot → slot.Numbered a r.nextId

theorem numbered_ofSettings (s : RegistrySettings) : (ofSettings s).Numbered := by
  intro a slot found
  simp [slot?, ofSettings] at found

theorem Numbered.insert {r : Registry} (h : r.Numbered) {a : Address} {slot : Slot}
    {supply active : Nat} (new : slot.Numbered a supply) (grows : r.nextId ≤ supply) :
    Numbered { r with slots := r.slots.insert a slot, nextId := supply, active } := by
  intro b other found
  simp only [slot?, AddressMap.get?_insert] at found
  split at found
  · rename_i here
    cases found
    exact here ▸ new
  · have old := h b other found
    exact ⟨old.own, fun r hr => Nat.lt_of_lt_of_le (old.issued r hr) grows, old.distinct⟩

theorem Numbered.record?_key {r : Registry} (h : r.Numbered) {k : ConnectionKey}
    {record : ConnectionRecord} (found : r.record? k = some record) : record.key = k := by
  obtain ⟨slot, there, found⟩ := record?_eq_some_iff.mp found
  exact (h _ _ there).find?_key found

theorem Numbered.record?_eq_none {r : Registry} (h : r.Numbered) {k : ConnectionKey}
    (fresh : r.nextId ≤ k.id) : r.record? k = none := by
  rw [Option.eq_none_iff_forall_not_mem]
  intro record found
  obtain ⟨slot, there, found⟩ := record?_eq_some_iff.mp found
  have issued := (h _ _ there).issued record (List.mem_of_find?_eq_some found)
  have key := (h _ _ there).find?_key found
  rw [key] at issued
  exact Nat.not_lt.mpr fresh issued

theorem Numbered.modify {r : Registry} (h : r.Numbered) (k : ConnectionKey)
    {f : ConnectionRecord → ConnectionRecord} (keeps : ∀ r, (f r).key = r.key) :
    (r.modify k f).Numbered := by
  simp only [Registry.modify]
  split
  · exact h
  · rename_i slot found
    exact h.insert ((h _ _ found).modify k.id keeps) (Nat.le_refl _)

theorem Numbered.touch {r : Registry} (h : r.Numbered) (a : Address) (now : Instant) :
    (r.touch a now).Numbered := by
  simp only [Registry.touch]
  split
  · exact h
  · rename_i slot found
    have old := h _ _ found
    exact h.insert ⟨old.own, old.issued, old.distinct⟩ (Nat.le_refl _)

theorem Numbered.release {r : Registry} (h : r.Numbered) (k : ConnectionKey) (now : Instant) :
    (r.release k now).Numbered := by
  simp only [Registry.release]
  split
  · split
    · exact h
    · rename_i slot found
      have old := (h _ _ found).remove k.id
      exact h.insert ⟨old.own, old.issued, old.distinct⟩ (Nat.le_refl _)
  · exact h

theorem Numbered.purge {r : Registry} (h : r.Numbered) (now : Instant) :
    (r.purge now).Numbered := by
  intro a slot found
  simp only [slot?, Registry.purge, AddressMap.get?_filter] at found
  exact h a slot (Option.filter_eq_some_iff.mp found).1

variable {r r' : Registry} {k key : ConnectionKey} {b landed : Blocklist} {a : Address}
  {now : Instant} {e : GateError}

theorem registrations_slotAt (r : Registry) (a : Address) (now : Instant) :
    (r.slotAt a now).registrations = r.registrations a := by
  simp only [slotAt, Registry.registrations]
  cases r.slot? a <;> rfl

theorem live_slotAt (r : Registry) (a : Address) (now : Instant) :
    (r.slotAt a now).live = ((r.slot? a).map (·.live)).getD [] := by
  simp only [slotAt]
  cases r.slot? a <;> rfl

theorem find?_slotAt (r : Registry) (a : Address) (now : Instant) (id : Nat) :
    (r.slotAt a now).find? id = r.record? ⟨a, id⟩ := by
  simp only [slotAt, record?]
  cases r.slot? a <;> rfl

theorem Numbered.slotAt (h : r.Numbered) (a : Address) (now : Instant) :
    (r.slotAt a now).Numbered a r.nextId := by
  simp only [Registry.slotAt]
  cases found : r.slot? a with
  | none => exact ⟨by simp, by simp, by simp⟩
  | some slot => exact h a slot found

/-- What a registration makes: neither look found a block, and there was room. -/
theorem register_made (ok : r.register b landed a now = (.ok key, r')) :
    (b.status? a now = none ∧ landed.status? a now = none ∧
      (r.slotAt a now).live.length < r.limit) ∧
    key = ⟨a, r.nextId⟩ ∧
    r' = { r with
      slots := r.slots.insert a
        { live := (r.slotAt a now).live ++ [{ key, priorConnections := r.registrations a }],
          registrations := min (r.registrations a + 1) max64, lastActivity := now },
      nextId := r.nextId + 1, active := r.active + 1 } := by
  simp only [register] at ok
  split at ok
  · simp at ok
  rename_i free
  split at ok
  · simp at ok
  rename_i still
  split at ok
  · simp at ok
  rename_i room
  simp only [Prod.mk.injEq, Except.ok.injEq, registrations_slotAt] at ok
  obtain ⟨rfl, rfl⟩ := ok
  exact ⟨⟨free, still, Nat.lt_of_not_le room⟩, rfl, rfl⟩

/-- What a refusal leaves: the registry as it was, or the slot that was taken hold of. -/
theorem register_refused (refused : r.register b landed a now = (.error e, r')) :
    (∃ block, b.status? a now = some block ∧ e = .blocked a block.reason ∧ r' = r) ∨
    b.status? a now = none ∧ r' = { r with slots := r.slots.insert a (r.slotAt a now) } ∧
      ((∃ block, landed.status? a now = some block ∧ e = .blocked a block.reason) ∨
        landed.status? a now = none ∧ r.limit ≤ (r.slotAt a now).live.length ∧
          e = .connectionLimit a (r.slotAt a now).live.length r.limit) := by
  simp only [register] at refused
  split at refused
  · rename_i block blocked
    cases refused
    exact .inl ⟨block, blocked, rfl, rfl⟩
  rename_i free
  split at refused
  · rename_i block blocked
    cases refused
    exact .inr ⟨free, rfl, .inl ⟨block, blocked, rfl⟩⟩
  rename_i still
  split at refused
  · rename_i full
    cases refused
    exact .inr ⟨free, rfl, .inr ⟨still, full, rfl⟩⟩
  · simp at refused

theorem register_ok (ok : r.register b landed a now = (.ok key, r')) :
    key = ⟨a, r.nextId⟩ ∧ r'.nextId = r.nextId + 1 := by
  obtain ⟨-, rfl, rfl⟩ := register_made ok
  exact ⟨rfl, rfl⟩

theorem Numbered.register (h : r.Numbered) (b landed : Blocklist) (a : Address)
    (now : Instant) : (r.register b landed a now).2.Numbered := by
  have slot := h.slotAt a now
  rcases answer : r.register b landed a now with ⟨result, r'⟩
  cases result with
  | error e =>
      rcases register_refused answer with ⟨-, -, -, rfl⟩ | ⟨-, rfl, -⟩
      · exact h
      · exact h.insert slot (Nat.le_refl _)
  | ok key =>
      obtain ⟨-, rfl, rfl⟩ := register_made answer
      exact h.insert (slot.append rfl _ _) (Nat.le_succ _)

theorem Numbered.record?_register (h : r.Numbered)
    (ok : r.register b landed a now = (.ok key, r')) (k : ConnectionKey) :
    r'.record? k =
      if k = key then some { key, priorConnections := r.registrations a } else r.record? k := by
  obtain ⟨-, rfl, rfl⟩ := register_made ok
  change record? { r with slots := r.slots.insert a _ } k = _
  rw [record?_insert]
  have before := find?_slotAt r a now
  by_cases address : a = k.address
  · subst address
    simp only [if_true, Slot.find?, List.find?_append] at before ⊢
    rw [before k.id]
    by_cases number : k.id = r.nextId
    · have key : k = ⟨k.address, r.nextId⟩ := by rw [← number]
      have fresh : r.record? k = none := h.record?_eq_none (Nat.le_of_eq number.symm)
      rw [fresh, if_pos key]
      simp [number]
    · have key : k ≠ ⟨k.address, r.nextId⟩ := by
        intro same
        exact number (congrArg ConnectionKey.id same)
      have other : ¬r.nextId = k.id := fun same => number same.symm
      rw [if_neg key]
      simp [other]
  · have key : k ≠ ⟨a, r.nextId⟩ := by
      intro same
      subst same
      exact address rfl
    rw [if_neg address, if_neg key]

theorem record?_register_of_error (refused : r.register b landed a now = (.error e, r'))
    (k : ConnectionKey) : r'.record? k = r.record? k := by
  rcases register_refused refused with ⟨-, -, -, rfl⟩ | ⟨-, rfl, -⟩
  · rfl
  · rw [record?_insert]
    split
    · rename_i here
      rw [find?_slotAt, here]
    · rfl

theorem nextId_register_of_error (refused : r.register b landed a now = (.error e, r')) :
    r'.nextId = r.nextId := by
  rcases register_refused refused with ⟨-, -, -, rfl⟩ | ⟨-, rfl, -⟩ <;> rfl

inductive Tended (k : ConnectionKey) (r : Registry) : Registry → Prop
  | refl : Tended k r r
  | setState {r' : Registry} (h : Tended k r r') (state : ConnectionState) :
      Tended k r (r'.setState k state)
  | setReputation {r' : Registry} (h : Tended k r r') (score : Float) :
      Tended k r (r'.setReputation k score)
  | update {r' : Registry} (h : Tended k r r') (bytes : Nat) (now : Instant) :
      Tended k r (r'.update k bytes now)
  | release {r' : Registry} (h : Tended k r r') (now : Instant) : Tended k r (r'.release k now)

theorem Tended.record?_of_ne (h : Tended k r r') {other : ConnectionKey} (ne : other ≠ k) :
    r'.record? other = r.record? other := by
  induction h with
  | refl => rfl
  | setState _ state ih => rw [record?_setState, if_neg (fun both => ne both.1), ih]
  | setReputation _ score ih => rw [record?_setReputation, if_neg ne, ih]
  | update _ bytes now ih => rw [record?_update, if_neg ne, ih]
  | release _ now ih => rw [record?_release, if_neg ne, ih]

theorem Tended.numbered (h : Tended k r r') (numbered : r.Numbered) : r'.Numbered := by
  induction h with
  | refl => exact numbered
  | setState _ state ih =>
      simp only [Registry.setState]
      split
      · exact ih.modify k fun _ => rfl
      · exact ih
  | setReputation _ score ih => exact ih.modify k fun _ => rfl
  | update _ bytes now ih =>
      simp only [Registry.update]
      split
      · refine Numbered.touch (ih.modify k ?_) k.address now
        exact fun _ => rfl
      · exact ih
  | release _ now ih => exact ih.release k now

theorem nextId_modify (r : Registry) (k : ConnectionKey)
    (f : ConnectionRecord → ConnectionRecord) : (r.modify k f).nextId = r.nextId := by
  simp only [Registry.modify]
  split <;> rfl

theorem nextId_touch (r : Registry) (a : Address) (now : Instant) :
    (r.touch a now).nextId = r.nextId := by
  simp only [touch]
  split <;> rfl

theorem Tended.nextId (h : Tended k r r') : r'.nextId = r.nextId := by
  induction h with
  | refl => rfl
  | setState _ state ih =>
      simp only [Registry.setState]
      split
      · rw [nextId_modify, ih]
      · exact ih
  | setReputation _ score ih => rw [Registry.setReputation, nextId_modify, ih]
  | update _ bytes now ih =>
      simp only [Registry.update]
      split
      · rw [nextId_touch, nextId_modify, ih]
      · exact ih
  | release _ now ih =>
      simp only [Registry.release]
      split
      · split
        · exact ih
        · exact ih
      · exact ih

end Registry

end AdmissionGate
