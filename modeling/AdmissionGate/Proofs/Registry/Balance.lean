import AdmissionGate.Proofs.Registry.Numbering

/-!
The balance of a registry: the records that are stored, slot by slot, against the live count.
A registration adds one record, a release removes the one it names, and every other operation
leaves the same connections live. So the live count is the number of records, whatever the
order of the operations, and it goes down only for a record that was there.
-/

namespace AdmissionGate

/-- Replacing a value, seen through lists that the values are joined from. -/
theorem AddressMap.flatMap_put {α β : Type} (f : α → List β) (a : Address) (v : α)
    (es : List (Address × α)) :
    ((put a v es).flatMap (fun e => f e.2) ++ ((lookup a es).map f).getD []).Perm
      (f v ++ es.flatMap fun e => f e.2) := by
  induction es with
  | nil => simp [put, lookup]
  | cons e es ih =>
      simp only [put, lookup, List.flatMap_cons]
      split
      · simp only [List.flatMap_cons, List.append_assoc, Option.map_some, Option.getD_some]
        exact List.perm_append_comm.append_left _
      · simp only [List.flatMap_cons, List.append_assoc]
        exact (ih.append_left _).trans (List.perm_append_comm_assoc ..)

namespace Slot

/-- The record that is found under a number, and those that are left without it. -/
theorem live_perm_remove {s : Slot} {a : Address} {supply id : Nat} {record : ConnectionRecord}
    (numbered : s.Numbered a supply) (found : s.find? id = some record) :
    s.live.Perm (record :: (s.remove id).live) := by
  obtain ⟨live, registrations, lastActivity⟩ := s
  have distinct := numbered.distinct
  simp only [find?, remove] at distinct found ⊢
  clear numbered
  induction live with
  | nil => contradiction
  | cons first rest ih =>
      simp only [List.map_cons, List.nodup_cons] at distinct
      by_cases here : first.key.id = id
      · have same : first = record := by simpa [here] using found
        have others : rest.filter (·.key.id ≠ id) = rest := by
          rw [List.filter_eq_self]
          intro other member
          have apart : other.key.id ≠ first.key.id := by
            intro same
            exact distinct.1 (same ▸ List.mem_map_of_mem member)
          simpa [here] using apart
        rw [List.filter_cons_of_neg (by simp [here]), others, same]
      · have later : rest.find? (·.key.id = id) = some record := by simpa [here] using found
        rw [List.filter_cons_of_pos (by simp [here])]
        exact ((ih later distinct.2).cons first).trans (List.Perm.swap ..)

end Slot

namespace Registry

variable {r r' : Registry} {k : ConnectionKey} {b landed : Blocklist} {a : Address}
  {now : Instant}

def records (r : Registry) : List ConnectionRecord := r.slots.entries.flatMap fun e => e.2.live

def keys (r : Registry) : List ConnectionKey := r.records.map (·.key)

theorem mem_records {record : ConnectionRecord} :
    record ∈ r.records ↔ ∃ a slot, r.slot? a = some slot ∧ record ∈ slot.live := by
  simp only [records, List.mem_flatMap, Prod.exists, slot?, AddressMap.get?_eq_some_iff]

theorem Numbered.mem_keys (numbered : r.Numbered) : k ∈ r.keys ↔ r.isLive k = true := by
  rw [isLive_iff, keys, List.mem_map]
  constructor
  · rintro ⟨record, stored, rfl⟩
    obtain ⟨a, slot, there, member⟩ := mem_records.mp stored
    have own := (numbered a slot there).own record member
    have found : (slot.find? record.key.id).isSome := by
      rw [Slot.find?, List.find?_isSome]
      exact ⟨record, member, by simp⟩
    obtain ⟨other, found⟩ := Option.isSome_iff_exists.mp found
    exact ⟨other, record?_eq_some_iff.mpr ⟨slot, own ▸ there, found⟩⟩
  · rintro ⟨record, found⟩
    obtain ⟨slot, there, member⟩ := record?_eq_some_iff.mp found
    exact ⟨record, mem_records.mpr ⟨_, slot, there, List.mem_of_find?_eq_some member⟩,
      numbered.record?_key found⟩

theorem Numbered.issued (numbered : r.Numbered) {record : ConnectionRecord}
    (stored : record ∈ r.records) : record.key.id < r.nextId := by
  obtain ⟨a, slot, there, member⟩ := mem_records.mp stored
  exact (numbered a slot there).issued record member

/-- A new slot at an address, against the one that was there. -/
theorem records_insert (r : Registry) (a : Address) (slot : Slot) (supply active : Nat) :
    (records { r with slots := r.slots.insert a slot, nextId := supply, active } ++
      ((r.slot? a).map (·.live)).getD []).Perm (slot.live ++ r.records) :=
  AddressMap.flatMap_put (fun slot : Slot => slot.live) a slot r.slots.entries

theorem activeFor_insert (r : Registry) (a b : Address) (slot : Slot) (supply active : Nat) :
    activeFor { r with slots := r.slots.insert a slot, nextId := supply, active } b =
      if a = b then slot.live.length else r.activeFor b := by
  simp only [activeFor, slot?, AddressMap.get?_insert]
  split <;> rfl

structure Alike (r r' : Registry) : Prop where
  limit : r'.limit = r.limit
  supply : r'.nextId = r.nextId
  active : r'.active = r.active
  keys : r'.keys.Perm r.keys
  each : ∀ a, r'.activeFor a = r.activeFor a

theorem Alike.refl (r : Registry) : r.Alike r := ⟨rfl, rfl, rfl, .refl _, fun _ => rfl⟩

theorem Alike.trans {r'' : Registry} (first : r.Alike r') (second : r'.Alike r'') :
    r.Alike r'' where
  limit := second.limit.trans first.limit
  supply := second.supply.trans first.supply
  active := second.active.trans first.active
  keys := second.keys.trans first.keys
  each a := (second.each a).trans (first.each a)

/-- Another slot with the same keys. -/
theorem alike_insert {a : Address} (old : Slot) {slot : Slot}
    (before : ((r.slot? a).map (·.live)).getD [] = old.live)
    (same : slot.live.map (·.key) = old.live.map (·.key)) :
    r.Alike { r with slots := r.slots.insert a slot } := by
  have stored := (records_insert r a slot r.nextId r.active).map (·.key)
  rw [before, List.map_append, List.map_append, same] at stored
  refine ⟨rfl, rfl, rfl, ?_, ?_⟩
  · exact (List.perm_append_right_iff _).mp (stored.trans List.perm_append_comm)
  · intro b
    have length : slot.live.length = old.live.length := by
      simpa only [List.length_map] using congrArg List.length same
    rw [activeFor_insert r a b slot r.nextId r.active]
    split
    · rename_i here
      subst here
      rw [length, ← before, activeFor]
      cases r.slot? a <;> rfl
    · rfl

theorem alike_modify (r : Registry) (k : ConnectionKey)
    {f : ConnectionRecord → ConnectionRecord} (keeps : ∀ r, (f r).key = r.key) :
    r.Alike (r.modify k f) := by
  simp only [modify]
  split
  · exact .refl r
  · rename_i slot found
    have keys (record : ConnectionRecord) :
        (if record.key.id = k.id then f record else record).key = record.key := by
      split <;> simp [keeps]
    apply alike_insert slot
    · simp [found]
    · simp only [Slot.modify, List.map_map, Function.comp_def, keys]

theorem alike_touch (r : Registry) (a : Address) (now : Instant) : r.Alike (r.touch a now) := by
  simp only [touch]
  split
  · exact .refl r
  · rename_i slot found
    exact alike_insert slot (by simp [found]) rfl

theorem alike_update (r : Registry) (k : ConnectionKey) (bytes : Nat) (now : Instant) :
    r.Alike (r.update k bytes now) := by
  simp only [update]
  split
  · refine (alike_modify r k ?_).trans (alike_touch ..)
    exact fun _ => rfl
  · exact .refl r

theorem alike_setState (r : Registry) (k : ConnectionKey) (state : ConnectionState) :
    r.Alike (r.setState k state) := by
  simp only [setState]
  split
  · exact alike_modify r k fun _ => rfl
  · exact .refl r

theorem alike_setReputation (r : Registry) (k : ConnectionKey) (score : Float) :
    r.Alike (r.setReputation k score) :=
  alike_modify r k fun _ => rfl

/-- What is forgotten holds no live connection. -/
theorem alike_purge (r : Registry) (now : Instant) : r.Alike (r.purge now) := by
  have empty {slot : Slot} (dropped : ¬r.keeps now slot = true) : slot.live = [] := by
    simp only [keeps, Bool.or_eq_true, not_or] at dropped
    simpa using dropped.1
  refine ⟨rfl, rfl, rfl, ?_, ?_⟩
  · have stored : (r.purge now).records = r.records := by
      simp only [records, purge, AddressMap.filter]
      induction r.slots.entries with
      | nil => rfl
      | cons e es ih =>
          rw [List.filter_cons]
          split
          · rw [List.flatMap_cons, List.flatMap_cons, ih]
          · rename_i dropped
            rw [List.flatMap_cons, empty dropped, ih, List.nil_append]
    rw [keys, stored, keys]
  · intro a
    simp only [activeFor, slot?, purge, AddressMap.get?_filter]
    cases r.slots.get? a with
    | none => rfl
    | some slot =>
        by_cases kept : r.keeps now slot = true
        · simp [Option.filter, kept]
        · simp [Option.filter, kept, empty kept]

theorem alike_register_of_error {e : GateError}
    (refused : r.register b landed a now = (.error e, r')) : r.Alike r' := by
  rcases register_refused refused with ⟨-, -, -, rfl⟩ | ⟨-, rfl, -⟩
  · exact .refl _
  · exact alike_insert (r.slotAt a now) (r.live_slotAt a now).symm rfl

/-- A registration adds a record under its key, below the limit. -/
theorem register_adds (ok : r.register b landed a now = (.ok k, r')) :
    r'.records.Perm ({ key := k, priorConnections := r.registrations a } :: r.records) ∧
      r'.active = r.active + 1 ∧ r'.limit = r.limit ∧ r'.activeFor a ≤ r.limit ∧
        ∀ b, b ≠ a → r'.activeFor b = r.activeFor b := by
  obtain ⟨⟨-, -, room⟩, rfl, rfl⟩ := register_made ok
  refine ⟨?_, rfl, rfl, ?_, ?_⟩
  · have stored := records_insert r a
      { live := (r.slotAt a now).live ++
          [{ key := ⟨a, r.nextId⟩, priorConnections := r.registrations a }],
        registrations := min (r.registrations a + 1) max64, lastActivity := now }
      (r.nextId + 1) (r.active + 1)
    rw [← live_slotAt r a now, List.append_assoc] at stored
    exact (List.perm_append_right_iff _).mp (stored.trans List.perm_append_comm)
  · rw [activeFor_insert, if_pos rfl, List.length_append]
    exact room
  · intro b other
    rw [activeFor_insert, if_neg (Ne.symm other)]

/-- A release of a live connection removes its record and no other. -/
theorem Numbered.release_removes (numbered : r.Numbered) {record : ConnectionRecord}
    (found : r.record? k = some record) (now : Instant) :
    r.records.Perm (record :: (r.release k now).records) ∧
      (r.release k now).active = r.active - 1 ∧ (r.release k now).limit = r.limit ∧
        ∀ a, (r.release k now).activeFor a ≤ r.activeFor a := by
  obtain ⟨slot, there, stored⟩ := record?_eq_some_iff.mp found
  have live : r.isLive k = true := isLive_iff.mpr ⟨record, found⟩
  have left := Slot.live_perm_remove (numbered _ _ there) stored
  have released : r.release k now =
      { r with
        slots := r.slots.insert k.address { slot.remove k.id with lastActivity := now },
        active := r.active - 1 } := by
    simp only [Registry.release, live, if_true, there]
  rw [released]
  refine ⟨?_, rfl, rfl, ?_⟩
  · have swap := records_insert r k.address { slot.remove k.id with lastActivity := now } r.nextId
      (r.active - 1)
    simp only [there, Option.map_some, Option.getD_some] at swap
    have whole := (left.append_right _).symm.trans (List.perm_append_comm.trans swap)
    rw [List.cons_append] at whole
    refine ((List.perm_append_left_iff (slot.remove k.id).live).mp ?_).symm
    exact List.perm_middle.trans whole
  · intro a
    rw [activeFor_insert r k.address a _ r.nextId (r.active - 1)]
    split
    · rename_i here
      subst here
      simp only [activeFor, there, Option.map_some, Option.getD_some]
      exact List.length_filter_le ..
    · exact Nat.le_refl _

theorem release_of_not_live (gone : r.record? k = none) (now : Instant) :
    r.release k now = r := by
  simp [release, isLive, gone]

structure Balanced (r : Registry) : Prop where
  numbered : r.Numbered
  counted : r.active = r.records.length
  bounded : ∀ a, r.activeFor a ≤ r.limit
  distinct : (r.keys.map (·.id)).Nodup

namespace Balanced

theorem ofSettings (s : RegistrySettings) : (ofSettings s).Balanced :=
  ⟨numbered_ofSettings s, rfl, fun _ => Nat.zero_le _, .nil⟩

theorem alike (balanced : r.Balanced) (alike : r.Alike r') (numbered : r'.Numbered) :
    r'.Balanced where
  numbered := numbered
  counted := by
    have length := alike.keys.length_eq
    rw [keys, keys, List.length_map, List.length_map] at length
    rw [alike.active, balanced.counted, length]
  bounded a := by
    rw [alike.limit, alike.each]
    exact balanced.bounded a
  distinct := (alike.keys.map _).nodup_iff.mpr balanced.distinct

theorem register (balanced : r.Balanced) (b landed : Blocklist) (a : Address) (now : Instant) :
    (r.register b landed a now).2.Balanced := by
  have numbered := balanced.numbered.register b landed a now
  rcases answer : r.register b landed a now with ⟨result, r'⟩
  rw [answer] at numbered
  cases result with
  | error e => exact balanced.alike (alike_register_of_error answer) numbered
  | ok key =>
      obtain ⟨rfl, -⟩ := register_ok answer
      obtain ⟨stored, active, limit, here, elsewhere⟩ := register_adds answer
      refine ⟨numbered, ?_, ?_, ?_⟩
      · rw [active, balanced.counted, stored.length_eq, List.length_cons]
      · intro b
        rw [limit]
        by_cases same : b = a
        · rw [same]
          exact here
        · rw [elsewhere b same]
          exact balanced.bounded b
      · have keys := (stored.map (·.key)).map (·.id)
        rw [Registry.keys, keys.nodup_iff]
        simp only [List.map_cons, List.nodup_cons]
        refine ⟨?_, balanced.distinct⟩
        intro again
        simp only [List.mem_map] at again
        obtain ⟨_, ⟨old, member, rfl⟩, same⟩ := again
        exact Nat.ne_of_lt (balanced.numbered.issued member) same

theorem release (balanced : r.Balanced) (k : ConnectionKey) (now : Instant) :
    (r.release k now).Balanced := by
  cases found : r.record? k with
  | none =>
      rw [release_of_not_live found]
      exact balanced
  | some record =>
      obtain ⟨stored, active, limit, fewer⟩ := balanced.numbered.release_removes found now
      refine ⟨balanced.numbered.release k now, ?_, ?_, ?_⟩
      · rw [active, balanced.counted, stored.length_eq, List.length_cons, Nat.add_sub_cancel]
      · intro a
        rw [limit]
        exact Nat.le_trans (fewer a) (balanced.bounded a)
      · have keys := (stored.map (·.key)).map (·.id)
        exact (List.nodup_cons.mp (keys.nodup_iff.mp balanced.distinct)).2

/-- The keys that are left when one is released. -/
theorem release_keys (balanced : r.Balanced) {rest : List ConnectionKey}
    (before : r.keys.Perm (k :: rest)) (now : Instant) : (r.release k now).keys.Perm rest := by
  have live := balanced.numbered.mem_keys.mp (before.mem_iff.mpr (List.mem_cons_self ..))
  obtain ⟨record, found⟩ := isLive_iff.mp live
  have removed := (balanced.numbered.release_removes found now).1.map (·.key)
  rw [List.map_cons, balanced.numbered.record?_key found] at removed
  exact (removed.symm.trans before).cons_inv

theorem purge (balanced : r.Balanced) (now : Instant) : (r.purge now).Balanced :=
  balanced.alike (alike_purge r now) (balanced.numbered.purge now)

/-- Operations on one record. -/
theorem tended (balanced : r.Balanced) (tended : r.Tended k r') : r'.Balanced := by
  induction tended with
  | refl => exact balanced
  | setState before state ih =>
      exact ih.alike (alike_setState ..) ((before.setState state).numbered balanced.numbered)
  | setReputation before score ih =>
      exact ih.alike (alike_setReputation ..)
        ((before.setReputation score).numbered balanced.numbered)
  | update before bytes now ih =>
      exact ih.alike (alike_update ..) ((before.update bytes now).numbered balanced.numbered)
  | release _ now ih => exact ih.release k now

end Balanced

variable {r'' : Registry}

/-- Beside the connection that bears the key, the same ones are live, with the same records. -/
structure Beside (k : ConnectionKey) (r r' : Registry) : Prop where
  record : ∀ other, other ≠ k → r'.record? other = r.record? other
  keys : (r'.keys.filter (· ≠ k)).Perm (r.keys.filter (· ≠ k))

theorem Beside.refl (k : ConnectionKey) (r : Registry) : r.Beside k r :=
  ⟨fun _ _ => rfl, .refl _⟩

theorem Beside.trans (first : r.Beside k r') (second : r'.Beside k r'') : r.Beside k r'' where
  record other ne := (second.record other ne).trans (first.record other ne)
  keys := second.keys.trans first.keys

theorem Numbered.release_beside (numbered : r.Numbered) (k : ConnectionKey) (now : Instant) :
    ((r.release k now).keys.filter (· ≠ k)).Perm (r.keys.filter (· ≠ k)) := by
  cases found : r.record? k with
  | none =>
      rw [release_of_not_live found]
  | some record =>
      have removed := ((numbered.release_removes found now).1.map (·.key)).filter (· ≠ k)
      rw [List.map_cons, numbered.record?_key found] at removed
      simpa [keys] using removed.symm

theorem Tended.beside (tended : Tended k r r') (numbered : r.Numbered) : r.Beside k r' where
  record _ ne := tended.record?_of_ne ne
  keys := by
    induction tended with
    | refl => exact .refl _
    | setState _ state ih => exact ((alike_setState ..).keys.filter _).trans ih
    | setReputation _ score ih => exact ((alike_setReputation ..).keys.filter _).trans ih
    | update _ bytes now ih => exact ((alike_update ..).keys.filter _).trans ih
    | release before now ih => exact ((before.numbered numbered).release_beside k now).trans ih

theorem Numbered.register_beside (numbered : r.Numbered)
    (ok : r.register b landed a now = (.ok k, r')) : r.Beside k r' where
  record other ne := (numbered.record?_register ok other).trans (if_neg ne)
  keys := by
    have added := ((register_adds ok).1.map (·.key)).filter (· ≠ k)
    simpa [keys] using added

/-- Without the connection, the live count is the number of the others. -/
theorem Balanced.active_beside (balanced : r.Balanced) (gone : r.record? k = none) :
    r.active = (r.keys.filter (· ≠ k)).length := by
  have others : r.keys.filter (· ≠ k) = r.keys := by
    rw [List.filter_eq_self]
    intro other member
    have live := balanced.numbered.mem_keys.mp member
    refine decide_eq_true fun same => ?_
    rw [same, isLive, gone] at live
    contradiction
  rw [others, keys, List.length_map, balanced.counted]

end Registry

end AdmissionGate
