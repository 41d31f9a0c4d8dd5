import AdmissionGate.Registry.Basic

/-!
What each operation of the registry does to the records, seen through `record?`, and that
records stay well numbered: each stands under the address of its own key, with a number that
was given out before and to no other record of the address.
-/

namespace AdmissionGate

namespace Slot

theorem find?_modify (s : Slot) (id other : Nat) {f : ConnectionRecord → ConnectionRecord}
    (keeps : ∀ r, (f r).key = r.key) :
    (s.modify id f).find? other = if other = id then (s.find? other).map f else s.find? other := by
  simp only [find?, modify, List.find?_map, Function.comp_def]
  have same : (fun r : ConnectionRecord =>
      decide ((if r.key.id = id then f r else r).key.id = other)) =
        fun r => decide (r.key.id = other) := by
    funext r
    split <;> simp [keeps]
  rw [same]
  cases found : s.live.find? (fun r => decide (r.key.id = other)) with
  | none => simp
  | some r =>
      have number : r.key.id = other := by simpa using List.find?_some found
      by_cases here : other = id <;> simp [number, here]

theorem find?_remove (s : Slot) (id other : Nat) :
    (s.remove id).find? other = if other = id then none else s.find? other := by
  simp only [find?, remove, List.find?_filter]
  split
  · rename_i here
    subst here
    simp
  · rename_i elsewhere
    congr 1
    funext r
    by_cases number : r.key.id = other <;> simp [number, elsewhere]

end Slot

namespace Registry

theorem record?_eq_some_iff {r : Registry} {k : ConnectionKey} {record : ConnectionRecord} :
    r.record? k = some record ↔
      ∃ slot, r.slot? k.address = some slot ∧ slot.find? k.id = some record := by
  simp only [record?, Option.bind_eq_some_iff]

theorem record?_insert (r : Registry) (a : Address) (slot : Slot) (k : ConnectionKey) :
    record? { r with slots := r.slots.insert a slot } k =
      if a = k.address then slot.find? k.id else r.record? k := by
  simp only [record?, slot?, AddressMap.get?_insert]
  split <;> rfl

theorem record?_modify (r : Registry) (k other : ConnectionKey)
    {f : ConnectionRecord → ConnectionRecord} (keeps : ∀ r, (f r).key = r.key) :
    (r.modify k f).record? other =
      if other = k then (r.record? other).map f else r.record? other := by
  cases found : r.slot? k.address with
  | none =>
      have nothing : r.record? k = none := by simp [record?, found]
      simp only [modify, found]
      split
      · rename_i here
        rw [here, nothing, Option.map_none]
      · rfl
  | some slot =>
      simp only [modify, found, record?_insert]
      by_cases address : k.address = other.address
      · have same : r.record? other = slot.find? other.id := by
          simp [record?, ← address, found]
        have key : other = k ↔ other.id = k.id := by
          cases other
          cases k
          simp_all
        simp only [address, if_true, Slot.find?_modify _ _ _ keeps, same, key]
      · have different : other ≠ k := by
          intro same
          subst same
          exact address rfl
        simp only [address, different, if_false]

theorem record?_touch (r : Registry) (a : Address) (now : Instant) (k : ConnectionKey) :
    (r.touch a now).record? k = r.record? k := by
  simp only [touch]
  split
  · rfl
  · rename_i slot found
    rw [record?_insert]
    split
    · rename_i here
      subst here
      simp [record?, found, Slot.find?]
    · rfl

theorem isLive_iff {r : Registry} {k : ConnectionKey} :
    r.isLive k = true ↔ ∃ record, r.record? k = some record := by
  simp only [isLive, Option.isSome_iff_exists]

theorem record?_update (r : Registry) (k other : ConnectionKey) (bytes : Nat) (now : Instant) :
    (r.update k bytes now).record? other =
      if other = k then
        (r.record? other).map fun record =>
          { record with
            bytesIn := min (record.bytesIn + bytes) max64,
            packetsIn := min (record.packetsIn + 1) max64 }
      else r.record? other := by
  simp only [update]
  split
  · rw [record?_touch, record?_modify]
    exact fun _ => rfl
  · rename_i gone
    simp only [isLive, Bool.not_eq_true, Option.isSome_eq_false_iff, Option.isNone_iff_eq_none]
      at gone
    split
    · rename_i here
      rw [here, gone, Option.map_none]
    · rfl

theorem record?_setState (r : Registry) (k other : ConnectionKey) (state : ConnectionState) :
    (r.setState k state).record? other =
      if other = k ∧ r.canMove k state then
        (r.record? other).map fun record => { record with state }
      else r.record? other := by
  simp only [setState]
  by_cases may : r.canMove k state = true
  · simp only [may, if_true, and_true]
    exact record?_modify r k other fun _ => rfl
  · simp [may]

theorem record?_setReputation (r : Registry) (k other : ConnectionKey) (score : Float) :
    (r.setReputation k score).record? other =
      if other = k then (r.record? other).map fun record => { record with reputation := score }
      else r.record? other :=
  record?_modify r k other fun _ => rfl

theorem record?_release (r : Registry) (k other : ConnectionKey) (now : Instant) :
    (r.release k now).record? other = if other = k then none else r.record? other := by
  simp only [release]
  split
  · rename_i live
    split
    · rename_i missing
      obtain ⟨record, found⟩ := isLive_iff.mp live
      simp [record?, missing] at found
    · rename_i slot found
      change record? { r with slots := _ } other = _
      rw [record?_insert]
      by_cases address : k.address = other.address
      · have same : r.record? other = slot.find? other.id := by
          simp [record?, ← address, found]
        have key : other = k ↔ other.id = k.id := by
          cases other
          cases k
          simp_all
        rw [if_pos address, same]
        simp only [key]
        exact Slot.find?_remove slot k.id other.id
      · have different : other ≠ k := by
          intro same
          subst same
          exact address rfl
        simp only [address, different, if_false]
  · rename_i gone
    simp only [isLive, Bool.not_eq_true, Option.isSome_eq_false_iff, Option.isNone_iff_eq_none]
      at gone
    split
    · rename_i here
      rw [here, gone]
    · rfl

theorem record?_purge (r : Registry) (now : Instant) (k : ConnectionKey) :
    (r.purge now).record? k = r.record? k := by
  simp only [record?, slot?, purge, AddressMap.get?_filter]
  cases r.slots.get? k.address with
  | none => rfl
  | some slot =>
      by_cases kept : r.keeps now slot = true
      · simp [Option.filter, kept]
      · have empty : slot.live = [] := by
          simp only [keeps, Bool.or_eq_true, not_or] at kept
          simpa using kept.1
        simp [Option.filter, kept, Slot.find?, empty]

end Registry

end AdmissionGate
