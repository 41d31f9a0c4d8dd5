import Mathlib.Data.List.Forall2
import AdmissionGate.Proofs.Registry.Turnover

/-!
Two registries that hold the same of one address, up to the numbers of its connections. Numbers
are given out across addresses, so those of one address depend on the others; all else that an
operation on the address does and answers does not. The pairs of numbers are one-to-one, and stay
so, since each registry gives out a number that it has not given out before.
-/

namespace AdmissionGate

def OneToOne (names : List (Nat × Nat)) : Prop :=
  ∀ p ∈ names, ∀ q ∈ names, p.1 = q.1 ↔ p.2 = q.2

theorem OneToOne.concat {names : List (Nat × Nat)} (one : OneToOne names) {next next' : Nat}
    (issued : ∀ p ∈ names, p.1 < next ∧ p.2 < next') : OneToOne (names ++ [(next, next')]) := by
  intro p left q right
  rcases List.mem_append.mp left with before | last <;>
    rcases List.mem_append.mp right with before' | last'
  · exact one p before q before'
  · obtain rfl := List.mem_singleton.mp last'
    exact iff_of_false (Nat.ne_of_lt (issued p before).1) (Nat.ne_of_lt (issued p before).2)
  · obtain rfl := List.mem_singleton.mp last
    exact iff_of_false (Nat.ne_of_gt (issued q before').1) (Nat.ne_of_gt (issued q before').2)
  · obtain rfl := List.mem_singleton.mp last
    obtain rfl := List.mem_singleton.mp last'
    exact iff_of_true rfl rfl

variable {names more : List (Nat × Nat)} {id id' : Nat} {a : Address} {now : Instant}

def ConnectionKey.unnumbered (k : ConnectionKey) : ConnectionKey := { k with id := 0 }

namespace ConnectionRecord

def unnumbered (r : ConnectionRecord) : ConnectionRecord := { r with key := r.key.unnumbered }

/-- The records differ in their numbers only, and these are paired. -/
structure Renamed (names : List (Nat × Nat)) (r r' : ConnectionRecord) : Prop where
  paired : (r.key.id, r'.key.id) ∈ names
  same : r'.unnumbered = r.unnumbered

theorem Renamed.mono {r r' : ConnectionRecord} (renamed : r.Renamed names r')
    (subset : names ⊆ more) : r.Renamed more r' :=
  ⟨subset renamed.paired, renamed.same⟩

theorem Renamed.number_iff {r r' : ConnectionRecord} (renamed : r.Renamed names r')
    (one : OneToOne names) (pair : (id, id') ∈ names) : r.key.id = id ↔ r'.key.id = id' :=
  one _ renamed.paired _ pair

theorem Renamed.map {r r' : ConnectionRecord} (renamed : r.Renamed names r')
    {f : ConnectionRecord → ConnectionRecord} (keeps : ∀ r, (f r).key = r.key)
    (blind : ∀ r, (f r).unnumbered = f r.unnumbered) : (f r).Renamed names (f r') := by
  refine ⟨?_, ?_⟩
  · rw [keeps, keeps]
    exact renamed.paired
  · rw [blind, blind, renamed.same]

end ConnectionRecord

namespace Slot

variable {s s' : Slot}

structure Renamed (names : List (Nat × Nat)) (s s' : Slot) : Prop where
  live : List.Forall₂ (ConnectionRecord.Renamed names) s.live s'.live
  registrations : s'.registrations = s.registrations
  lastActivity : s'.lastActivity = s.lastActivity

namespace Renamed

theorem mono (renamed : s.Renamed names s') (subset : names ⊆ more) : s.Renamed more s' where
  live := renamed.live.imp fun _ _ each => each.mono subset
  registrations := renamed.registrations
  lastActivity := renamed.lastActivity

theorem find? (renamed : s.Renamed names s') (one : OneToOne names) (pair : (id, id') ∈ names) :
    Option.Rel (ConnectionRecord.Renamed names) (s.find? id) (s'.find? id') := by
  have live := renamed.live
  simp only [Slot.find?]
  generalize s.live = rs, s'.live = rs' at live
  induction live with
  | nil => exact .none
  | @cons r r' rest rest' first _ ih =>
      have same := first.number_iff one pair
      by_cases here : r.key.id = id
      · rw [List.find?_cons_of_pos (by simpa using here),
          List.find?_cons_of_pos (by simpa using same.mp here)]
        exact .some first
      · rw [List.find?_cons_of_neg (by simpa using here),
          List.find?_cons_of_neg (by simpa using fun there => here (same.mpr there))]
        exact ih

theorem modify (renamed : s.Renamed names s') (one : OneToOne names)
    (pair : (id, id') ∈ names) {f : ConnectionRecord → ConnectionRecord}
    (keeps : ∀ r, (f r).key = r.key) (blind : ∀ r, (f r).unnumbered = f r.unnumbered) :
    (s.modify id f).Renamed names (s'.modify id' f) := by
  refine ⟨List.rel_map ?_ renamed.live, renamed.registrations, renamed.lastActivity⟩
  intro r r' each
  simp only [each.number_iff one pair]
  split
  · exact each.map keeps blind
  · exact each

theorem remove (renamed : s.Renamed names s') (one : OneToOne names)
    (pair : (id, id') ∈ names) : (s.remove id).Renamed names (s'.remove id') := by
  refine ⟨List.rel_filter ?_ renamed.live, renamed.registrations, renamed.lastActivity⟩
  intro r r' each
  simp only [decide_eq_true_eq, ne_eq, each.number_iff one pair]

end Renamed

end Slot

namespace Registry

variable {r r' r'' : Registry} {k : ConnectionKey} {x : Address}

/-- Nothing has changed for the address; other addresses may have taken numbers. -/
structure Spares (a : Address) (r r' : Registry) : Prop where
  limit : r'.limit = r.limit
  recentTtl : r'.recentTtl = r.recentTtl
  slot : r'.slot? a = r.slot? a
  supply : r.nextId ≤ r'.nextId

theorem Spares.refl (a : Address) (r : Registry) : r.Spares a r :=
  ⟨rfl, rfl, rfl, Nat.le_refl _⟩

theorem Spares.trans (first : r.Spares a r') (second : r'.Spares a r'') : r.Spares a r'' :=
  ⟨second.limit.trans first.limit, second.recentTtl.trans first.recentTtl,
    second.slot.trans first.slot, Nat.le_trans first.supply second.supply⟩

theorem spares_insert (r : Registry) (other : x ≠ a) (slot : Slot) {supply active : Nat}
    (grows : r.nextId ≤ supply) :
    r.Spares a { r with slots := r.slots.insert x slot, nextId := supply, active } :=
  ⟨rfl, rfl, (AddressMap.get?_insert ..).trans (if_neg other), grows⟩

theorem spares_modify (r : Registry) (other : k.address ≠ a)
    (f : ConnectionRecord → ConnectionRecord) : r.Spares a (r.modify k f) := by
  simp only [modify]
  split
  · exact .refl a r
  · exact r.spares_insert other _ (Nat.le_refl _)

theorem spares_touch (r : Registry) (other : x ≠ a) (now : Instant) :
    r.Spares a (r.touch x now) := by
  simp only [touch]
  split
  · exact .refl a r
  · exact r.spares_insert other _ (Nat.le_refl _)

theorem Tended.spares (tended : Tended k r r') (other : k.address ≠ a) : r.Spares a r' := by
  induction tended with
  | refl => exact .refl a r
  | setState _ state ih =>
      simp only [Registry.setState]
      split
      · exact ih.trans (spares_modify _ other _)
      · exact ih
  | setReputation _ score ih => exact ih.trans (spares_modify _ other _)
  | update _ bytes now ih =>
      simp only [Registry.update]
      split
      · exact ih.trans ((spares_modify _ other _).trans (spares_touch _ other now))
      · exact ih
  | release _ now ih =>
      simp only [Registry.release]
      split
      · split
        · exact ih
        · exact ih.trans (spares_insert _ other _ (Nat.le_refl _))
      · exact ih

theorem spares_register (r : Registry) (other : x ≠ a) (b landed : Blocklist) (now : Instant) :
    r.Spares a (r.register b landed x now).2 := by
  rcases answer : r.register b landed x now with ⟨result, r'⟩
  cases result with
  | error e =>
      rcases register_refused answer with ⟨-, -, -, rfl⟩ | ⟨-, rfl, -⟩
      · exact .refl a _
      · exact r.spares_insert other _ (Nat.le_refl _)
  | ok key =>
      obtain ⟨-, rfl, rfl⟩ := register_made answer
      exact r.spares_insert other _ (Nat.le_succ _)

structure Agrees (a : Address) (names : List (Nat × Nat)) (r r' : Registry) : Prop where
  limit : r'.limit = r.limit
  recentTtl : r'.recentTtl = r.recentTtl
  one : OneToOne names
  issued : ∀ p ∈ names, p.1 < r.nextId ∧ p.2 < r'.nextId
  slot : Option.Rel (Slot.Renamed names) (r.slot? a) (r'.slot? a)

namespace Agrees

theorem ofSettings (a : Address) (s : RegistrySettings) :
    (ofSettings s).Agrees a [] (ofSettings s) :=
  ⟨rfl, rfl, fun _ member => (nomatch member), fun _ member => (nomatch member), .none⟩

theorem spared (agrees : r.Agrees a names r') (spares : r.Spares a r'') :
    r''.Agrees a names r' where
  limit := agrees.limit.trans spares.limit.symm
  recentTtl := agrees.recentTtl.trans spares.recentTtl.symm
  one := agrees.one
  issued p member :=
    ⟨Nat.lt_of_lt_of_le (agrees.issued p member).1 spares.supply, (agrees.issued p member).2⟩
  slot := spares.slot ▸ agrees.slot

theorem insert (agrees : r.Agrees a names r') {slot slot' : Slot}
    (renamed : slot.Renamed names slot') (active active' : Nat) :
    Agrees a names { r with slots := r.slots.insert a slot, active }
      { r' with slots := r'.slots.insert a slot', active := active' } := by
  refine ⟨agrees.limit, agrees.recentTtl, agrees.one, agrees.issued, ?_⟩
  simp only [slot?, AddressMap.get?_insert, if_pos]
  exact .some renamed

theorem slot_cases (agrees : r.Agrees a names r') :
    (r.slot? a = none ∧ r'.slot? a = none) ∨
      ∃ slot slot', r.slot? a = some slot ∧ r'.slot? a = some slot' ∧
        slot.Renamed names slot' := by
  have slots := agrees.slot
  generalize r.slot? a = slot, r'.slot? a = slot' at slots
  cases slots with
  | none => exact .inl ⟨rfl, rfl⟩
  | some renamed => exact .inr ⟨_, _, rfl, rfl, renamed⟩

theorem record? (agrees : r.Agrees a names r') (pair : (id, id') ∈ names) :
    Option.Rel (ConnectionRecord.Renamed names) (r.record? ⟨a, id⟩) (r'.record? ⟨a, id'⟩) := by
  simp only [Registry.record?]
  obtain ⟨none, none'⟩ | ⟨slot, slot', found, found', renamed⟩ := agrees.slot_cases
  · simp only [none, none', Option.bind_none]
    exact .none
  · simp only [found, found', Option.bind_some]
    exact renamed.find? agrees.one pair

theorem unnumbered_record? (agrees : r.Agrees a names r') (pair : (id, id') ∈ names) :
    (r'.record? ⟨a, id'⟩).map ConnectionRecord.unnumbered =
      (r.record? ⟨a, id⟩).map ConnectionRecord.unnumbered := by
  have records := agrees.record? pair
  generalize r.record? ⟨a, id⟩ = record, r'.record? ⟨a, id'⟩ = record' at records
  cases records with
  | none => rfl
  | some renamed => simp only [Option.map_some, renamed.same]

theorem isLive_eq (agrees : r.Agrees a names r') (pair : (id, id') ∈ names) :
    r'.isLive ⟨a, id'⟩ = r.isLive ⟨a, id⟩ := by
  have records := agrees.record? pair
  simp only [isLive]
  generalize r.record? ⟨a, id⟩ = record, r'.record? ⟨a, id'⟩ = record' at records
  cases records <;> rfl

theorem canMove_eq (agrees : r.Agrees a names r') (pair : (id, id') ∈ names)
    (state : ConnectionState) :
    r'.canMove ⟨a, id'⟩ state = r.canMove ⟨a, id⟩ state := by
  have records := agrees.record? pair
  simp only [canMove]
  generalize r.record? ⟨a, id⟩ = record, r'.record? ⟨a, id'⟩ = record' at records
  cases records with
  | none => rfl
  | some renamed =>
      have states := congrArg ConnectionRecord.state renamed.same
      exact congrArg (·.canMoveTo state) states

theorem activeFor_eq (agrees : r.Agrees a names r') : r'.activeFor a = r.activeFor a := by
  simp only [activeFor]
  obtain ⟨none, none'⟩ | ⟨slot, slot', found, found', renamed⟩ := agrees.slot_cases
  · rw [none, none']
  · simp only [found, found', Option.map_some, renamed.live.length_eq]

theorem registrations_eq (agrees : r.Agrees a names r') :
    r'.registrations a = r.registrations a := by
  simp only [registrations]
  obtain ⟨none, none'⟩ | ⟨slot, slot', found, found', renamed⟩ := agrees.slot_cases
  · rw [none, none']
  · simp only [found, found', Option.map_some, renamed.registrations]

theorem modify (agrees : r.Agrees a names r') (pair : (id, id') ∈ names)
    {f : ConnectionRecord → ConnectionRecord} (keeps : ∀ r, (f r).key = r.key)
    (blind : ∀ r, (f r).unnumbered = f r.unnumbered) :
    (r.modify ⟨a, id⟩ f).Agrees a names (r'.modify ⟨a, id'⟩ f) := by
  simp only [Registry.modify]
  obtain ⟨none, none'⟩ | ⟨slot, slot', found, found', renamed⟩ := agrees.slot_cases
  · rwa [none, none']
  · rw [found, found']
    exact agrees.insert (renamed.modify agrees.one pair keeps blind) _ _

theorem touch (agrees : r.Agrees a names r') (now : Instant) :
    (r.touch a now).Agrees a names (r'.touch a now) := by
  simp only [Registry.touch]
  obtain ⟨none, none'⟩ | ⟨slot, slot', found, found', renamed⟩ := agrees.slot_cases
  · rwa [none, none']
  · rw [found, found']
    refine agrees.insert ?_ _ _
    exact ⟨renamed.live, renamed.registrations, rfl⟩

theorem update (agrees : r.Agrees a names r') (pair : (id, id') ∈ names) (bytes : Nat)
    (now : Instant) :
    (r.update ⟨a, id⟩ bytes now).Agrees a names (r'.update ⟨a, id'⟩ bytes now) := by
  simp only [Registry.update, agrees.isLive_eq pair]
  split
  · refine (agrees.modify pair ?_ ?_).touch now
    · exact fun _ => rfl
    · exact fun _ => rfl
  · exact agrees

theorem setState (agrees : r.Agrees a names r') (pair : (id, id') ∈ names)
    (state : ConnectionState) :
    (r.setState ⟨a, id⟩ state).Agrees a names (r'.setState ⟨a, id'⟩ state) := by
  simp only [Registry.setState, agrees.canMove_eq pair]
  split
  · refine agrees.modify pair ?_ ?_
    · exact fun _ => rfl
    · exact fun _ => rfl
  · exact agrees

theorem setReputation (agrees : r.Agrees a names r') (pair : (id, id') ∈ names) (score : Float) :
    (r.setReputation ⟨a, id⟩ score).Agrees a names (r'.setReputation ⟨a, id'⟩ score) := by
  refine agrees.modify pair ?_ ?_
  · exact fun _ => rfl
  · exact fun _ => rfl

theorem release (agrees : r.Agrees a names r') (pair : (id, id') ∈ names) (now : Instant) :
    (r.release ⟨a, id⟩ now).Agrees a names (r'.release ⟨a, id'⟩ now) := by
  simp only [Registry.release, agrees.isLive_eq pair]
  split
  · obtain ⟨none, none'⟩ | ⟨slot, slot', found, found', renamed⟩ := agrees.slot_cases
    · rwa [none, none']
    · rw [found, found']
      have removed := renamed.remove agrees.one pair
      refine agrees.insert ?_ _ _
      exact ⟨removed.live, removed.registrations, rfl⟩
  · exact agrees

theorem purge (agrees : r.Agrees a names r') (now : Instant) :
    (r.purge now).Agrees a names (r'.purge now) := by
  refine ⟨agrees.limit, agrees.recentTtl, agrees.one, agrees.issued, ?_⟩
  have kept (r : Registry) : (r.purge now).slot? a = (r.slot? a).filter (r.keeps now) :=
    AddressMap.get?_filter ..
  rw [kept, kept]
  obtain ⟨none, none'⟩ | ⟨slot, slot', found, found', renamed⟩ := agrees.slot_cases
  · rw [none, none']
    exact .none
  · have empty : slot'.live.isEmpty = slot.live.isEmpty := by
      rw [Bool.eq_iff_iff, List.isEmpty_iff_length_eq_zero, List.isEmpty_iff_length_eq_zero,
        renamed.live.length_eq]
    have same : r'.keeps now slot' = r.keeps now slot := by
      simp only [keeps, empty, renamed.lastActivity, agrees.recentTtl]
    simp only [found, found', Option.filter, same]
    split
    · exact .some renamed
    · exact .none

/-- A registration is refused in both registries alike, or gives a pair of new numbers. -/
theorem register (agrees : r.Agrees a names r') {b b' landed landed' : Blocklist}
    (status : b'.status? a now = b.status? a now)
    (later : landed'.status? a now = landed.status? a now) :
    (∃ e, (r.register b landed a now).1 = .error e ∧ (r'.register b' landed' a now).1 = .error e ∧
      (r.register b landed a now).2.Agrees a names (r'.register b' landed' a now).2) ∨
    (r.register b landed a now).1 = .ok ⟨a, r.nextId⟩ ∧
      (r'.register b' landed' a now).1 = .ok ⟨a, r'.nextId⟩ ∧
      (r.register b landed a now).2.Agrees a (names ++ [(r.nextId, r'.nextId)])
        (r'.register b' landed' a now).2 := by
  have renamed : (r.slotAt a now).Renamed names (r'.slotAt a now) := by
    simp only [slotAt]
    obtain ⟨none, none'⟩ | ⟨slot, slot', found, found', renamed⟩ := agrees.slot_cases
    · rw [none, none']
      exact ⟨.nil, rfl, rfl⟩
    · rwa [found, found']
  simp only [Registry.register, status, later]
  generalize r.slotAt a now = slot, r'.slotAt a now = slot' at renamed
  have length := renamed.live.length_eq.symm
  split
  · exact .inl ⟨_, rfl, rfl, agrees⟩
  split
  · exact .inl ⟨_, rfl, rfl, agrees.insert renamed _ _⟩
  by_cases full : r.limit ≤ slot.live.length
  · rw [if_pos full, if_pos (by rwa [agrees.limit, length])]
    refine .inl ⟨_, rfl, ?_, agrees.insert renamed _ _⟩
    simp only [agrees.limit, length]
  · rw [if_neg full, if_neg (by rwa [agrees.limit, length])]
    refine .inr ⟨rfl, rfl, agrees.limit, agrees.recentTtl, agrees.one.concat agrees.issued, ?_, ?_⟩
    · intro p member
      rcases List.mem_append.mp member with before | last
      · exact ⟨Nat.lt_succ_of_lt (agrees.issued p before).1,
          Nat.lt_succ_of_lt (agrees.issued p before).2⟩
      · obtain rfl := List.mem_singleton.mp last
        exact ⟨Nat.lt_succ_self _, Nat.lt_succ_self _⟩
    · simp only [slot?, AddressMap.get?_insert, if_pos]
      have wider := renamed.mono (List.subset_append_left names [(r.nextId, r'.nextId)])
      refine .some ⟨List.rel_append wider.live (.cons ⟨?_, ?_⟩ .nil), ?_, rfl⟩
      · exact List.mem_append_right _ (List.mem_singleton_self _)
      · simp only [ConnectionRecord.unnumbered, ConnectionKey.unnumbered, renamed.registrations]
      · simp only [renamed.registrations]

end Agrees

end Registry

end AdmissionGate
