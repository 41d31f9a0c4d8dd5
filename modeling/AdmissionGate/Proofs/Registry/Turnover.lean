import AdmissionGate.Proofs.Registry.Balance

/-!
A registry in use. A run is a list of actions at instants, in any order, each with the answer
it got; leases are dropped and keys are released as often as one likes, also twice and without
a registration. The registry stays balanced, and the numbers that it gives out follow one
another.
-/

namespace AdmissionGate

inductive RegistryAction where
  /-- The blocklist when the registration starts, and when it looks again. -/
  | register (a : Address) (b : Blocklist) (landed : Blocklist := b)
  | drop (k : ConnectionKey)
  | release (k : ConnectionKey)
  | update (k : ConnectionKey) (bytes : Nat)
  | move (k : ConnectionKey) (state : ConnectionState)
  | rate (k : ConnectionKey) (score : Float)
  | purge

inductive RegistryAnswer where
  | registered (result : Except GateError ConnectionKey)
  | dropped
  /-- Whether there was something to do it to. -/
  | done (b : Bool)
  | removed (count : Nat)

def RegistryAnswer.key? : RegistryAnswer → Option ConnectionKey
  | registered (.ok k) => some k
  | _ => none

structure RegistryEvent where
  now : Instant
  action : RegistryAction
  answer : RegistryAnswer

namespace Registry

def act (r : Registry) (now : Instant) : RegistryAction → RegistryAnswer × Registry
  | .register a b landed =>
      let (result, r) := r.register b landed a now
      (.registered result, r)
  | .drop k => (.dropped, r.release k now)
  | .release k => (.done (r.isLive k), r.release k now)
  | .update k bytes => (.done (r.isLive k), r.update k bytes now)
  | .move k state => (.done (r.canMove k state), r.setState k state)
  | .rate k score => (.done (r.isLive k), r.setReputation k score)
  | .purge => (.removed (r.trackedAddresses - (r.purge now).trackedAddresses), r.purge now)

def run (r : Registry) : List (Instant × RegistryAction) → List RegistryEvent × Registry
  | [] => ([], r)
  | (now, action) :: rest =>
      let (answer, r) := r.act now action
      let (events, r) := r.run rest
      (⟨now, action, answer⟩ :: events, r)

def issued (events : List RegistryEvent) : List ConnectionKey :=
  events.filterMap fun e => e.answer.key?

variable {r r' : Registry} {k : ConnectionKey}

theorem Balanced.act (balanced : r.Balanced) (now : Instant) (action : RegistryAction) :
    (r.act now action).2.Balanced := by
  cases action with
  | register a b landed => exact balanced.register b landed a now
  | drop k | release k => exact balanced.release k now
  | update k bytes => exact balanced.tended (.update .refl bytes now)
  | move k state => exact balanced.tended (.setState .refl state)
  | rate k score => exact balanced.tended (.setReputation .refl score)
  | purge => exact balanced.purge now

theorem Balanced.run (balanced : r.Balanced) (steps : List (Instant × RegistryAction)) :
    (r.run steps).2.Balanced := by
  induction steps generalizing r with
  | nil => exact balanced
  | cons step rest ih => exact ih (balanced.act step.1 step.2)

theorem limit_act (r : Registry) (now : Instant) (action : RegistryAction) :
    (r.act now action).2.limit = r.limit := by
  cases action with
  | register a b landed =>
      rcases answer : r.register b landed a now with ⟨result, r'⟩
      simp only [Registry.act, answer]
      cases result with
      | ok key => exact (register_adds answer).2.2.1
      | error e => exact (alike_register_of_error answer).limit
  | drop k | release k =>
      simp only [Registry.act, Registry.release]
      split
      · split <;> rfl
      · rfl
  | update k bytes => exact (alike_update ..).limit
  | move k state => exact (alike_setState ..).limit
  | rate k score => exact (alike_setReputation ..).limit
  | purge => rfl

theorem limit_run (r : Registry) (steps : List (Instant × RegistryAction)) :
    (r.run steps).2.limit = r.limit := by
  induction steps generalizing r with
  | nil => rfl
  | cons step rest ih => exact (ih _).trans (limit_act ..)

/-- Only a registration that succeeds takes a number, and it takes the next one. -/
theorem nextId_act (r : Registry) (now : Instant) (action : RegistryAction) :
    (r.act now action).2.nextId = r.nextId + (r.act now action).1.key?.toList.length ∧
      ∀ k ∈ (r.act now action).1.key?, k.id = r.nextId := by
  cases action with
  | register a b landed =>
      rcases answer : r.register b landed a now with ⟨result, r'⟩
      simp only [Registry.act, answer]
      cases result with
      | ok key =>
          obtain ⟨rfl, supply⟩ := register_ok answer
          exact ⟨supply, fun _ same => by cases same; rfl⟩
      | error e => exact ⟨nextId_register_of_error answer, fun _ same => by cases same⟩
  | drop k | release k =>
      exact ⟨(Tended.release .refl now).nextId, fun _ same => by cases same⟩
  | update k bytes => exact ⟨(alike_update ..).supply, fun _ same => by cases same⟩
  | move k state => exact ⟨(alike_setState ..).supply, fun _ same => by cases same⟩
  | rate k score => exact ⟨(alike_setReputation ..).supply, fun _ same => by cases same⟩
  | purge => exact ⟨rfl, fun _ same => by cases same⟩

theorem issued_run (r : Registry) (steps : List (Instant × RegistryAction)) :
    (issued (r.run steps).1).map (·.id) = List.range' r.nextId (issued (r.run steps).1).length ∧
      (r.run steps).2.nextId = r.nextId + (issued (r.run steps).1).length := by
  induction steps generalizing r with
  | nil => exact ⟨rfl, rfl⟩
  | cons step rest ih =>
      obtain ⟨now, action⟩ := step
      obtain ⟨supply, first⟩ := nextId_act r now action
      obtain ⟨numbers, last⟩ := ih (r.act now action).2
      simp only [Registry.run, issued, List.filterMap_cons] at numbers last ⊢
      rw [supply] at numbers last
      cases given : (r.act now action).1.key? with
      | none =>
          rw [given] at numbers last
          exact ⟨numbers, last⟩
      | some k =>
          rw [given] at numbers last
          simp only [List.map_cons, List.length_cons, List.range'_succ, first k given]
          simp only [Option.toList_some, List.length_singleton] at numbers last
          exact ⟨congrArg _ numbers, by omega⟩

theorem active_act_le (r : Registry) (now : Instant) (action : RegistryAction) :
    (r.act now action).2.active ≤ r.active + 1 := by
  cases action with
  | register a b landed =>
      rcases answer : r.register b landed a now with ⟨result, r'⟩
      simp only [Registry.act, answer]
      cases result with
      | ok key => exact Nat.le_of_eq (register_adds answer).2.1
      | error e => exact Nat.le_succ_of_le (Nat.le_of_eq (alike_register_of_error answer).active)
  | drop k | release k =>
      simp only [Registry.act, Registry.release]
      split
      · split
        · exact Nat.le_succ _
        · exact Nat.le_succ_of_le (Nat.sub_le ..)
      · exact Nat.le_succ _
  | update k bytes => exact Nat.le_succ_of_le (Nat.le_of_eq (alike_update ..).active)
  | move k state => exact Nat.le_succ_of_le (Nat.le_of_eq (alike_setState ..).active)
  | rate k score => exact Nat.le_succ_of_le (Nat.le_of_eq (alike_setReputation ..).active)
  | purge => exact Nat.le_succ _

/-- No counter runs ahead of the actions, so a word of 64 bits holds each of them in every run of
fewer actions than such a word can count. -/
theorem counters_run_le (r : Registry) (steps : List (Instant × RegistryAction)) :
    (r.run steps).2.nextId ≤ r.nextId + steps.length ∧
      (r.run steps).2.active ≤ r.active + steps.length := by
  induction steps generalizing r with
  | nil => exact ⟨Nat.le_refl _, Nat.le_refl _⟩
  | cons step rest ih =>
      obtain ⟨now, action⟩ := step
      obtain ⟨supply, live⟩ := ih (r.act now action).2
      have taken : (r.act now action).1.key?.toList.length ≤ 1 := Option.length_toList_le
      have number := (nextId_act r now action).1
      have more := active_act_le r now action
      simp only [Registry.run, List.length_cons]
      exact ⟨by omega, by omega⟩

/-- The second registry is the first without the record of a key; it is the same if there is
no such record. -/
structure Removal (k : ConnectionKey) (r r' : Registry) : Prop where
  gone : r'.record? k = none
  others : ∀ other, other ≠ k → r'.record? other = r.record? other
  one : ∀ record, r.record? k = some record →
    r.records.Perm (record :: r'.records) ∧ r'.active + 1 = r.active
  none : r.record? k = none → r' = r

theorem Balanced.removal (balanced : r.Balanced) (k : ConnectionKey) (now : Instant) :
    Removal k r (r.release k now) where
  gone := by rw [record?_release, if_pos rfl]
  others other ne := by rw [record?_release, if_neg ne]
  one record found := by
    obtain ⟨stored, active, -⟩ := balanced.numbered.release_removes found now
    have some_live : 0 < r.active := by
      rw [balanced.counted, stored.length_eq]
      exact Nat.succ_pos _
    exact ⟨stored, by rw [active, Nat.sub_add_cancel some_live]⟩
  none gone := release_of_not_live gone now

/-- After any actions the live count is the number of records, no address holds more of them
than it may, each stands under the address of its own key, and the numbers given out are those
from one on, in their order. A release removes the record of its key and nothing else. -/
theorem run_balanced (s : RegistrySettings) (steps : List (Instant × RegistryAction)) :
    let events := ((ofSettings s).run steps).1
    let r := ((ofSettings s).run steps).2
    r.active = r.records.length ∧
      (∀ a, r.activeFor a ≤ s.maxConnectionsPerAddress.toNat) ∧
      (∀ a slot, r.slot? a = some slot → ∀ record ∈ slot.live, record.key.address = a) ∧
      (issued events).map (·.id) = List.range' 1 (issued events).length ∧
      r.nextId = (issued events).length + 1 ∧
      ∀ now k, (r.act now (.release k)).1 = .done (r.isLive k) ∧
        Removal k r (r.act now (.release k)).2 ∧ Removal k r (r.act now (.drop k)).2 := by
  intro events r
  have balanced : r.Balanced := (Balanced.ofSettings s).run steps
  have limit : r.limit = s.maxConnectionsPerAddress.toNat := limit_run (ofSettings s) steps
  obtain ⟨numbers, supply⟩ := issued_run (ofSettings s) steps
  refine ⟨balanced.counted, ?_, ?_, numbers, ?_, ?_⟩
  · intro a
    rw [← limit]
    exact balanced.bounded a
  · intro a slot there record member
    exact (balanced.numbered a slot there).own record member
  · rw [Nat.add_comm]
    exact supply
  · intro now k
    exact ⟨rfl, balanced.removal k now, balanced.removal k now⟩

/-- Of three connections of an address that may hold two the last is refused and takes no
number; the first is released twice. -/
example :
    let a : Address := .v4 #v[192, 0, 2, 1]
    let steps : List (Instant × RegistryAction) :=
      [(0, .register a (.ofSettings {})), (1, .register a (.ofSettings {})),
        (2, .register a (.ofSettings {})), (3, .release ⟨a, 1⟩), (4, .drop ⟨a, 1⟩)]
    let (events, r) := (ofSettings { maxConnectionsPerAddress := 2 }).run steps
    (issued events).map (·.id) = [1, 2] ∧ r.active = 1 ∧ r.keys = [⟨a, 2⟩] := by
  decide +kernel

end Registry

end AdmissionGate
