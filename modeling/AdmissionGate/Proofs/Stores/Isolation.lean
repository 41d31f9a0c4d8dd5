import AdmissionGate.Proofs.Limiter.Locality
import AdmissionGate.Proofs.Registry.Renaming

/-!
Addresses do not interfere. A limiter, a blocklist and a registry are used together, for any
addresses and at any instants. What is answered about one address is what would be answered if
nobody had done anything about the others, save that the numbers of its connections may differ.
The proof runs the two side by side: an action about another address is done on one side only and
changes nothing that the sides have in common, and any other action is done on both.
-/

namespace AdmissionGate

/-- A connection, told by how many of its address were registered before it. -/
structure Lease where
  address : Address
  number : Nat

inductive Use where
  | drop
  | release
  | update (bytes : Nat)
  | move (state : ConnectionState)
  | rate (score : Float)

def Use.on (k : ConnectionKey) : Use → RegistryAction
  | drop => .drop k
  | release => .release k
  | update bytes => .update k bytes
  | move state => .move k state
  | rate score => .rate k score

inductive StoreAction where
  | guard (action : GuardAction)
  | register (a : Address)
  | use (c : Lease) (use : Use)
  | record (c : Lease)
  | registrations (a : Address)
  | active (a : Address)
  | purgeStale

def StoreAction.about? : StoreAction → Option Address
  | guard action => action.about?
  | register a | registrations a | active a => some a
  | use c _ | record c => some c.address
  | purgeStale => none

def StoreAction.concerns (a : Address) (action : StoreAction) : Bool :=
  action.about?.all (· = a)

inductive StoreAnswer where
  | guard (answer : GuardAnswer)
  | registry (answer : RegistryAnswer)
  | record (r : Option ConnectionRecord)
  | count (n : Nat)
  | unknown

def RegistryAnswer.unnumbered : RegistryAnswer → RegistryAnswer
  | registered result => registered (result.map ConnectionKey.unnumbered)
  | answer => answer

def StoreAnswer.unnumbered : StoreAnswer → StoreAnswer
  | registry answer => registry answer.unnumbered
  | record r => record (r.map ConnectionRecord.unnumbered)
  | answer => answer

structure StoreEvent where
  now : Instant
  action : StoreAction
  answer : StoreAnswer

structure Stores where
  guard : Guard
  registry : Registry
  /-- Keys that registrations gave out, in their order. -/
  keys : List ConnectionKey := []

namespace Stores

def ofSettings (s : Settings) : Stores where
  guard := ⟨.ofSettings s, .ofSettings s.blocklist⟩
  registry := .ofSettings s.registry

def key? (st : Stores) (c : Lease) : Option ConnectionKey :=
  (st.keys.filter (·.address = c.address))[c.number]?

def act (st : Stores) (now : Instant) : StoreAction → StoreAnswer × Stores
  | .guard action =>
      let r := st.guard.act now action
      (.guard r.1, { st with guard := r.2 })
  | .register a =>
      let r := st.registry.act now (.register a st.guard.blocklist)
      (.registry r.1,
        { guard := { st.guard with blocklist := st.guard.blocklist.settle a now }
          registry := r.2
          keys := st.keys ++ r.1.key?.toList })
  | .use c use =>
      match st.key? c with
      | none => (.unknown, st)
      | some k =>
          let r := st.registry.act now (use.on k)
          (.registry r.1, { st with registry := r.2 })
  | .record c =>
      match st.key? c with
      | none => (.unknown, st)
      | some k => (.record (st.registry.record? k), st)
  | .registrations a => (.count (st.registry.registrations a), st)
  | .active a => (.count (st.registry.activeFor a), st)
  | .purgeStale =>
      let r := st.registry.act now .purge
      (.registry r.1, { st with registry := r.2 })

def run (st : Stores) : List (Instant × StoreAction) → List StoreEvent
  | [] => []
  | (now, action) :: rest =>
      let r := st.act now action
      ⟨now, action, r.1⟩ :: r.2.run rest

/-- What was answered about an address, without the numbers of its connections. -/
def answersAbout (a : Address) (events : List StoreEvent) : List StoreEvent :=
  (events.filter (·.action.about? = some a)).map fun e => { e with answer := e.answer.unnumbered }

variable {st st' : Stores} {a x : Address} {names : List (Nat × Nat)} {now : Instant}
  {action : StoreAction} {c : Lease}

theorem address_of_key? {k : ConnectionKey} (found : st.key? c = some k) :
    k.address = c.address := by
  have member := List.mem_of_getElem? found
  simpa using (List.mem_filter.mp member).2

structure Agrees (a : Address) (names : List (Nat × Nat)) (st st' : Stores) : Prop where
  guard : st.guard.Agrees a st'.guard
  registry : st.registry.Agrees a names st'.registry
  keys : st.keys.filter (·.address = a) = names.map fun p => ⟨a, p.1⟩
  keys' : st'.keys.filter (·.address = a) = names.map fun p => ⟨a, p.2⟩

theorem Agrees.ofSettings (a : Address) (s : Settings) :
    (ofSettings s).Agrees a [] (ofSettings s) :=
  ⟨.refl a _, .ofSettings a s.registry, rfl, rfl⟩

theorem spares_use (st : Stores) (now : Instant) (use : Use) {k : ConnectionKey}
    (other : k.address ≠ a) :
    st.registry.Spares a (st.registry.act now (use.on k)).2 := by
  cases use with
  | drop | release => exact (Registry.Tended.release .refl now).spares other
  | update bytes => exact (Registry.Tended.update .refl bytes now).spares other
  | move state => exact (Registry.Tended.setState .refl state).spares other
  | rate score => exact (Registry.Tended.setReputation .refl score).spares other

theorem Agrees.elsewhere (agrees : st.Agrees a names st') (now : Instant)
    (about : action.about? = some x) (other : x ≠ a) :
    (st.act now action).2.Agrees a names st' := by
  cases action with
  | guard action =>
      exact ⟨(st.guard.act_elsewhere now about other).symm.trans agrees.guard, agrees.registry,
        agrees.keys, agrees.keys'⟩
  | register y =>
      cases about
      have settled := st.guard.blocklist.settle_elsewhere other now
      refine ⟨⟨agrees.guard.limiter, settled.symm.trans agrees.guard.blocklist⟩,
        agrees.registry.spared (st.registry.spares_register other _ _ now), ?_, agrees.keys'⟩
      rw [← agrees.keys]
      simp only [act, Registry.act]
      rcases answer : st.registry.register st.guard.blocklist st.guard.blocklist x now with
        ⟨result, r⟩
      cases result with
      | error e => simp [RegistryAnswer.key?]
      | ok k =>
          obtain ⟨rfl, -⟩ := Registry.register_ok answer
          simp [RegistryAnswer.key?, other]
  | use c use =>
      cases about
      simp only [act]
      split
      · exact agrees
      · rename_i k found
        have elsewhere : k.address ≠ a := address_of_key? found ▸ other
        exact ⟨agrees.guard, agrees.registry.spared (st.spares_use now use elsewhere),
          agrees.keys, agrees.keys'⟩
  | record c =>
      simp only [act]
      split <;> exact agrees
  | registrations y | active y => exact agrees
  | purgeStale => cases about

/-- A connection of the address is known on both sides or on neither. -/
theorem Agrees.key?_cases (agrees : st.Agrees a names st') (n : Nat) :
    (st.key? ⟨a, n⟩ = none ∧ st'.key? ⟨a, n⟩ = none) ∨
      ∃ id id', (id, id') ∈ names ∧ st.key? ⟨a, n⟩ = some ⟨a, id⟩ ∧
        st'.key? ⟨a, n⟩ = some ⟨a, id'⟩ := by
  simp only [key?, agrees.keys, agrees.keys', List.getElem?_map]
  cases found : names[n]? with
  | none => exact .inl ⟨rfl, rfl⟩
  | some p => exact .inr ⟨p.1, p.2, List.mem_of_getElem? found, rfl, rfl⟩

theorem Agrees.use {r r' : Registry} (agrees : r.Agrees a names r') {id id' : Nat}
    (pair : (id, id') ∈ names) (now : Instant) (use : Use) :
    (r'.act now (use.on ⟨a, id'⟩)).1 = (r.act now (use.on ⟨a, id⟩)).1 ∧
      (r.act now (use.on ⟨a, id⟩)).2.Agrees a names (r'.act now (use.on ⟨a, id'⟩)).2 := by
  have live := agrees.isLive_eq pair
  cases use with
  | drop => exact ⟨rfl, agrees.release pair now⟩
  | release => exact ⟨congrArg RegistryAnswer.done live, agrees.release pair now⟩
  | update bytes => exact ⟨congrArg RegistryAnswer.done live, agrees.update pair bytes now⟩
  | move state =>
      exact ⟨congrArg RegistryAnswer.done (agrees.canMove_eq pair state),
        agrees.setState pair state⟩
  | rate score => exact ⟨congrArg RegistryAnswer.done live, agrees.setReputation pair score⟩

theorem Agrees.register (agrees : st.Agrees a names st') (now : Instant) :
    (st'.act now (.register a)).1.unnumbered = (st.act now (.register a)).1.unnumbered ∧
      ∃ names, (st.act now (.register a)).2.Agrees a names (st'.act now (.register a)).2 := by
  obtain ⟨guard, registry, keys, keys'⟩ := agrees
  have settled : Guard.Agrees a { st.guard with blocklist := st.guard.blocklist.settle a now }
      { st'.guard with blocklist := st'.guard.blocklist.settle a now } :=
    ⟨guard.limiter, guard.blocklist.settle now⟩
  simp only [act, Registry.act]
  obtain ⟨e, answer, answer', after⟩ | ⟨answer, answer', after⟩ :=
    registry.register (guard.blocklist.status?_eq now) (guard.blocklist.status?_eq now)
  · rw [answer, answer']
    refine ⟨rfl, names, settled, after, ?_, ?_⟩
    · simpa [RegistryAnswer.key?] using keys
    · simpa [RegistryAnswer.key?] using keys'
  · rw [answer, answer']
    refine ⟨rfl, _, settled, after, ?_, ?_⟩
    · simp [RegistryAnswer.key?, keys]
    · simp [RegistryAnswer.key?, keys']

theorem Agrees.act (agrees : st.Agrees a names st') (now : Instant)
    (about : action.about? = some a) :
    (st'.act now action).1.unnumbered = (st.act now action).1.unnumbered ∧
      ∃ names, (st.act now action).2.Agrees a names (st'.act now action).2 := by
  cases action with
  | guard action =>
      obtain ⟨answer, after⟩ := agrees.guard.act now about
      exact ⟨congrArg StoreAnswer.guard answer, names, after, agrees.registry, agrees.keys,
        agrees.keys'⟩
  | register y =>
      cases about
      exact agrees.register now
  | use c use =>
      obtain ⟨address, n⟩ := c
      cases about
      simp only [Stores.act]
      obtain ⟨unknown, unknown'⟩ | ⟨id, id', pair, known, known'⟩ := agrees.key?_cases n
      · rw [unknown, unknown']
        exact ⟨rfl, names, agrees⟩
      · rw [known, known']
        obtain ⟨answer, after⟩ := Agrees.use agrees.registry pair now use
        exact ⟨congrArg (StoreAnswer.unnumbered ∘ StoreAnswer.registry) answer, names,
          agrees.guard, after, agrees.keys, agrees.keys'⟩
  | record c =>
      obtain ⟨address, n⟩ := c
      cases about
      simp only [Stores.act]
      obtain ⟨unknown, unknown'⟩ | ⟨id, id', pair, known, known'⟩ := agrees.key?_cases n
      · rw [unknown, unknown']
        exact ⟨rfl, names, agrees⟩
      · rw [known, known']
        exact ⟨congrArg StoreAnswer.record (agrees.registry.unnumbered_record? pair), names,
          agrees⟩
  | registrations y =>
      cases about
      exact ⟨congrArg StoreAnswer.count agrees.registry.registrations_eq, names, agrees⟩
  | active y =>
      cases about
      exact ⟨congrArg StoreAnswer.count agrees.registry.activeFor_eq, names, agrees⟩
  | purgeStale => cases about

theorem Agrees.sweep (agrees : st.Agrees a names st') (now : Instant)
    (sweep : action.about? = none) :
    (st.act now action).2.Agrees a names (st'.act now action).2 := by
  cases action with
  | guard action =>
      exact ⟨agrees.guard.sweep now sweep, agrees.registry, agrees.keys, agrees.keys'⟩
  | purgeStale => exact ⟨agrees.guard, agrees.registry.purge now, agrees.keys, agrees.keys'⟩
  | register | use | record | registrations | active => cases sweep

theorem Agrees.run (agrees : st.Agrees a names st') (steps : List (Instant × StoreAction)) :
    answersAbout a (st.run steps) =
      answersAbout a (st'.run (steps.filter fun step => step.2.concerns a)) := by
  induction steps generalizing st st' names with
  | nil => rfl
  | cons step rest ih =>
      obtain ⟨now, action⟩ := step
      cases about : action.about? with
      | none =>
          rw [List.filter_cons_of_pos (by simp [StoreAction.concerns, about])]
          simpa [Stores.run, answersAbout, about] using ih (agrees.sweep now about)
      | some x =>
          by_cases own : x = a
          · subst own
            obtain ⟨answer, names, after⟩ := agrees.act now about
            rw [List.filter_cons_of_pos (by simp [StoreAction.concerns, about])]
            simpa [Stores.run, answersAbout, about, answer] using ih after
          · rw [List.filter_cons_of_neg (by simp [StoreAction.concerns, about, own])]
            simpa [Stores.run, answersAbout, about, own] using
              ih (agrees.elsewhere now about own)

/-- Whatever is done about other addresses, and whenever: what is answered about an address is
what would be answered if none of it had been done. -/
theorem answers_local (s : Settings) (steps : List (Instant × StoreAction)) (a : Address) :
    answersAbout a ((ofSettings s).run steps) =
      answersAbout a ((ofSettings s).run (steps.filter fun step => step.2.concerns a)) :=
  (Agrees.ofSettings a s).run steps

end Stores

end AdmissionGate
