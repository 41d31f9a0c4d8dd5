import AdmissionGate.Proofs.Registry.Turnover
import Mathlib.Data.List.Destutter

/-!
The states that a record goes through. Whatever is asked of a registry, and by whom, a record
starts as `registered`, moves on by one stage at a time or to `rejected`, and stays as it is in
the last state of its way. A key is given out once, so when its record is gone it has no states
any more.
-/

namespace AdmissionGate

namespace ConnectionState

def onward : ConnectionState → List ConnectionState
  | new => [new, registered, handshakeValidated, classified, admitted]
  | registered => [registered, handshakeValidated, classified, admitted]
  | handshakeValidated => [handshakeValidated, classified, admitted]
  | classified => [classified, admitted]
  | admitted => [admitted]
  | rejected => [rejected]

variable {s t : ConnectionState} {l : List ConnectionState}

theorem onward_of_next? (next : s.next? = some t) : s.onward = s :: t.onward := by
  cases s <;> cases next <;> rfl

theorem prefix_onward (s : ConnectionState) : [s] <+: s.onward := by
  cases s <;> exact List.prefix_append [_] _

theorem next?_or_rejected (may : s.canMoveTo t = true) :
    s.next? = some t ∨ s.isTerminal = false ∧ t = rejected := by
  simpa [canMoveTo] using may

/-- Nothing follows on the last state of a way. -/
theorem not_canMoveTo (terminal : s.isTerminal = true) (t : ConnectionState) :
    ¬s.canMoveTo t = true := by
  cases s <;> cases t <;> simp_all [isTerminal, canMoveTo, next?]

/-- A state follows on another if it is the same or one that may be moved to. -/
def Follows (s t : ConnectionState) : Prop := s = t ∨ s.canMoveTo t = true

theorem Follows.of_terminal (follows : s.Follows t) (terminal : s.isTerminal = true) : t = s :=
  follows.elim Eq.symm fun may => absurd may (not_canMoveTo terminal t)

/-- States that follow on one another, each told once. -/
theorem isChain_destutter' (chain : (s :: l).IsChain Follows) :
    ∃ rest, l.destutter' (· ≠ ·) s = s :: rest ∧
      (s :: rest).IsChain fun s t => s.canMoveTo t = true := by
  induction l generalizing s with
  | nil => exact ⟨[], rfl, .singleton s⟩
  | cons t l ih =>
      obtain ⟨follows, chain⟩ := List.isChain_cons_cons.mp chain
      obtain ⟨rest, told, moves⟩ := ih chain
      by_cases same : s = t
      · subst same
        exact ⟨rest, (List.destutter'_cons_neg l (not_not_intro rfl)).trans told, moves⟩
      · refine ⟨t :: rest, ?_, List.isChain_cons_cons.mpr ⟨follows.resolve_left same, moves⟩⟩
        rw [List.destutter'_cons_pos l same, told]

/-- Moves make up a part of the way to admission, or one that stops before the end of it and is
followed by a rejection. -/
theorem onward_of_isChain (moves : (s :: l).IsChain fun s t => s.canMoveTo t = true) :
    s :: l <+: s.onward ∨
      ∃ part, part ≠ [] ∧ part <+: s.onward ∧ admitted ∉ part ∧ s :: l = part ++ [rejected] := by
  induction l generalizing s with
  | nil => exact .inl s.prefix_onward
  | cons t l ih =>
      obtain ⟨may, moves⟩ := List.isChain_cons_cons.mp moves
      rcases next?_or_rejected may with next | ⟨open_, rfl⟩
      · have before : s ≠ admitted := by
          rintro rfl
          cases next
        rw [onward_of_next? next]
        rcases ih moves with part | ⟨part, -, onward, short, told⟩
        · exact .inl (List.cons_prefix_cons.mpr ⟨rfl, part⟩)
        · exact .inr ⟨s :: part, List.cons_ne_nil _ _, List.cons_prefix_cons.mpr ⟨rfl, onward⟩,
            List.not_mem_cons_of_ne_of_not_mem before.symm short, congrArg (s :: ·) told⟩
      · have last : l = [] := by
          cases l with
          | nil => rfl
          | cons u l => exact absurd (List.isChain_cons_cons.mp moves).1 (not_canMoveTo rfl u)
        subst last
        refine .inr ⟨[s], List.cons_ne_nil _ _, s.prefix_onward, ?_, rfl⟩
        intro last
        cases List.mem_singleton.mp last
        cases open_

/-- A state that a way ends in stays. -/
theorem pairwise_of_isChain (chain : l.IsChain Follows) :
    l.Pairwise fun s t => s.isTerminal = true → t = s := by
  have stays {s : ConnectionState} {l : List ConnectionState} (chain : (s :: l).IsChain Follows)
      (terminal : s.isTerminal = true) : ∀ t ∈ l, t = s := by
    induction l with
    | nil => exact fun _ member => nomatch member
    | cons t l ih =>
        obtain ⟨follows, later⟩ := List.isChain_cons_cons.mp chain
        cases follows.of_terminal terminal
        exact List.forall_mem_cons.mpr ⟨rfl, ih later⟩
  induction l with
  | nil => exact .nil
  | cons s l ih =>
      exact .cons (fun t member terminal => stays chain terminal t member) (ih chain.tail)

end ConnectionState

namespace Registry

variable {r r' : Registry} {k : ConnectionKey} {s : ConnectionState}

def state? (r : Registry) (k : ConnectionKey) : Option ConnectionState :=
  (r.record? k).map (·.state)

theorem state?_of_record? (same : r'.record? k = r.record? k) : r'.state? k = r.state? k :=
  congrArg _ same

theorem isLive_eq_isSome (r : Registry) (k : ConnectionKey) : r.isLive k = (r.state? k).isSome :=
  Option.isSome_map.symm

theorem isLive_of_state? (found : r.state? k = some s) : r.isLive k = true := by
  rw [isLive_eq_isSome, found]
  rfl

theorem canMove_iff {t : ConnectionState} :
    r.canMove k t = true ↔ ∃ s, r.state? k = some s ∧ s.canMoveTo t = true := by
  cases found : r.record? k <;> simp [canMove, state?, found]

theorem canMove_of_state? (same : r'.state? k = r.state? k) (t : ConnectionState) :
    r'.canMove k t = r.canMove k t := by
  rw [Bool.eq_iff_iff, canMove_iff, canMove_iff, same]

/-- A live connection bears a number that was given out. -/
theorem Numbered.issued_of_isLive (numbered : r.Numbered) (live : r.isLive k = true) :
    k.id < r.nextId := by
  by_contra fresh
  rw [isLive, numbered.record?_eq_none (Nat.not_lt.mp fresh)] at live
  contradiction

theorem state?_update (r : Registry) (k other : ConnectionKey) (bytes : Nat) (now : Instant) :
    (r.update k bytes now).state? other = r.state? other := by
  rw [state?, record?_update]
  split
  · exact Option.map_map ..
  · rfl

theorem state?_setReputation (r : Registry) (k other : ConnectionKey) (score : Float) :
    (r.setReputation k score).state? other = r.state? other := by
  rw [state?, record?_setReputation]
  split
  · exact Option.map_map ..
  · rfl

theorem state?_setState (r : Registry) (k other : ConnectionKey) (t : ConnectionState) :
    (r.setState k t).state? other =
      if other = k ∧ r.canMove k t then some t else r.state? other := by
  rw [state?, record?_setState]
  split
  · rename_i may
    obtain ⟨rfl, may⟩ := may
    obtain ⟨s, found, -⟩ := canMove_iff.mp may
    obtain ⟨record, found, -⟩ := Option.map_eq_some_iff.mp found
    rw [found]
    rfl
  · rfl

theorem state?_release (r : Registry) (k other : ConnectionKey) (now : Instant) :
    (r.release k now).state? other = if other = k then none else r.state? other := by
  rw [state?, record?_release]
  split <;> rfl

theorem state?_purge (r : Registry) (now : Instant) (k : ConnectionKey) :
    (r.purge now).state? k = r.state? k :=
  state?_of_record? (r.record?_purge now k)

theorem Numbered.state?_register (numbered : r.Numbered) {b landed : Blocklist} {a : Address}
    {now : Instant} {key : ConnectionKey} (ok : r.register b landed a now = (.ok key, r'))
    (k : ConnectionKey) : r'.state? k = if k = key then some .registered else r.state? k := by
  rw [state?, numbered.record?_register ok]
  split <;> rfl

inductive Shifts (r : Registry) (k : ConnectionKey) (r' : Registry) : Prop
  | same (after : r'.state? k = r.state? k)
  | moved {s t : ConnectionState} (before : r.state? k = some s) (may : s.canMoveTo t = true)
      (after : r'.state? k = some t)
  | gone (after : r'.state? k = none)
  /-- The key is given out. -/
  | made (fresh : k.id = r.nextId) (after : r'.state? k = some .registered)

theorem Numbered.act_shifts (numbered : r.Numbered) (k : ConnectionKey) (now : Instant)
    (action : RegistryAction) : r.Shifts k (r.act now action).2 := by
  cases action with
  | register a b landed =>
      rcases answer : r.register b landed a now with ⟨result, r'⟩
      simp only [act, answer]
      cases result with
      | error e => exact .same (state?_of_record? (record?_register_of_error answer k))
      | ok key =>
          have after := numbered.state?_register answer k
          by_cases own : k = key
          · obtain ⟨rfl, -⟩ := register_ok answer
            exact .made (congrArg _ own) (after.trans (if_pos own))
          · exact .same (after.trans (if_neg own))
  | drop other | release other =>
      have after := r.state?_release other k now
      by_cases own : k = other
      · exact .gone (after.trans (if_pos own))
      · exact .same (after.trans (if_neg own))
  | update other bytes => exact .same (r.state?_update other k bytes now)
  | move other t =>
      have after := r.state?_setState other k t
      by_cases own : k = other ∧ r.canMove other t = true
      · obtain ⟨rfl, may⟩ := own
        obtain ⟨s, before, may⟩ := canMove_iff.mp may
        exact .moved before may (after.trans (if_pos ⟨rfl, canMove_iff.mpr ⟨s, before, may⟩⟩))
      · exact .same (after.trans (if_neg own))
  | rate other score => exact .same (r.state?_setReputation other k score)
  | purge => exact .same (r.state?_purge now k)

/-- The states of the record of a connection, after one action and the other, while there is
one. -/
def states (r : Registry) (k : ConnectionKey) : List (Instant × RegistryAction) →
    List ConnectionState
  | [] => []
  | (now, action) :: rest =>
      ((r.act now action).2.state? k).toList ++ (r.act now action).2.states k rest

/-- A record that is gone does not come back. -/
theorem Balanced.states_of_gone (balanced : r.Balanced) (issued : k.id < r.nextId)
    (gone : r.state? k = none) (steps : List (Instant × RegistryAction)) :
    r.states k steps = [] := by
  induction steps generalizing r with
  | nil => rfl
  | cons step rest ih =>
      obtain ⟨now, action⟩ := step
      have supply := (nextId_act r now action).1
      have later : (r.act now action).2.state? k = none := by
        cases balanced.numbered.act_shifts k now action with
        | same after => exact after.trans gone
        | moved before => cases gone.symm.trans before
        | gone after => exact after
        | made fresh => omega
      rw [states, later, ih (balanced.act now action) (by omega) later]
      rfl

theorem Balanced.isChain_states (balanced : r.Balanced) (found : r.state? k = some s)
    (steps : List (Instant × RegistryAction)) :
    (s :: r.states k steps).IsChain ConnectionState.Follows := by
  induction steps generalizing r s with
  | nil => exact .singleton s
  | cons step rest ih =>
      obtain ⟨now, action⟩ := step
      have issued := balanced.numbered.issued_of_isLive (isLive_of_state? found)
      have supply := (nextId_act r now action).1
      have on {t : ConnectionState} (follows : s.Follows t)
          (after : (r.act now action).2.state? k = some t) :
          (s :: r.states k ((now, action) :: rest)).IsChain ConnectionState.Follows := by
        rw [states, after]
        exact List.isChain_cons_cons.mpr ⟨follows, ih (balanced.act now action) after⟩
      cases balanced.numbered.act_shifts k now action with
      | same after => exact on (.inl rfl) (after.trans found)
      | moved before may after =>
          cases found.symm.trans before
          exact on (.inr may) after
      | made fresh => omega
      | gone after =>
          rw [states, after, (balanced.act now action).states_of_gone (by omega) after]
          exact .singleton s

/-- The states of a record that is still to be made. -/
theorem Balanced.states_of_none (balanced : r.Balanced) (none : r.state? k = none)
    (steps : List (Instant × RegistryAction)) :
    r.states k steps = [] ∨
      ∃ rest, r.states k steps = .registered :: rest ∧
        (.registered :: rest : List ConnectionState).IsChain ConnectionState.Follows := by
  induction steps generalizing r with
  | nil => exact .inl rfl
  | cons step rest ih =>
      obtain ⟨now, action⟩ := step
      have later := balanced.act now action
      have still (after : (r.act now action).2.state? k = Option.none) :
          r.states k ((now, action) :: rest) = (r.act now action).2.states k rest := by
        rw [states, after]
        rfl
      cases balanced.numbered.act_shifts k now action with
      | same after =>
          rw [still (after.trans none)]
          exact ih later (after.trans none)
      | moved before => cases none.symm.trans before
      | gone after =>
          rw [still after]
          exact ih later after
      | made _ after =>
          refine .inr ⟨_, ?_, later.isChain_states after rest⟩
          rw [states, after]
          rfl

/-- How the states of a record follow on one another: each told once, they are a part of the way
to admission, or one that stops before the end of it and is followed by a rejection. -/
structure Progression (states : List ConnectionState) : Prop where
  told :
    states.destutter (· ≠ ·) <+: [.registered, .handshakeValidated, .classified, .admitted] ∨
      ∃ part, part ≠ [] ∧ part <+: [.registered, .handshakeValidated, .classified, .admitted] ∧
        .admitted ∉ part ∧ states.destutter (· ≠ ·) = part ++ [.rejected]
  stays : states.Pairwise fun s t => s.isTerminal = true → t = s

theorem progression (s : RegistrySettings) (k : ConnectionKey)
    (steps : List (Instant × RegistryAction)) : Progression ((ofSettings s).states k steps) := by
  have fresh : (ofSettings s).state? k = none := rfl
  rcases (Balanced.ofSettings s).states_of_none fresh steps with nothing | ⟨rest, told, chain⟩
  · rw [nothing]
    exact ⟨.inl List.nil_prefix, .nil⟩
  · rw [told]
    refine ⟨?_, ConnectionState.pairwise_of_isChain chain⟩
    obtain ⟨rest, once, moves⟩ := ConnectionState.isChain_destutter' chain
    rw [List.destutter_cons', once]
    exact ConnectionState.onward_of_isChain moves

/-- Of five moves two are made: the first would skip a stage, the fourth comes after the rejection,
and for the last there is no record any more. -/
example :
    let k : ConnectionKey := ⟨.v4 #v[192, 0, 2, 1], 1⟩
    let steps : List (Instant × RegistryAction) :=
      [(0, .register k.address (.ofSettings {})), (1, .move k .admitted),
        (2, .move k .handshakeValidated), (3, .purge), (4, .move k .rejected),
        (5, .move k .classified), (6, .drop k), (7, .move k .handshakeValidated)]
    ((ofSettings {}).states k steps).destutter (· ≠ ·) =
      [.registered, .handshakeValidated, .rejected] := by
  decide +kernel

end Registry

end AdmissionGate
