import AdmissionGate.Audit.Sink

/-!
Audit events between the gate and a reader. Whatever the order in which events are offered and
taken and the queue is closed, an event that was offered is with the reader, is still waiting, or
was counted as dropped, and those that were not dropped keep their order.
-/

namespace AdmissionGate

inductive QueueStep where
  | offer (e : AuditEvent)
  /-- The reader takes the event that has waited longest, if one waits. -/
  | receive
  | close
deriving DecidableEq

def QueueStep.offers (steps : List QueueStep) : List AuditEvent :=
  steps.filterMap fun
    | offer e => some e
    | receive | close => none

structure Exchange where
  queue : EventQueue
  /-- Events that were offered and not counted as dropped. -/
  accepted : List AuditEvent := []
  received : List AuditEvent := []

namespace Exchange

open QueueStep

variable {x : Exchange} {offered : List AuditEvent} {capacity : Nat}

def step (x : Exchange) : QueueStep → Exchange
  | offer e =>
      { x with
        queue := x.queue.offer e
        accepted :=
          if (x.queue.offer e).dropped = x.queue.dropped then x.accepted ++ [e] else x.accepted }
  | receive => { x with queue := x.queue.take.2, received := x.received ++ x.queue.take.1.toList }
  | close => { x with queue := x.queue.close }

def after (x : Exchange) (steps : List QueueStep) : Exchange := steps.foldl step x

/-- A queue that takes an event puts it behind those that wait, and drops none. -/
theorem step_offer_of_accepts (takes : x.queue.accepts = true) (e : AuditEvent) :
    x.step (offer e) =
      { x with
        queue := { x.queue with waiting := x.queue.waiting ++ [e] }
        accepted := x.accepted ++ [e] } := by
  simp only [step, EventQueue.offer, takes, if_true]

/-- A queue that does not take an event counts it, and stays as it is. -/
theorem step_offer_of_not_accepts (full : x.queue.accepts = false) (e : AuditEvent) :
    x.step (offer e) = { x with queue := { x.queue with dropped := x.queue.dropped + 1 } } := by
  simp only [step, EventQueue.offer, full, Bool.false_eq_true, if_false, Nat.succ_ne_self]

/-- The events offered so far are all accounted for. -/
structure Accounts (x : Exchange) (capacity : Nat) (offered : List AuditEvent) : Prop where
  order : x.received ++ x.queue.waiting = x.accepted
  kept : x.accepted.Sublist offered
  count : offered.length = x.accepted.length + x.queue.dropped
  room : x.queue.waiting.length ≤ x.queue.capacity
  capacity : x.queue.capacity = capacity

theorem Accounts.step (accounts : x.Accounts capacity offered) (s : QueueStep) :
    (x.step s).Accounts capacity (offered ++ offers [s]) := by
  obtain ⟨order, kept, count, room, same⟩ := accounts
  cases s with
  | offer e =>
      cases takes : x.queue.accepts with
      | true =>
          rw [step_offer_of_accepts takes]
          have free : x.queue.waiting.length < x.queue.capacity := by
            rw [EventQueue.accepts, Bool.and_eq_true, decide_eq_true_eq] at takes
            exact takes.2
          refine ⟨?_, kept.append (.refl [e]), ?_, ?_, same⟩
          · rw [← order, List.append_assoc]
          · simp only [offers, List.filterMap_cons, List.filterMap_nil, List.length_append, count]
            omega
          · rw [List.length_append]
            exact free
      | false =>
          rw [step_offer_of_not_accepts takes]
          refine ⟨order, kept.trans (List.sublist_append_left ..), ?_, room, same⟩
          simp only [offers, List.filterMap_cons, List.filterMap_nil, List.length_append, count]
          exact Nat.add_assoc ..
  | receive =>
      rw [show offers [receive] = [] from rfl, List.append_nil]
      cases waiting : x.queue.waiting with
      | nil =>
          simp only [Exchange.step, EventQueue.take, waiting, Option.toList_none, List.append_nil]
          exact ⟨order, kept, count, room, same⟩
      | cons e rest =>
          simp only [Exchange.step, EventQueue.take, waiting, Option.toList_some]
          rw [waiting] at order room
          refine ⟨?_, kept, count, Nat.le_of_succ_le room, same⟩
          rw [List.append_assoc]
          exact order
  | close =>
      rw [show offers [close] = [] from rfl, List.append_nil]
      exact ⟨order, kept, count, room, same⟩

theorem Accounts.after (accounts : x.Accounts capacity offered) (steps : List QueueStep) :
    (x.after steps).Accounts capacity (offered ++ offers steps) := by
  induction steps generalizing x offered with
  | nil => simpa [Exchange.after, offers] using accounts
  | cons s rest ih =>
      have whole := ih (accounts.step s)
      rw [List.append_assoc, offers, offers, ← List.filterMap_append] at whole
      exact whole

/-- A queue is closed once it was closed, and nothing opens it again. -/
theorem closed_after (x : Exchange) (steps : List QueueStep) :
    (x.after steps).queue.closed = (x.queue.closed || decide (close ∈ steps)) := by
  induction steps generalizing x with
  | nil => simp [after]
  | cons s rest ih =>
      have step : (x.step s).queue.closed = (x.queue.closed || decide (s = close)) := by
        cases s with
        | offer e => cases takes : x.queue.accepts <;> simp [Exchange.step, EventQueue.offer, takes]
        | receive =>
            cases waiting : x.queue.waiting <;> simp [Exchange.step, EventQueue.take, waiting]
        | close => simp [Exchange.step, EventQueue.close]
      rw [after, List.foldl_cons, ← after, ih, step, Bool.or_assoc, ← Bool.decide_or]
      simp only [List.mem_cons, eq_comm]

/-- An event is refused by a queue that is full or closed, and by no other. -/
theorem Accounts.accepts_eq_false_iff (accounts : x.Accounts capacity offered) :
    x.queue.accepts = false ↔ x.queue.closed = true ∨ x.queue.waiting.length = capacity := by
  have room := accounts.room
  rw [accounts.capacity] at room
  have full : ¬x.queue.waiting.length < capacity ↔ x.queue.waiting.length = capacity := by omega
  rw [EventQueue.accepts, accounts.capacity, Bool.and_eq_false_iff, Bool.not_eq_false',
    decide_eq_false_iff_not, full]

/-- What an exchange begins with: room for one event at least, and nothing in it. -/
theorem accounts_ofCapacity? {q : EventQueue} (made : EventQueue.ofCapacity? capacity = some q) :
    Accounts { queue := q } (max capacity 1) [] ∧ q.closed = false := by
  unfold EventQueue.ofCapacity? at made
  split at made
  · cases made
    exact ⟨⟨rfl, .refl _, rfl, Nat.zero_le _, rfl⟩, rfl⟩
  · contradiction

/-- Events reach the reader in the order in which they were offered, those apart that were
dropped; every event offered was received, waits, or was counted as dropped; no more wait than
there is room for; and an event is dropped just when no room was left or the queue was closed. -/
theorem nothing_lost_uncounted {q : EventQueue} (made : EventQueue.ofCapacity? capacity = some q)
    (steps : List QueueStep) :
    let x := Exchange.after { queue := q } steps
    x.received ++ x.queue.waiting = x.accepted ∧
    x.accepted.Sublist (offers steps) ∧
    (offers steps).length = x.received.length + x.queue.waiting.length + x.queue.dropped ∧
    x.queue.waiting.length ≤ max capacity 1 ∧
    ∀ e, x.step (offer e) =
      if x.queue.waiting.length = max capacity 1 ∨ close ∈ steps then
        { x with queue := { x.queue with dropped := x.queue.dropped + 1 } }
      else
        { x with
          queue := { x.queue with waiting := x.queue.waiting ++ [e] }
          accepted := x.accepted ++ [e] } := by
  obtain ⟨start, opened⟩ := accounts_ofCapacity? made
  have accounts := start.after steps
  rw [List.nil_append] at accounts
  refine ⟨accounts.order, accounts.kept, ?_, accounts.capacity ▸ accounts.room, fun e => ?_⟩
  · rw [accounts.count, ← accounts.order, List.length_append]
  · have refused := accounts.accepts_eq_false_iff
    rw [closed_after, opened, Bool.false_or, decide_eq_true_eq, or_comm] at refused
    split
    · rename_i shut
      exact step_offer_of_not_accepts (refused.mpr shut) e
    · rename_i free
      rw [← refused, Bool.not_eq_false] at free
      exact step_offer_of_accepts free e

end Exchange

namespace Sample

def refusal (id : Nat) : AuditEvent where
  kind := .rejected
  address := .v4 #v[198, 51, 100, 3]
  connectionId := some id
  reason := .malformedHandshake
  state := .registered

/-- The queue was asked for without room, and is closed while an event waits. -/
theorem refusals_accounted :
    let steps := [.offer (refusal 1), .offer (refusal 2), .close, .receive, .offer (refusal 3)]
    let x := Exchange.after { queue := { capacity := 1 } } steps
    EventQueue.ofCapacity? 0 = some { capacity := 1 } ∧
    x.received = [refusal 1] ∧ x.queue.waiting = [] ∧ x.queue.dropped = 2 ∧
    (QueueStep.offers steps).length =
      x.received.length + x.queue.waiting.length + x.queue.dropped := by
  have made : EventQueue.ofCapacity? 0 = some { capacity := 1 } := rfl
  exact ⟨made, rfl, rfl, rfl, (Exchange.nothing_lost_uncounted made _).2.2.1⟩

end Sample

end AdmissionGate
