import AdmissionGate.Audit.Sink

/-!
What a sink holds of the events that it was given, one after the other, while nobody reads from
it. A memory keeps all of them; a queue takes the first ones, as many as there is room for, and
counts the others as dropped.
-/

namespace AdmissionGate

namespace EventQueue

variable {q : EventQueue}

def room (q : EventQueue) : Nat := if q.closed then 0 else q.capacity - q.waiting.length

theorem accepts_iff_room : q.accepts = true ↔ 0 < q.room := by
  cases closed : q.closed with
  | true => simp [accepts, room, closed]
  | false =>
      simp only [accepts, room, closed, Bool.not_false, Bool.true_and, decide_eq_true_eq,
        Bool.false_eq_true, if_false]
      exact Nat.sub_pos_iff_lt.symm

theorem foldl_offer (q : EventQueue) (events : List AuditEvent) :
    events.foldl offer q =
      { q with
        waiting := q.waiting ++ events.take q.room
        dropped := q.dropped + (events.length - q.room) } := by
  induction events generalizing q with
  | nil => simp
  | cons e rest ih =>
      rw [List.foldl_cons, ih]
      cases takes : q.accepts with
      | true =>
          have some_room := accepts_iff_room.mp takes
          have less : (q.offer e).room = q.room - 1 := by
            simp only [offer, takes, if_true, room, List.length_append, List.length_singleton]
            split
            · rfl
            · omega
          have first : (e :: rest).take q.room = e :: rest.take (q.room - 1) := by
            rw [← Nat.sub_add_cancel some_room, List.take_succ_cons, Nat.add_sub_cancel]
          rw [less, first]
          simp only [offer, takes, if_true, List.append_assoc, List.singleton_append,
            List.length_cons, mk.injEq, true_and, and_true]
          omega
      | false =>
          have no_room : q.room = 0 := by
            apply Nat.eq_zero_of_not_pos
            rw [← accepts_iff_room, takes]
            exact Bool.false_ne_true
          have same : (q.offer e).room = 0 := by
            simpa only [offer, takes, Bool.false_eq_true, if_false, room] using no_room
          rw [same, no_room]
          simp only [offer, takes, Bool.false_eq_true, if_false, List.take_zero, List.length_cons,
            mk.injEq, true_and, and_true]
          omega

end EventQueue

namespace AuditSink

/-- The sink `s'` is what has become of `s` after these events. -/
structure Holds (s : AuditSink) (events : List AuditEvent) (s' : AuditSink) : Prop where
  memory : ∀ before, s = memory before → s' = memory s'.kept ∧ s'.kept = before ++ events
  queue : ∀ q, s = queue q → ∃ q', s' = queue q' ∧
    q'.waiting = q.waiting ++ events.take q.room ∧
    q'.dropped = q.dropped + (events.length - q.room) ∧
    q'.capacity = q.capacity ∧ q'.closed = q.closed

theorem foldl_memory (before events : List AuditEvent) :
    events.foldl record (.memory before) = .memory (before ++ events) := by
  induction events generalizing before with
  | nil => rw [List.foldl_nil, List.append_nil]
  | cons e rest ih =>
      rw [List.foldl_cons, record, ih, List.append_assoc, List.singleton_append]

theorem foldl_queue (q : EventQueue) (events : List AuditEvent) :
    events.foldl record (.queue q) = .queue (events.foldl EventQueue.offer q) := by
  induction events generalizing q with
  | nil => rfl
  | cons e rest ih => exact ih (q.offer e)

theorem foldl_journal (events : List AuditEvent) : events.foldl record .journal = .journal := by
  induction events with
  | nil => rfl
  | cons e rest ih => exact ih

theorem holds_foldl (s : AuditSink) (events : List AuditEvent) :
    s.Holds events (events.foldl record s) where
  memory := by
    rintro before rfl
    rw [foldl_memory]
    exact ⟨rfl, rfl⟩
  queue := by
    rintro q rfl
    rw [foldl_queue, EventQueue.foldl_offer]
    exact ⟨_, rfl, rfl, rfl, rfl, rfl⟩

/-- A queue with room for two, of which one is taken, gets three events. -/
example (a b c d : AuditEvent) :
    [b, c, d].foldl record (.queue { capacity := 2, waiting := [a] }) =
      .queue { capacity := 2, waiting := [a, b], dropped := 2 } :=
  rfl

end AuditSink

end AdmissionGate
