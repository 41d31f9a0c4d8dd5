import AdmissionGate.Proxy.Handover
import AdmissionGate.Proofs.Registry.Turnover

/-!
The ways a session can go on, one case each, and what has happened to an accepted connection so
far: its own events in their order, with what was done about other connections in between.
-/

namespace AdmissionGate

namespace Session

variable {s s' : Session} {r r' : Registry} {now : Instant} {d : Direction} {e : SessionEvent}
  {f : Flow}

@[simp]
theorem flow_setFlow (s : Session) (d side : Direction) (f : Flow) :
    (s.setFlow d f).flow side = if side = d then f else s.flow side := by
  cases d <;> cases side <;> rfl

@[simp]
theorem phase_setFlow (s : Session) (d : Direction) (f : Flow) :
    (s.setFlow d f).phase = s.phase := by
  cases d <;> rfl

@[simp]
theorem key_setFlow (s : Session) (d : Direction) (f : Flow) : (s.setFlow d f).key = s.key := by
  cases d <;> rfl

/-- What becomes of the phase and the timer does not touch the flows. -/
@[simp]
theorem flow_frame (s : Session) (ends : Instant) (p : SessionPhase) (d : Direction) :
    flow { s with idleEnds := ends, phase := p } d = s.flow d := by
  cases d <;> rfl

@[simp]
theorem flow_finish (s : Session) (d : Direction) : s.finish.flow d = (s.flow d).finish := by
  cases d <;> rfl

theorem anyOpen_eq_false_iff (s : Session) :
    (s.up.isOpen || s.down.isOpen) = false ↔ ∀ d, (s.flow d).isOpen = false := by
  rw [Bool.or_eq_false_iff]
  constructor
  · rintro ⟨up, down⟩ d
    cases d with
    | up => exact up
    | down => exact down
  · exact fun closed => ⟨closed .up, closed .down⟩

/-- When both sides have ended, both were told so already. -/
@[simp]
theorem flow_loop (s : Session) (d : Direction) : s.loop.flow d = s.flow d := by
  rw [loop]
  split
  · exact s.flow_frame ..
  · rename_i closed
    rw [Bool.not_eq_true, anyOpen_eq_false_iff] at closed
    rw [flow_finish, Flow.finish, closed d, if_neg Bool.false_ne_true]

@[simp]
theorem key_loop (s : Session) : s.loop.key = s.key := by
  rw [loop]
  split <;> rfl

/-- A session goes on as long as there is something to read. -/
theorem phase_loop (s : Session) :
    s.loop.phase = .ready ∧ (∃ d, (s.flow d).isOpen = true) ∨
      s.loop.phase = .over false ∧ ∀ d, (s.flow d).isOpen = false := by
  rw [loop, ← anyOpen_eq_false_iff]
  cases some_open : (s.up.isOpen || s.down.isOpen) with
  | true =>
      refine .inl ⟨rfl, ?_⟩
      rcases Bool.or_eq_true_iff.mp some_open with up | down
      · exact ⟨.up, up⟩
      · exact ⟨.down, down⟩
  | false => exact .inr ⟨rfl, rfl⟩

@[simp]
theorem flow_completed (s : Session) (d side : Direction) (size : Nat) (now : Instant) :
    (s.completed d size now).flow side =
      if side = d then { s.flow d with moved := (s.flow d).moved + size } else s.flow side := by
  rw [completed, flow_frame, flow_setFlow]

@[simp]
theorem key_completed (s : Session) (d : Direction) (size : Nat) (now : Instant) :
    (s.completed d size now).key = s.key :=
  s.key_setFlow ..

inductive Step (now : Instant) (s : Session) (r : Registry) :
    SessionEvent → Session → Registry → Prop
  | chunk {d : Direction} {bytes : List UInt8} (ready : s.phase = .ready)
      (reads : (s.flow d).isOpen = true) (some_byte : bytes ≠ []) :
      Step now s r (.read d bytes)
        { s.setFlow d { s.flow d with pending := bytes } with phase := .writing d bytes.length } r
  | ended {d : Direction} (ready : s.phase = .ready) (reads : (s.flow d).isOpen = true) :
      Step now s r (.read d []) (s.setFlow d (s.flow d).close).loop r
  | broken {d : Direction} (ready : s.phase = .ready) (reads : (s.flow d).isOpen = true) :
      Step now s r (.readFails d) { s with phase := .over true } r
  | stopped (ready : s.phase = .ready) : Step now s r .stop s.finish r
  | expired (ready : s.phase = .ready) (due : s.idleEnds ≤ now) : Step now s r .idle s.finish r
  | part {d : Direction} {size count : Nat} (busy : s.phase = .writing d size)
      (some_byte : 0 < count) (rest : count < (s.flow d).pending.length) :
      Step now s r (.takes d count) (s.setFlow d ((s.flow d).write count)) r
  | whole {d : Direction} {size : Nat} (busy : s.phase = .writing d size)
      (some_byte : (s.flow d).pending ≠ []) :
      Step now s r (.takes d (s.flow d).pending.length)
        ((s.setFlow d ((s.flow d).write (s.flow d).pending.length)).completed d size now)
        ((s.setFlow d ((s.flow d).write (s.flow d).pending.length)).credit r d size now)
  | refused {d : Direction} {size : Nat} (busy : s.phase = .writing d size) :
      Step now s r (.writeFails d) { s with phase := .over true } r

theorem step_of_step? (went : s.step? now r e = some (s', r')) : s.Step now r e s' r' := by
  simp only [step?] at went
  split at went
  · rename_i d bytes ready
    split at went
    · cases went
    rename_i reads
    simp only [Bool.not_eq_true', Bool.not_eq_false] at reads
    split at went
    · rename_i none
      subst none
      cases went
      exact .ended ready reads
    · rename_i some_byte
      cases went
      exact .chunk ready reads some_byte
  · rename_i d ready
    split at went
    · rename_i reads
      cases went
      exact .broken ready reads
    · cases went
  · rename_i ready
    cases went
    exact .stopped ready
  · rename_i ready
    split at went
    · rename_i due
      cases went
      exact .expired ready due
    · cases went
  · rename_i d size side count busy
    split at went
    · cases went
    rename_i possible
    simp only [not_or, Decidable.not_not, Nat.not_lt] at possible
    obtain ⟨rfl, some_byte, within⟩ := possible
    split at went
    · rename_i all
      subst all
      cases went
      exact .whole busy (List.ne_nil_of_length_pos (Nat.pos_of_ne_zero some_byte))
    · rename_i rest
      cases went
      exact .part busy (Nat.pos_of_ne_zero some_byte) (Nat.lt_of_le_of_ne within rest)
  · rename_i d size side busy
    split at went
    · rename_i same
      subst same
      cases went
      exact .refused busy
    · cases went
  · cases went

theorem step?_of_step (step : s.Step now r e s' r') : s.step? now r e = some (s', r') := by
  cases step with
  | chunk ready reads some_byte => simp [step?, ready, reads, some_byte]
  | ended ready reads | broken ready reads => simp [step?, ready, reads]
  | stopped ready => simp [step?, ready]
  | expired ready due => simp [step?, ready, due]
  | part busy some_byte rest =>
      have some_left := Nat.not_lt.mpr (Nat.le_of_lt rest)
      simp [step?, busy, Nat.ne_of_gt some_byte, some_left, Nat.ne_of_lt rest]
  | whole busy some_byte => simp [step?, busy, some_byte]
  | refused busy => simp [step?, busy]

theorem moved_setFlow (same : f.moved = (s.flow d).moved) :
    ((s.setFlow d f).flow .up).moved = (s.flow .up).moved := by
  rw [flow_setFlow]
  split
  · rename_i here
    subst here
    exact same
  · rfl

/-- The bytes that are counted for the connection are those of whole writes to the backend. -/
theorem Step.credited (step : s.Step now r e s' r') :
    s'.up.moved = s.up.moved ∧ r' = r ∨
      ∃ size, s'.up.moved = s.up.moved + size ∧ r' = r.update s.key size now := by
  have quiet {t : Session} (same : (t.flow .up).moved = (s.flow .up).moved) :
      t.up.moved = s.up.moved := same
  cases step with
  | chunk =>
      refine .inl ⟨quiet ?_, rfl⟩
      rw [flow_frame, moved_setFlow]
      rfl
  | ended =>
      refine .inl ⟨quiet ?_, rfl⟩
      rw [flow_loop, moved_setFlow]
      rfl
  | broken | refused => exact .inl ⟨rfl, rfl⟩
  | stopped | expired =>
      refine .inl ⟨quiet ?_, rfl⟩
      rw [flow_finish, Flow.finish]
      split <;> rfl
  | part =>
      refine .inl ⟨quiet ?_, rfl⟩
      rw [moved_setFlow]
      rfl
  | @whole d size =>
      cases d with
      | up => exact .inr ⟨size, rfl, rfl⟩
      | down => exact .inl ⟨rfl, rfl⟩

end Session

def RegistryAction.key? : RegistryAction → Option ConnectionKey
  | drop k | release k | update k _ | move k _ | rate k _ => some k
  | register .. | purge => none

namespace Registry

variable {r : Registry} {k : ConnectionKey} {record : ConnectionRecord}

/-- The record of a live connection is left alone by what is done about others. -/
theorem Balanced.record?_act (balanced : r.Balanced) (live : r.record? k = some record)
    {action : RegistryAction} (other : action.key? ≠ some k) (now : Instant) :
    (r.act now action).2.record? k = some record := by
  have apart {own : ConnectionKey} (about : action.key? = some own) : k ≠ own :=
    fun same => other (same ▸ about)
  cases action with
  | register a b landed =>
      rcases answer : r.register b landed a now with ⟨result, r'⟩
      simp only [Registry.act, answer]
      cases result with
      | ok own =>
          obtain ⟨rfl, -⟩ := register_ok answer
          have new : k ≠ ⟨a, r.nextId⟩ := by
            rintro rfl
            cases live.symm.trans (balanced.numbered.record?_eq_none (Nat.le_refl _))
          rw [balanced.numbered.record?_register answer, if_neg new, live]
      | error e => exact (record?_register_of_error answer k).trans live
  | drop own | release own => exact (record?_release r own k now).trans (if_neg (apart rfl) ▸ live)
  | update own bytes =>
      exact ((Tended.update .refl bytes now).record?_of_ne (apart rfl)).trans live
  | move own state => exact ((Tended.setState .refl state).record?_of_ne (apart rfl)).trans live
  | rate own score =>
      exact ((Tended.setReputation .refl score).record?_of_ne (apart rfl)).trans live
  | purge => exact (record?_purge r now k).trans live

end Registry

inductive Incident where
  | own (e : HandoverEvent)
  /-- Something is done about other connections. -/
  | elsewhere (action : RegistryAction)

namespace Incident

def reads (d : Direction) : Incident → List UInt8
  | own (.session (.read side bytes)) => if side = d then bytes else []
  | _ => []

/-- The side that is read in a direction is seen to have ended. -/
def ends (d : Direction) : Incident → Bool
  | own (.session (.read side [])) => side = d
  | _ => false

def refuses (d : Direction) : Incident → Bool
  | own (.session (.writeFails side)) => side = d
  | _ => false

def closes : Incident → Bool
  | own (.session .stop) | own (.session .idle) => true
  | _ => false

end Incident

/-- What has happened so far, the latest last. -/
abbrev History := List (Instant × Incident)

namespace History

variable (history : History) (i : Instant × Incident) (d : Direction)

def received : List UInt8 := history.flatMap fun i => i.2.reads d

def ended : Bool := history.any fun i => i.2.ends d

def refused : Bool := history.any fun i => i.2.refuses d

def closed : Bool := history.any fun i => i.2.closes

@[simp]
theorem received_concat : received (history ++ [i]) d = history.received d ++ i.2.reads d := by
  simp [received]

@[simp]
theorem ended_concat : ended (history ++ [i]) d = (history.ended d || i.2.ends d) := by
  simp [ended]

@[simp]
theorem refused_concat : refused (history ++ [i]) d = (history.refused d || i.2.refuses d) := by
  simp [refused]

@[simp]
theorem closed_concat : closed (history ++ [i]) = (history.closed || i.2.closes) := by
  simp [closed]

end History

namespace Handover

/-- What an incident makes of a connection, and of the registry. What is done elsewhere is not
done about the connection itself. -/
def occur? (c : Accepted) (idle : Duration) (now : Instant) (h : Handover) (r : Registry) :
    Incident → Option (Handover × Registry)
  | .own e => h.step? c idle now r e
  | .elsewhere action =>
      if action.key? = some c.key then none else some (h, (r.act now action).2)

/-- What becomes of an accepted connection by incidents in their order; nothing, if they cannot
happen like that. -/
def run? (c : Accepted) (idle : Duration) (h : Handover) (r : Registry) :
    History → Option (Handover × Registry)
  | [] => some (h, r)
  | (now, incident) :: rest =>
      (h.occur? c idle now r incident).bind fun (h, r) => run? c idle h r rest

def session? : Handover → Option Session
  | .forwarding s => some s
  | _ => none

/-- What every incident preserves holds of all that can become of a connection. -/
theorem run?_induction {c : Accepted} {idle : Duration} {P : History → Handover → Registry → Prop}
    (preserved : ∀ {history h r now i h' r'}, P history h r →
      h.occur? c idle now r i = some (h', r') → P (history ++ [(now, i)]) h' r')
    {history : History} {h h' : Handover} {r r' : Registry} (outset : P [] h r)
    (ran : run? c idle h r history = some (h', r')) : P history h' r' := by
  suffices general : ∀ past, P past h r → P (past ++ history) h' r' from general [] outset
  clear outset
  induction history generalizing h r with
  | nil =>
      intro past holds
      cases ran
      rwa [List.append_nil]
  | cons i rest ih =>
      intro past holds
      obtain ⟨⟨after, left⟩, went, ran⟩ := Option.bind_eq_some_iff.mp ran
      rw [List.append_cons]
      exact ih ran _ (preserved holds went)

end Handover

end AdmissionGate
