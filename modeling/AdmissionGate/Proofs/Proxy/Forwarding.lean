import AdmissionGate.Proofs.Proxy.Steps

/-!
A session forwards what it reads, and nothing else. In each direction, what was taken before and
what was read since is what was written and what is still to be written; and something is left to
be written only in the middle of a write. A side that has ended is not read again, and the other
side is told of it once; the other direction goes on.
-/

namespace AdmissionGate

structure Incident.Spares (i : Incident) (d : Direction) : Prop where
  reads : i.reads d = []
  ends : i.ends d = false
  refuses : i.refuses d = false

/-- The direction that an event is about; what ends the whole session is about none. -/
def SessionEvent.direction? : SessionEvent → Option Direction
  | read d _ | readFails d | takes d _ | writeFails d => some d
  | stop | idle => none

theorem Incident.spares_other {e : SessionEvent} {d side : Direction}
    (about : e.direction? = some d) (other : side ≠ d) : (own (.session e)).Spares side := by
  have apart : d ≠ side := fun same => other same.symm
  cases e with
  | read d bytes =>
      cases about
      refine ⟨if_neg apart, ?_, rfl⟩
      cases bytes with
      | nil => exact decide_eq_false apart
      | cons => rfl
  | writeFails d =>
      cases about
      exact ⟨rfl, rfl, decide_eq_false apart⟩
  | readFails | takes => exact ⟨rfl, rfl, rfl⟩
  | stop | idle => cases about

/-- Bytes are not the end. -/
theorem Incident.ends_of_ne_nil {bytes : List UInt8} (some_byte : bytes ≠ []) (d side : Direction) :
    (own (.session (.read d bytes))).ends side = false := by
  cases bytes with
  | nil => contradiction
  | cons => rfl

/-- How a direction of a session stands, from what has happened and the phase. -/
structure Flow.Carries (f : Flow) (d : Direction) (first : List UInt8) (history : History)
    (p : SessionPhase) : Prop where
  bytes : ∃ sent, f.written = first ++ sent ∧ sent ++ f.pending = history.received d
  isOpen : f.isOpen = !history.ended d
  told : f.shutdowns = if history.ended d = true ∨ p = .over false then 1 else 0
  busy : ∀ size, p = .writing d size →
    f.pending ≠ [] ∧ f.moved + size = (history.received d).length
  quiet : (∀ size, p ≠ .writing d size) → history.refused d = false →
    f.pending = [] ∧ f.moved = (history.received d).length
  refused : history.refused d = true → p = .over true

namespace Flow.Carries

variable {f : Flow} {d : Direction} {first bytes : List UInt8} {history : History}
  {p p' : SessionPhase} {now : Instant} {i : Incident} {size count : Nat}

theorem spared (carries : f.Carries d first history p) (spares : i.Spares d) (now : Instant) :
    f.Carries d first (history ++ [(now, i)]) p := by
  obtain ⟨bytes, isOpen, told, busy, quiet, refused⟩ := carries
  constructor <;>
    simpa only [History.received_concat, History.ended_concat, History.refused_concat,
      spares.reads, spares.ends, spares.refuses, List.append_nil, Bool.or_false]

/-- A session that is going on has not failed to write. -/
theorem unrefused (carries : f.Carries d first history p) (going : p ≠ .over true) :
    history.refused d = false := by
  rw [← Bool.not_eq_true]
  exact fun refused => going (carries.refused refused)

/-- The session goes on elsewhere, or ends. -/
theorem aside (carries : f.Carries d first history p) (going : ∀ failed, p ≠ .over failed)
    (idle : ∀ size, p ≠ .writing d size) (other : ∀ size, p' ≠ .writing d size)
    (last : p' = .over false → history.ended d = true) : f.Carries d first history p' := by
  obtain ⟨settled, moved⟩ := carries.quiet idle (carries.unrefused (going true))
  refine ⟨carries.bytes, carries.isOpen, ?_, fun size busy => absurd busy (other size),
    fun _ _ => ⟨settled, moved⟩, fun refused => absurd (carries.refused refused) (going true)⟩
  rw [carries.told]
  by_cases ended : history.ended d = true
  · simp [ended]
  · have open_end : p' ≠ .over false := fun done => ended (last done)
    simp [ended, going false, open_end]

theorem beside (carries : f.Carries d first history p) (going : ∀ failed, p ≠ .over failed)
    (idle : ∀ size, p ≠ .writing d size) (other : ∀ size, p' ≠ .writing d size)
    (last : p' = .over false → history.ended d = true) (spares : i.Spares d) :
    f.Carries d first (history ++ [(now, i)]) p' :=
  (carries.aside going idle other last).spared spares now

theorem chunk (carries : f.Carries d first history .ready) (some_byte : bytes ≠ []) :
    Carries { f with pending := bytes } d first
      (history ++ [(now, .own (.session (.read d bytes)))]) (.writing d bytes.length) := by
  have unrefused := carries.unrefused nofun
  obtain ⟨settled, moved⟩ := carries.quiet nofun unrefused
  obtain ⟨sent, written, rest⟩ := carries.bytes
  rw [settled, List.append_nil] at rest
  have reads : (Incident.own (.session (.read d bytes))).reads d = bytes := if_pos rfl
  have ends : (Incident.own (.session (.read d bytes))).ends d = false :=
    Incident.ends_of_ne_nil some_byte d d
  constructor
  · exact ⟨sent, written, by rw [History.received_concat, reads, rest]⟩
  · rw [History.ended_concat, ends, Bool.or_false, carries.isOpen]
  · rw [History.ended_concat, ends, Bool.or_false, carries.told]
    simp
  · rintro size same
    cases same
    rw [History.received_concat, reads, List.length_append, moved]
    exact ⟨some_byte, rfl⟩
  · exact fun idle => absurd rfl (idle bytes.length)
  · simp [unrefused, Incident.refuses]

theorem close (carries : f.Carries d first history .ready) (reads : f.isOpen = true)
    (other : ∀ size, p' ≠ .writing d size) :
    f.close.Carries d first (history ++ [(now, .own (.session (.read d [])))]) p' := by
  have unrefused := carries.unrefused nofun
  have unended : history.ended d = false := by simpa [carries.isOpen] using reads
  have settled := carries.quiet nofun unrefused
  constructor
  · simpa [Flow.close, Flow.shutdown, Incident.reads] using carries.bytes
  · simp [Flow.close, Incident.ends]
  · have told := carries.told
    simp [Flow.close, Flow.shutdown, Incident.ends, unended] at told ⊢
    exact told
  · exact fun size busy => absurd busy (other size)
  · intro _ _
    simpa [Flow.close, Flow.shutdown, Incident.reads] using settled
  · simp [unrefused, Incident.refuses]

theorem finish (carries : f.Carries d first history .ready) (spares : i.Spares d) (now : Instant) :
    f.finish.Carries d first (history ++ [(now, i)]) (.over false) := by
  have unrefused := carries.unrefused (by simp)
  have settled := carries.quiet (by simp) unrefused
  have told := carries.told
  have isOpen := carries.isOpen
  refine spared ?_ spares now
  rw [Flow.finish]
  cases ended : history.ended d with
  | true =>
      rw [ended, Bool.not_true] at isOpen
      rw [isOpen, if_neg Bool.false_ne_true]
      exact carries.aside (by simp) (by simp) (by simp) fun _ => ended
  | false =>
      rw [ended, Bool.not_false] at isOpen
      rw [isOpen, if_pos rfl]
      refine ⟨carries.bytes, carries.isOpen, ?_, by simp, fun _ _ => settled, ?_⟩
      · simpa [Flow.shutdown, ended] using told
      · simp [unrefused]

/-- What is taken moves from what is pending to what is written. -/
theorem part (carries : f.Carries d first history (.writing d size))
    (rest : count < f.pending.length) :
    (f.write count).Carries d first
      (history ++ [(now, .own (.session (.takes d count)))]) (.writing d size) := by
  refine spared ?_ ⟨rfl, rfl, rfl⟩ now
  obtain ⟨sent, written, whole⟩ := carries.bytes
  refine ⟨⟨sent ++ f.pending.take count, ?_, ?_⟩, carries.isOpen, carries.told, ?_,
    fun idle => absurd rfl (idle size), carries.refused⟩
  · rw [Flow.write, written, List.append_assoc]
  · rw [Flow.write, List.append_assoc, List.take_append_drop, whole]
  · intro size' same
    refine ⟨?_, (carries.busy size' same).2⟩
    rw [Flow.write, ← List.length_pos_iff, List.length_drop]
    omega

theorem whole (carries : f.Carries d first history (.writing d size)) :
    Carries { f.write f.pending.length with moved := f.moved + size } d first
      (history ++ [(now, .own (.session (.takes d f.pending.length)))]) .ready := by
  refine spared ?_ ⟨rfl, rfl, rfl⟩ now
  have unrefused := carries.unrefused nofun
  obtain ⟨-, moved⟩ := carries.busy size rfl
  obtain ⟨sent, written, whole⟩ := carries.bytes
  have told := carries.told
  refine ⟨⟨sent ++ f.pending, ?_, ?_⟩, carries.isOpen, ?_, nofun, fun _ _ => ⟨?_, moved⟩, ?_⟩
  · rw [Flow.write, List.take_length, written, List.append_assoc]
  · rw [Flow.write, List.drop_length, List.append_nil, whole]
  · simpa [Flow.write] using told
  · rw [Flow.write, List.drop_length]
  · simp [unrefused]

theorem refuse (carries : f.Carries d first history (.writing d size)) :
    f.Carries d first (history ++ [(now, .own (.session (.writeFails d)))]) (.over true) := by
  have told := carries.told
  refine ⟨?_, ?_, ?_, nofun, ?_, fun _ => rfl⟩
  · simpa [Incident.reads] using carries.bytes
  · simpa [Incident.ends] using carries.isOpen
  · simpa [Incident.ends] using told
  · simp [Incident.refuses]

end Flow.Carries

/-- What is written in a direction before anything that is read. -/
def Accepted.taken (c : Accepted) : Direction → List UInt8
  | .up => c.buffered
  | .down => []

def History.Unread (history : History) : Prop :=
  ∀ d, history.received d = [] ∧ history.ended d = false ∧ history.refused d = false

structure Session.Carries (s : Session) (c : Accepted) (history : History) : Prop where
  key : s.key = c.key
  flows : ∀ d, (s.flow d).Carries d (c.taken d) history s.phase
  finished : s.phase = .over false → (∀ d, history.ended d = true) ∨ history.closed = true
  going : (∀ failed, s.phase ≠ .over failed) → ∃ d, history.ended d = false

namespace Session.Carries

variable {s s' : Session} {c : Accepted} {history : History} {r r' : Registry} {now : Instant}
  {e : SessionEvent} {i : Incident} {d : Direction} {bytes : List UInt8} {size count : Nat}

theorem spared (carries : s.Carries c history) (spares : ∀ d, i.Spares d)
    (closes : i.closes = false) (now : Instant) : s.Carries c (history ++ [(now, i)]) := by
  refine ⟨carries.key, fun d => (carries.flows d).spared (spares d) now, ?_, ?_⟩
  · simpa [(spares _).ends, closes] using carries.finished
  · simpa [(spares _).ends] using carries.going

theorem start (c : Accepted) (idle : Duration) (now : Instant) (unread : history.Unread) :
    (Session.start c.key c.buffered idle now).Carries c history := by
  refine ⟨rfl, fun d => ?_, nofun, fun _ => ⟨.up, (unread .up).2.1⟩⟩
  obtain ⟨received, ended, refused⟩ := unread d
  have outset : (Session.start c.key c.buffered idle now).flow d = { written := c.taken d } := by
    cases d <;> rfl
  rw [outset]
  refine ⟨⟨[], (List.append_nil _).symm, received.symm⟩, ?_, ?_, nofun, fun _ _ => ?_, ?_⟩
  · rw [ended, Bool.not_false]
  · simp [ended, Session.start]
  · rw [received]
    exact ⟨rfl, rfl⟩
  · rw [refused]
    exact nofun

theorem chunk (carries : s.Carries c history) (ready : s.phase = .ready)
    (reads : (s.flow d).isOpen = true) (some_byte : bytes ≠ []) :
    Carries { s.setFlow d { s.flow d with pending := bytes } with phase := .writing d bytes.length }
      c (history ++ [(now, .own (.session (.read d bytes)))]) := by
  obtain ⟨key, flows, -, -⟩ := carries
  rw [ready] at flows
  refine ⟨(s.key_setFlow ..).trans key, fun side => ?_, nofun, fun _ => ⟨d, ?_⟩⟩
  · rw [flow_frame, flow_setFlow]
    split
    · rename_i same
      subst same
      exact (flows side).chunk some_byte
    · rename_i other
      refine (flows side).beside nofun nofun ?_ nofun (Incident.spares_other rfl other)
      rintro size same
      cases same
      exact other rfl
  · rw [(flows d).isOpen, Bool.not_eq_true'] at reads
    rw [History.ended_concat, reads, Incident.ends_of_ne_nil some_byte, Bool.or_false]

/-- The session goes on if the other side has not ended. -/
theorem close (carries : s.Carries c history) (ready : s.phase = .ready)
    (reads : (s.flow d).isOpen = true) :
    (s.setFlow d (s.flow d).close).loop.Carries c
      (history ++ [(now, .own (.session (.read d [])))]) := by
  obtain ⟨key, flows, -, -⟩ := carries
  rw [ready] at flows
  have isOpen side : ((s.setFlow d (s.flow d).close).flow side).isOpen =
      !History.ended (history ++ [(now, .own (.session (.read d [])))]) side := by
    rw [flow_setFlow, History.ended_concat]
    split
    · rename_i same
      subst same
      simp [Flow.close, Incident.ends]
    · rename_i other
      rw [(Incident.spares_other rfl other).ends, Bool.or_false, (flows side).isOpen]
  -- Whether the session goes on depends on the other direction, which the history tells.
  have phase := (s.setFlow d (s.flow d).close).phase_loop
  simp only [isOpen, Bool.not_eq_true', Bool.not_eq_false'] at phase
  refine ⟨by rw [key_loop, key_setFlow, key], fun side => ?_, fun done => .inl ?_, fun going => ?_⟩
  · rw [flow_loop, flow_setFlow]
    have idle size :
        (s.setFlow d (s.flow d).close).loop.phase ≠ .writing side size := by
      rcases phase with ⟨same, -⟩ | ⟨same, -⟩ <;> rw [same] <;> exact nofun
    split
    · rename_i same
      subst same
      exact (flows side).close reads idle
    · rename_i other
      have spares := Incident.spares_other (e := .read d []) rfl other
      refine (flows side).beside nofun nofun idle (fun done => ?_) spares
      rcases phase with ⟨same, -⟩ | ⟨-, all⟩
      · cases same.symm.trans done
      · simpa [spares.ends] using all side
  · rcases phase with ⟨same, -⟩ | ⟨-, all⟩
    · cases same.symm.trans done
    · exact all
  · rcases phase with ⟨-, some_open⟩ | ⟨same, -⟩
    · exact some_open
    · exact absurd same (going false)

theorem finish (carries : s.Carries c history) (ready : s.phase = .ready)
    (spares : ∀ d, i.Spares d) (closes : i.closes = true) (now : Instant) :
    s.finish.Carries c (history ++ [(now, i)]) := by
  obtain ⟨key, flows, -, -⟩ := carries
  rw [ready] at flows
  refine ⟨key, fun side => ?_, fun _ => .inr ?_, fun going => absurd rfl (going false)⟩
  · rw [flow_finish]
    exact (flows side).finish (spares side) now
  · rw [History.closed_concat, closes, Bool.or_true]

theorem part (carries : s.Carries c history) (busy : s.phase = .writing d size)
    (rest : count < (s.flow d).pending.length) :
    (s.setFlow d ((s.flow d).write count)).Carries c
      (history ++ [(now, .own (.session (.takes d count)))]) := by
  obtain ⟨key, flows, -, going⟩ := carries
  rw [busy] at flows going
  refine ⟨(s.key_setFlow ..).trans key, fun side => ?_, ?_, fun _ => ?_⟩
  · rw [flow_setFlow, phase_setFlow, busy]
    split
    · rename_i same
      subst same
      exact (flows side).part rest
    · rename_i other
      exact (flows side).spared (Incident.spares_other rfl other) now
  · rw [phase_setFlow, busy]
    exact nofun
  · simpa [Incident.ends] using going nofun

theorem whole (carries : s.Carries c history) (busy : s.phase = .writing d size) :
    ((s.setFlow d ((s.flow d).write (s.flow d).pending.length)).completed d size now).Carries c
      (history ++ [(now, .own (.session (.takes d (s.flow d).pending.length)))]) := by
  obtain ⟨key, flows, -, going⟩ := carries
  rw [busy] at flows going
  refine ⟨?_, fun side => ?_, nofun, fun _ => ?_⟩
  · rw [key_completed, key_setFlow, key]
  · rw [flow_completed, flow_setFlow, flow_setFlow, if_pos rfl]
    split
    · rename_i same
      subst same
      exact (flows side).whole
    · rename_i other
      refine (flows side).beside nofun ?_ nofun nofun (Incident.spares_other rfl other)
      rintro size' busy
      cases busy
      exact other rfl
  · simpa [Incident.ends] using going nofun

theorem refuse (carries : s.Carries c history) (busy : s.phase = .writing d size) :
    Carries { s with phase := .over true } c
      (history ++ [(now, .own (.session (.writeFails d)))]) := by
  obtain ⟨key, flows, -, -⟩ := carries
  rw [busy] at flows
  refine ⟨key, fun side => ?_, nofun, fun going => absurd rfl (going true)⟩
  rw [flow_frame]
  by_cases same : side = d
  · subst same
    exact (flows side).refuse
  · refine (flows side).beside nofun ?_ nofun nofun (Incident.spares_other rfl same)
    rintro size' busy
    cases busy
    exact same rfl

theorem step (carries : s.Carries c history) (step : s.Step now r e s' r') :
    s'.Carries c (history ++ [(now, .own (.session e))]) := by
  cases step with
  | chunk ready reads some_byte => exact carries.chunk ready reads some_byte
  | ended ready reads => exact carries.close ready reads
  | broken ready =>
      obtain ⟨key, flows, -, -⟩ := carries
      rw [ready] at flows
      refine ⟨key, fun side => ?_, nofun, fun going => absurd rfl (going true)⟩
      rw [flow_frame]
      exact (flows side).beside nofun nofun nofun nofun ⟨rfl, rfl, rfl⟩
  | stopped ready | expired ready =>
      exact carries.finish ready (fun _ => ⟨rfl, rfl, rfl⟩) rfl now
  | part busy _ rest => exact carries.part busy rest
  | whole busy => exact carries.whole busy
  | refused busy => exact carries.refuse busy

end Session.Carries

theorem History.Unread.aside {history : History} {i : Incident} (unread : history.Unread)
    (spares : ∀ d, i.Spares d) (now : Instant) : Unread (history ++ [(now, i)]) := by
  intro d
  simpa [(spares d).reads, (spares d).ends, (spares d).refuses] using unread d

/-- A connection is live, and so many bytes have been counted for it. -/
structure Registry.Credits (r : Registry) (k : ConnectionKey) (bytes : Nat) : Prop where
  balanced : r.Balanced
  record : ∃ record, r.record? k = some record ∧ record.bytesIn = min bytes max64

namespace Registry.Credits

variable {r : Registry} {k : ConnectionKey} {bytes : Nat}

theorem update (credits : r.Credits k bytes) (size : Nat) (now : Instant) :
    (r.update k size now).Credits k (bytes + size) := by
  obtain ⟨balanced, record, live, counted⟩ := credits
  refine ⟨balanced.tended (.update .refl size now), ?_⟩
  rw [record?_update, if_pos rfl, live]
  refine ⟨_, rfl, ?_⟩
  simp only [counted]
  omega

theorem act (credits : r.Credits k bytes) {action : RegistryAction}
    (other : action.key? ≠ some k) (now : Instant) : (r.act now action).2.Credits k bytes := by
  obtain ⟨balanced, record, live, counted⟩ := credits
  exact ⟨balanced.act now action, record, balanced.record?_act live other now, counted⟩

end Registry.Credits

namespace Handover

variable {h h' : Handover} {c : Accepted} {idle : Duration} {history : History} {r r' : Registry}
  {now : Instant} {i : Incident} {before : Nat}

def Carries (h : Handover) (c : Accepted) (history : History) : Prop :=
  match h with
  | .reaching => history.Unread
  | .opening written pending => written ++ pending = c.buffered ∧ history.Unread
  | .forwarding s => s.Carries c history
  | .lost => True

def moved : Handover → Nat
  | .forwarding s => s.up.moved
  | _ => 0

theorem carries_opened {written pending : List UInt8} (whole : written ++ pending = c.buffered)
    (unread : history.Unread) (idle : Duration) (now : Instant) :
    (opened c idle now written pending).Carries c history := by
  rw [opened]
  split
  · rename_i all
    rw [all, List.append_nil] at whole
    subst whole
    exact .start c idle now unread
  · exact ⟨whole, unread⟩

theorem moved_opened (c : Accepted) (idle : Duration) (now : Instant)
    (written pending : List UInt8) : (opened c idle now written pending).moved = 0 := by
  rw [opened]
  split <;> rfl

theorem carries_occur (carries : h.Carries c history)
    (went : h.occur? c idle now r i = some (h', r')) : h'.Carries c (history ++ [(now, i)]) := by
  cases i with
  | elsewhere action =>
      have spares d : (Incident.elsewhere action).Spares d := ⟨rfl, rfl, rfl⟩
      simp only [occur?] at went
      split at went
      · cases went
      cases went
      cases h with
      | reaching => exact carries.aside spares now
      | opening written pending => exact ⟨carries.1, carries.2.aside spares now⟩
      | forwarding s => exact Session.Carries.spared carries spares rfl now
      | lost => trivial
  | own e =>
      simp only [occur?, step?] at went
      split at went
      · cases went
        exact carries_opened rfl (carries.aside (fun _ => ⟨rfl, rfl, rfl⟩) now) idle now
      · cases went
        trivial
      · split at went
        · cases went
        cases went
        obtain ⟨whole, unread⟩ := carries
        refine carries_opened ?_ (unread.aside (fun _ => ⟨rfl, rfl, rfl⟩) now) idle now
        rw [List.append_assoc, List.take_append_drop, whole]
      · cases went
        trivial
      · obtain ⟨⟨s', left⟩, step, same⟩ := Option.map_eq_some_iff.mp went
        cases same
        exact Session.Carries.step carries (Session.step_of_step? step)
      · cases went

theorem credits_occur (carries : h.Carries c history)
    (credits : r.Credits c.key (before + h.moved))
    (went : h.occur? c idle now r i = some (h', r')) : r'.Credits c.key (before + h'.moved) := by
  cases i with
  | elsewhere action =>
      simp only [occur?] at went
      split at went
      · cases went
      rename_i other
      cases went
      exact credits.act other now
  | own e =>
      simp only [occur?, step?] at went
      split at went
      · cases went
        rwa [moved_opened]
      · cases went
        exact credits
      · split at went
        · cases went
        cases went
        rwa [moved_opened]
      · cases went
        exact credits
      · obtain ⟨⟨s', left⟩, step, same⟩ := Option.map_eq_some_iff.mp went
        cases same
        rcases (Session.step_of_step? step).credited with ⟨same, rfl⟩ | ⟨size, more, rfl⟩
        · rw [moved, same]
          exact credits
        · rw [moved, more, ← Nat.add_assoc, Session.Carries.key carries]
          exact credits.update size now
      · cases went

theorem carries_run (ran : run? c idle .reaching r history = some (h, r')) :
    h.Carries c history := by
  refine run?_induction (P := fun history h _ => h.Carries c history) carries_occur ?_ ran
  exact fun _ => ⟨rfl, rfl, rfl⟩

theorem credits_run (balanced : r.Balanced) {record : ConnectionRecord}
    (live : r.record? c.key = some record) (counted : record.bytesIn ≤ max64)
    (ran : run? c idle .reaching r history = some (h, r')) :
    r'.Credits c.key (record.bytesIn + h.moved) := by
  refine (run?_induction
    (P := fun history h r => h.Carries c history ∧ r.Credits c.key (record.bytesIn + h.moved))
    (fun both went => ⟨carries_occur both.1 went, credits_occur both.1 both.2 went⟩)
    ⟨?_, ?_⟩ ran).2
  · exact fun _ => ⟨rfl, rfl, rfl⟩
  · exact ⟨balanced, record, live, (Nat.min_eq_left counted).symm⟩

end Handover

/-- A session that forwards what it reads. -/
structure Session.Faithful (s : Session) (c : Accepted) (history : History) (before : Nat)
    (r : Registry) : Prop where
  /-- What is written is what was taken before and then what was read, all of it unless a write
  is under way. -/
  bytes : ∀ d, ∃ sent, (s.flow d).written = c.taken d ++ sent ∧ sent <+: history.received d ∧
    ((∀ size, s.phase ≠ .writing d size) → history.refused d = false →
      sent = history.received d)
  /-- The side that is written to is told once of the end, when the other side ends or when the
  session does. -/
  told : ∀ d, (s.flow d).shutdowns =
    if history.ended d = true ∨ s.phase = .over false then 1 else 0
  /-- A side that has ended is not read again. -/
  unread : ∀ d, history.ended d = true → ∀ now bytes, s.step? now r (.read d bytes) = none
  /-- A side that has not ended is read, and what it gives is written. -/
  flows : ∀ d, history.ended d = false → s.phase = .ready → ∀ now bytes, bytes ≠ [] →
    ∃ s₁ s₂ r₂, s.step? now r (.read d bytes) = some (s₁, r) ∧
      s₁.step? now r (.takes d bytes.length) = some (s₂, r₂) ∧ s₂.phase = .ready ∧
        (s₂.flow d).written = (s.flow d).written ++ bytes
  /-- The end of one side is not the end of the other direction. -/
  ends : ∀ d, history.ended d = false → s.phase = .ready → ∀ now,
    ∃ s₁, s.step? now r (.read d []) = some (s₁, r) ∧ ∀ side, side ≠ d →
      s₁.flow side = s.flow side ∧ (history.ended side = false → s₁.phase = .ready)
  /-- A session that is over in good order has written all bytes and counted them. -/
  finished : s.phase = .over false →
    (∀ d, (s.flow d).written = c.taken d ++ history.received d) ∧
      s.counts = ((history.received .up).length, (history.received .down).length) ∧
        ((∀ d, history.ended d = true) ∨ history.closed = true)
  /-- The bytes of the client are counted in the record of the connection. -/
  credited : ∃ record, r.record? c.key = some record ∧
    record.bytesIn = min (before + s.counts.1) max64

namespace Session.Carries

variable {s : Session} {c : Accepted} {history : History} {r : Registry} {d : Direction}

theorem sent (carries : s.Carries c history) (d : Direction) :
    ∃ sent, (s.flow d).written = c.taken d ++ sent ∧ sent <+: history.received d ∧
      ((∀ size, s.phase ≠ .writing d size) → history.refused d = false →
        sent = history.received d) := by
  have flow := carries.flows d
  obtain ⟨sent, written, rest⟩ := flow.bytes
  refine ⟨sent, written, ⟨_, rest⟩, fun idle unrefused => ?_⟩
  rw [← rest, (flow.quiet idle unrefused).1, List.append_nil]

theorem unread (carries : s.Carries c history) (ended : history.ended d = true) (now : Instant)
    (r : Registry) (bytes : List UInt8) : s.step? now r (.read d bytes) = none := by
  have shut : (s.flow d).isOpen = false := by rw [(carries.flows d).isOpen, ended, Bool.not_true]
  rw [Option.eq_none_iff_forall_ne_some]
  rintro ⟨s', r'⟩ went
  cases step_of_step? went with
  | chunk _ reads | ended _ reads => cases shut.symm.trans reads

theorem reads (carries : s.Carries c history) (unended : history.ended d = false) :
    (s.flow d).isOpen = true := by
  rw [(carries.flows d).isOpen, unended, Bool.not_false]

theorem flowing (carries : s.Carries c history) (unended : history.ended d = false)
    (ready : s.phase = .ready) (now : Instant) (r : Registry) {bytes : List UInt8}
    (some_byte : bytes ≠ []) :
    ∃ s₁ s₂ r₂, s.step? now r (.read d bytes) = some (s₁, r) ∧
      s₁.step? now r (.takes d bytes.length) = some (s₂, r₂) ∧ s₂.phase = .ready ∧
        (s₂.flow d).written = (s.flow d).written ++ bytes := by
  have read : s.Step now r (.read d bytes) _ r :=
    .chunk ready (carries.reads unended) some_byte
  generalize after : { s.setFlow d { s.flow d with pending := bytes } with
    phase := .writing d bytes.length } = s₁ at read
  have flow : s₁.flow d = { s.flow d with pending := bytes } := by
    rw [← after, flow_frame, flow_setFlow, if_pos rfl]
  have busy : s₁.phase = .writing d bytes.length := by rw [← after]
  have write : s₁.Step now r (.takes d (s₁.flow d).pending.length) _ _ :=
    .whole busy (by rwa [flow])
  rw [flow] at write
  refine ⟨s₁, _, _, step?_of_step read, step?_of_step write, rfl, ?_⟩
  rw [flow_completed, if_pos rfl, flow_setFlow, if_pos rfl, Flow.write, List.take_length]

theorem ending (carries : s.Carries c history) (unended : history.ended d = false)
    (ready : s.phase = .ready) (now : Instant) (r : Registry) :
    ∃ s₁, s.step? now r (.read d []) = some (s₁, r) ∧ ∀ side, side ≠ d →
      s₁.flow side = s.flow side ∧ (history.ended side = false → s₁.phase = .ready) := by
  refine ⟨_, step?_of_step (.ended ready (carries.reads unended)), fun side other => ?_⟩
  have same : (s.setFlow d (s.flow d).close).flow side = s.flow side := by
    rw [flow_setFlow, if_neg other]
  refine ⟨(flow_loop ..).trans same, fun going => ?_⟩
  rcases (s.setFlow d (s.flow d).close).phase_loop with ⟨ready, -⟩ | ⟨-, all⟩
  · exact ready
  · have shut := all side
    rw [same, carries.reads going] at shut
    cases shut

end Session.Carries

/-- Whatever happens to an accepted connection, the bytes that were taken of it before go to the
backend first, and the session forwards what it reads. -/
theorem Handover.forwards_faithfully (c : Accepted) (idle : Duration) (r : Registry)
    (balanced : r.Balanced) (record : ConnectionRecord) (live : r.record? c.key = some record)
    (counted : record.bytesIn ≤ max64) (history : History) (h : Handover) (r' : Registry)
    (ran : run? c idle .reaching r history = some (h, r')) :
    (∀ written pending, h = .opening written pending →
      written ++ pending = c.buffered ∧ ∀ d, history.received d = []) ∧
    ∀ s, h = .forwarding s → s.Faithful c history record.bytesIn r' := by
  have carries := carries_run ran
  have credits := credits_run balanced live counted ran
  refine ⟨?_, ?_⟩
  · rintro written pending rfl
    exact ⟨carries.1, fun d => (carries.2 d).1⟩
  · rintro s rfl
    have carries : s.Carries c history := carries
    refine ⟨carries.sent, fun d => (carries.flows d).told,
      fun d ended now bytes => carries.unread ended now r' bytes,
      fun d unended ready now bytes some_byte => carries.flowing unended ready now r' some_byte,
      fun d unended ready now => carries.ending unended ready now r', fun done => ?_,
      credits.record⟩
    have unrefused d : history.refused d = false := (carries.flows d).unrefused (by simp [done])
    have moved d := ((carries.flows d).quiet (by simp [done]) (unrefused d)).2
    refine ⟨fun d => ?_, Prod.ext (moved .up) (moved .down), carries.finished done⟩
    obtain ⟨sent, written, -, all⟩ := carries.sent d
    rw [written, all (by simp [done]) (unrefused d)]

namespace Sample

def player : Accepted where
  key := ⟨.v4 #v[192, 0, 2, 77], 1⟩
  handshake := .ofFields 767 "mc.org" 25565 .login
  buffered := (Handshake.ofFields 767 "mc.org" 25565 .login).toBytes
  degraded := false

def registered : Registry :=
  ((Registry.ofSettings {}).act 0 (.register player.key.address (.ofSettings {}))).2

def conversation : History :=
  [(0, .own .reached), (1, .own (.takes 5)), (2, .own (.takes 9)),
    (3, .own (.session (.read .up [1, 2, 3]))), (4, .own (.session (.takes .up 1))),
    (5, .elsewhere .purge), (6, .own (.session (.takes .up 2))),
    (7, .own (.session (.read .up []))), (8, .own (.session (.read .down [7, 8]))),
    (9, .own (.session (.takes .down 2))), (10, .own (.session (.read .down [])))]

theorem conversation_is_forwarded :
    ∃ s r', Handover.run? player 30000000000 .reaching registered conversation =
        some (.forwarding s, r') ∧
      s.up.written = player.buffered ++ [1, 2, 3] ∧ s.down.written = [7, 8] ∧
        s.counts = (3, 2) ∧ (r'.record? player.key).map (·.bytesIn) = some 3 := by
  have done : (Handover.run? player 30000000000 .reaching registered conversation).any fun p =>
      p.1.session?.any (·.phase = .over false) := by decide +kernel
  obtain ⟨⟨h, r'⟩, ran, done⟩ := (Option.any_eq_true ..).mp done
  cases h with
  | forwarding s =>
      have done : s.phase = .over false := of_decide_eq_true done
      have balanced : registered.Balanced := (Registry.Balanced.ofSettings {}).act ..
      have live : registered.record? player.key =
          some { key := player.key, priorConnections := 0 } := rfl
      obtain ⟨-, faithful⟩ := Handover.forwards_faithfully player 30000000000 registered balanced
        _ live (Nat.zero_le _) conversation _ r' ran
      have faithful := faithful s rfl
      obtain ⟨whole, counts, -⟩ := faithful.finished done
      obtain ⟨record, found, bytes⟩ := faithful.credited
      rw [counts] at bytes
      refine ⟨s, r', ran, whole .up, whole .down, counts, ?_⟩
      rw [found, Option.map_some, bytes]
      rfl
  | reaching | opening | lost => cases done

end Sample

end AdmissionGate
