import AdmissionGate.Proofs.Gate.Consultation
import Mathlib.Data.List.TakeDrop

/-!
Stretches of an admission in which no audit event is recorded, wherever such events go. Where
they go to the journal, an entry that tells of one could still be there, because detectors note
down what they like; but then it is the detector's own.
-/

namespace AdmissionGate

def Detector.Notes (d : Detector) (entry : JournalEntry) : Prop :=
  ∃ record h delay, (delay, entry) ∈ (d.classify record h).notes

/-- No event was recorded. An entry that tells of one can only be the detector's own. -/
structure Gate.Silent (g g' : Gate) : Prop where
  sink : g'.sink = g.sink
  detector : g'.detector = g.detector
  journal : ∃ notes, g'.journal = g.journal ++ notes ∧
    ∀ e, .audited e ∈ notes → g.detector.Notes (.audited e)

theorem Gate.expiryNotes_unaudited (g : Gate) (a : Address) (now : Instant) (e : AuditEvent) :
    .audited e ∉ g.expiryNotes a now := by
  simp only [expiryNotes]
  split <;> simp

namespace Gate.Silent

variable {g g₁ g' : Gate} {a : Address} {now : Instant}

theorem refl (g : Gate) : g.Silent g := ⟨rfl, rfl, [], (List.append_nil _).symm, by simp⟩

theorem trans (first : g.Silent g₁) (second : g₁.Silent g') : g.Silent g' where
  sink := second.sink.trans first.sink
  detector := second.detector.trans first.detector
  journal := by
    obtain ⟨notes, same, own⟩ := first.journal
    obtain ⟨notes', same', own'⟩ := second.journal
    refine ⟨notes ++ notes', ?_, ?_⟩
    · rw [same', same, List.append_assoc]
    · intro e member
      rcases List.mem_append.mp member with early | late
      · exact own e early
      · exact first.detector ▸ own' e late

theorem note (g : Gate) {entries : List JournalEntry} (unaudited : ∀ e, .audited e ∉ entries) :
    g.Silent (g.note entries) :=
  ⟨rfl, rfl, entries, rfl, fun e member => absurd member (unaudited e)⟩

theorem of_register {result : Except GateError ConnectionKey}
    (answer : g.register a now = (result, g')) : g.Silent g' := by
  have unaudited := g.expiryNotes_unaudited a now
  cases answer
  refine ⟨rfl, rfl, _, rfl, ?_⟩
  intro e member
  simp only [List.mem_append, unaudited, false_or] at member
  split at member <;> simp at member

theorem of_check {v : Verdict} (answer : g.check a now = (v, g')) : g.Silent g' := by
  have unaudited := g.expiryNotes_unaudited a now
  cases answer
  refine ⟨rfl, rfl, _, rfl, ?_⟩
  intro e member
  simp only [checkNotes] at member
  split at member
  · simp at member
  · simp only [List.mem_append, unaudited, false_or] at member
    split at member
    · simp at member
    · simp only [escalationNotes] at member
      split at member <;> simp at member

theorem update (g : Gate) (k : ConnectionKey) (bytes : Nat) (now : Instant) :
    g.Silent (g.update k bytes now) :=
  ⟨rfl, rfl, (refl g).journal⟩

theorem setState (g : Gate) (k : ConnectionKey) (state : ConnectionState) :
    g.Silent (g.setState k state) := by
  refine ⟨rfl, rfl, _, rfl, ?_⟩
  intro e member
  split at member
  · simp at member
  · split at member <;> simp at member

theorem sampleReputation (g : Gate) (k : ConnectionKey) (now : Instant) :
    g.Silent (g.sampleReputation k now) := by
  simp only [Gate.sampleReputation]
  split
  · exact ⟨rfl, rfl, (refl g).journal⟩
  · exact refl g

theorem noteReads (g : Gate) (now : Instant) (c : Candidate) : g.Silent (g.noteReads now c) := by
  apply note
  intro e
  generalize g.settings.handshake.collectedReads now c.buffered c.peer = reads
  generalize c.buffered.length = buffered
  induction reads generalizing buffered with
  | nil => simp [readNotes]
  | cons n rest ih => simpa [readNotes] using ih _

theorem noteDue (g : Gate) (now : Instant) {q : Question}
    (noted : ∀ n ∈ q.notes, g.detector.Notes n.2) : g.Silent (g.noteDue now q) := by
  refine ⟨rfl, rfl, _, rfl, ?_⟩
  intro e member
  obtain ⟨n, due, same⟩ := List.mem_map.mp member
  rw [List.span_eq_takeWhile_dropWhile] at due
  exact same ▸ noted n ((List.takeWhile_sublist _).subset due)

theorem release (g : Gate) (k : ConnectionKey) (now : Instant) : g.Silent (g.release k now) := by
  refine ⟨rfl, rfl, _, rfl, ?_⟩
  intro e member
  split at member <;> simp at member

end Gate.Silent

def Point.Noted (d : Detector) : Point → Prop
  | .awaiting _ q | .resting (.waiting _ (.opinion q)) => ∀ n ∈ q.notes, d.Notes n.2
  | _ => True

theorem Leads.noted {now : Instant} {stop : Bool} {g g' : Gate} {p p' : Point}
    (edge : Leads now stop g p g' p') (before : p.Noted g.detector) : p'.Noted g'.detector := by
  rw [edge.detector]
  cases edge with
  | @asked _ h record found =>
      intro n member
      obtain ⟨⟨delay, entry⟩, noted, rfl⟩ := List.mem_map.mp member
      exact ⟨record, h, delay, noted⟩
  | opinionLasts =>
      intro n member
      rw [List.span_eq_takeWhile_dropWhile] at member
      exact before n ((List.dropWhile_sublist _).subset member)
  | _ => trivial

end AdmissionGate
