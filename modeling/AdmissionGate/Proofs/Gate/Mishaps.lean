import AdmissionGate.Proofs.Gate.Keeping
import AdmissionGate.Proofs.Gate.Silence

/-!
Two things that the gate is ready to note down and never does: that a connection was not moved to
a state, and that a record was missing when the detector was to be asked. Both would show in the
journal, because a move of a record that is there is noted either way. With the records in order
no edge notes down one of them, so what tells of one can only come from the detector.
-/

namespace AdmissionGate

/-- The entry tells of a move that was not made, or of a record that was missing. -/
def JournalEntry.isMishap : JournalEntry → Bool
  | moveIgnored .. | recordVanished _ => true
  | _ => false

/-- No mishap was noted down. An entry that tells of one can only be the detector's own. -/
structure Gate.Smooth (g g' : Gate) : Prop where
  detector : g'.detector = g.detector
  journal : ∃ notes, g'.journal = g.journal ++ notes ∧
    ∀ e ∈ notes, e.isMishap = true → g.detector.Notes e

namespace Gate

variable {g g₁ g' : Gate} {a : Address} {k : ConnectionKey} {now : Instant}

theorem expiryNotes_calm (g : Gate) (a : Address) (now : Instant) :
    (g.expiryNotes a now).any (·.isMishap) = false := by
  simp only [expiryNotes]
  split <;> rfl

theorem escalationNotes_calm (l : Limiter) (b : Blocklist) (a : Address) (v : Verdict) :
    (escalationNotes l b a v).any (·.isMishap) = false := by
  cases v <;> rfl

theorem checkNotes_calm (g : Gate) (a : Address) (now : Instant) (r : Limited Verdict) :
    (g.checkNotes a now r).any (·.isMishap) = false := by
  simp only [checkNotes]
  split
  · rfl
  · rw [List.any_append, expiryNotes_calm, Bool.false_or]
    split
    · rfl
    · exact escalationNotes_calm ..

theorem penaltyNotes_calm (g : Gate) (a : Address) (amount : Float) (now : Instant)
    (r : Limited (Option Verdict)) :
    (g.penaltyNotes a amount now r).any (·.isMishap) = false := by
  simp only [penaltyNotes]
  split
  · rw [List.any_cons]
    split
    · rw [List.any_append, expiryNotes_calm]
      cases r.answer with
      | none => rfl
      | some v => exact escalationNotes_calm ..
    · rfl
  · rfl

theorem readNotes_calm (buffered : Nat) (reads : List Nat) :
    (readNotes buffered reads).any (·.isMishap) = false := by
  induction reads generalizing buffered with
  | nil => rfl
  | cons n rest ih => exact ih _

namespace Smooth

theorem adds {entries : List JournalEntry} (detector : g'.detector = g.detector)
    (journal : g'.journal = g.journal ++ entries) (calm : entries.any (·.isMishap) = false) :
    g.Smooth g' := by
  refine ⟨detector, entries, journal, ?_⟩
  intro e member mishap
  exact absurd mishap (List.any_eq_false.mp calm e member)

theorem silent (detector : g'.detector = g.detector) (journal : g'.journal = g.journal) :
    g.Smooth g' :=
  ⟨detector, [], journal.trans (List.append_nil _).symm, fun _ member => nomatch member⟩

theorem refl (g : Gate) : g.Smooth g := silent rfl rfl

theorem note (g : Gate) {entries : List JournalEntry} (calm : entries.any (·.isMishap) = false) :
    g.Smooth (g.note entries) :=
  adds rfl rfl calm

theorem trans (first : g.Smooth g₁) (second : g₁.Smooth g') : g.Smooth g' where
  detector := second.detector.trans first.detector
  journal := by
    obtain ⟨notes, same, own⟩ := first.journal
    obtain ⟨notes', same', own'⟩ := second.journal
    refine ⟨notes ++ notes', ?_, ?_⟩
    · rw [same', same, List.append_assoc]
    · intro e member mishap
      rcases List.mem_append.mp member with early | late
      · exact own e early mishap
      · exact first.detector ▸ own' e late mishap

theorem of_register {result : Except GateError ConnectionKey}
    (answer : g.register a now = (result, g')) : g.Smooth g' := by
  cases answer
  refine adds rfl rfl ?_
  rw [List.any_append, expiryNotes_calm]
  split <;> rfl

theorem of_check {v : Verdict} (answer : g.check a now = (v, g')) : g.Smooth g' := by
  cases answer
  exact adds rfl rfl (checkNotes_calm ..)

theorem of_penalizeBy {amount : Float} {v : Option Verdict}
    (answer : g.penalizeBy a amount now = (v, g')) : g.Smooth g' := by
  cases answer
  exact adds rfl rfl (penaltyNotes_calm ..)

theorem of_penalize {reason : Reason} {length : Option Duration}
    (answer : g.penalize a reason now = (length, g')) : g.Smooth g' := by
  cases answer
  exact of_penalizeBy rfl

theorem of_block {reason : Reason} {requested length : Option Duration}
    (answer : g.block a reason requested now = (length, g')) : g.Smooth g' := by
  cases answer
  exact adds rfl rfl rfl

theorem setState {s : ConnectionState} (may : g.registry.canMove k s = true) :
    g.Smooth (g.setState k s) := by
  obtain ⟨old, found, moves⟩ := Registry.canMove_iff.mp may
  obtain ⟨record, there, rfl⟩ := Option.map_eq_some_iff.mp found
  refine adds rfl rfl ?_
  rw [there]
  simp only [moves, if_true]
  rfl

theorem update (g : Gate) (k : ConnectionKey) (bytes : Nat) (now : Instant) :
    g.Smooth (g.update k bytes now) :=
  silent rfl rfl

theorem counted (g : Gate) (now : Instant) (c : Candidate) (q : Question) :
    g.Smooth (g.counted now c q) := by
  simp only [Gate.counted]
  split
  · exact refl g
  · exact update ..

theorem sampleReputation (g : Gate) (k : ConnectionKey) (now : Instant) :
    g.Smooth (g.sampleReputation k now) := by
  simp only [Gate.sampleReputation]
  split
  · exact silent rfl rfl
  · exact refl g

theorem noteDue (g : Gate) (now : Instant) {q : Question}
    (noted : ∀ n ∈ q.notes, g.detector.Notes n.2) : g.Smooth (g.noteDue now q) := by
  refine ⟨rfl, _, rfl, ?_⟩
  intro e member _
  obtain ⟨n, due, same⟩ := List.mem_map.mp member
  rw [List.span_eq_takeWhile_dropWhile] at due
  exact same ▸ noted n ((List.takeWhile_sublist _).subset due)

theorem release (g : Gate) (k : ConnectionKey) (now : Instant) : g.Smooth (g.release k now) := by
  refine adds rfl rfl ?_
  split <;> rfl

theorem recordAudit (g : Gate) (e : AuditEvent) : g.Smooth (g.recordAudit e) := by
  refine adds rfl rfl ?_
  cases g.sink <;> rfl

theorem turnAway {r : Rejection} {detail : Option String}
    (may : g.registry.canMove k .rejected = true) :
    g.Smooth (g.turnAway now r (some k) detail) := by
  refine (setState may).trans ?_
  simp only [Gate.turnAway, Option.map_some, Option.getD_some]
  refine Smooth.trans ?_ (release ..)
  refine Smooth.trans ?_ (recordAudit ..)
  exact silent rfl rfl

theorem refuse (g : Gate) (now : Instant) (a : Address) (peer : Peer) (e : GateError) :
    g.Smooth (g.refuse now a peer e).2 := by
  have found : g.Smooth (g.refusal now e).2 := by
    cases e with
    | blocked b _ => exact adds rfl rfl (expiryNotes_calm g b now)
    | connectionLimit => exact of_penalize rfl
    | configuration | internal => exact refl g
  rw [refuse_eq]
  simp only [Gate.turnAway, Option.map_none, Option.getD_none]
  refine Smooth.trans ?_ (recordAudit ..)
  exact found.trans (adds rfl rfl rfl)

end Smooth

end Gate

open Gate in
/-- Nothing goes amiss on an edge that starts with the record in order. -/
theorem Leads.smooth {now : Instant} {stop : Bool} {g g' : Gate} {p p' : Point}
    (edge : Leads now stop g p g' p') (before : p.Kept g) (noted : p.Noted g.detector) :
    g.Smooth g' := by
  have moves {k : ConnectionKey} {s : ConnectionState}
      (asked : p.move? g.settings.detection.failurePolicy = some (k, s)) :
      g.registry.canMove k s = true := before.may asked
  cases edge with
  | registered free => exact .of_register free
  | refused no => exact (Smooth.of_register no).trans (.refuse ..)
  | allowed v | blocked v => exact .of_check v
  | exhausted v _ | throttled v _ => exact (Smooth.of_check v).trans (.adds rfl rfl rfl)
  | greetingRead | greetingLate | greetingLasts => exact .note _ (readNotes_calm ..)
  | welcomed =>
      refine (Smooth.update ..).trans (.trans (.setState ?_) (.sampleReputation ..))
      exact (Registry.canMove_of_state? (Registry.state?_update ..) _).trans (moves rfl)
  | disconnected => exact (Smooth.update ..).trans (.note _ rfl)
  | malformed _ penalty =>
      exact (Smooth.update ..).trans (.trans (.note _ rfl) (.of_penalize penalty))
  | vanished gone =>
      obtain ⟨record, there⟩ := before.found
      cases gone.symm.trans there
  | answered | unanswered | opinionLeft | opinionLasts => exact .noteDue _ _ noted
  | ruled =>
      refine (Smooth.counted ..).trans (.setState ?_)
      exact (Registry.canMove_of_state? (state?_counted ..) _).trans (moves rfl)
  | failed | crashed | tooLate => exact (Smooth.counted ..).trans (.note _ rfl)
  | suspected penalty _ => exact (Smooth.of_penalizeBy penalty).trans (.note _ rfl)
  | convicted penalty => exact .of_penalizeBy penalty
  | turnedAway penalty | failsClosed _ penalty => exact .of_penalize penalty
  | banned penalty block => exact (Smooth.of_penalize penalty).trans (.of_block block)
  | failsOpen policy =>
      refine (Smooth.setState (moves (if_pos policy))).trans ?_
      refine Smooth.trans ?_ (.recordAudit ..)
      exact .silent rfl rfl
  | rejected => exact .turnAway (moves rfl)
  | cancelled =>
      refine Smooth.trans ?_ (.release ..)
      exact .adds rfl rfl rfl
  | accepted => exact (Smooth.setState (moves rfl)).trans (.adds rfl rfl rfl)
  | delayStopped | delayLeft | delayOver | delayLasts | greetingStopped | asked | opinionStopped
  | passed => exact .refl _

/-- The record of the connection is as it has to be, and what is still to be noted down about it
comes from the detector. -/
structure Point.InOrder (g : Gate) (p : Point) : Prop where
  numbered : g.registry.Numbered
  kept : p.Kept g
  noted : p.Noted g.detector

/-- A connection is in order at a point: it has its record if it holds a key, the move that the
gate asks for there is made, and when the detector is to be asked about it the record is found. -/
structure Gate.Orderly (g : Gate) (p : Point) : Prop where
  held : ∀ k, p.held? = some k → g.registry.isLive k = true
  moves : ∀ k s, p.move? g.settings.detection.failurePolicy = some (k, s) →
    g.registry.canMove k s = true
  found : ∀ c h, p = .asking c h → ∃ record, g.registry.record? c.key = some record

theorem Point.InOrder.orderly {g : Gate} {p : Point} (order : p.InOrder g) : g.Orderly p where
  held _ := order.kept.live
  moves _ _ := order.kept.may
  found c h here := by
    subst here
    exact order.kept.found

theorem Path.inOrder {now : Instant} {stop : Bool} {g g' : Gate} {p p' : Point}
    (path : Path now stop g p g' p') (before : p.InOrder g) : p'.InOrder g' ∧ g.Smooth g' :=
  path.preserves (I := fun g' p' => p'.InOrder g' ∧ g.Smooth g')
    (fun edge before => by
      obtain ⟨⟨numbered, kept, noted⟩, smooth⟩ := before
      exact ⟨⟨edge.numbered numbered, edge.kept numbered kept, edge.noted noted⟩,
        smooth.trans (edge.smooth kept noted)⟩)
    ⟨before, .refl g⟩

end AdmissionGate
