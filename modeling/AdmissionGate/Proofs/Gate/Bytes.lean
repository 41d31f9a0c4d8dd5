import AdmissionGate.Proofs.Gate.Frame
import AdmissionGate.Proofs.Handshake.Intake

/-!
The bytes of a connection on its way through the gate. At every point what was taken of them
and what the peer still sends are together what it sent, what was taken stays within the
budget, and from the greeting on it begins with the handshake.
-/

namespace AdmissionGate

/-- What was taken of a candidate, followed by what its peer still sends, is `whole`. -/
structure Candidate.Intact (c : Candidate) (limit : Nat) (whole : List UInt8) : Prop where
  whole : c.buffered ++ c.peer.bytesLeft = whole
  fits : c.buffered.length ≤ limit

structure Candidate.Welcome (c : Candidate) (s : HandshakeSettings) (whole : List UInt8)
    (h : Handshake) : Prop extends c.Intact s.budget whole where
  parsed : s.parse c.buffered = .complete h

namespace Candidate

variable {c : Candidate} {limit : Nat} {s : HandshakeSettings} {whole : List UInt8}
  {h : Handshake}

theorem Intact.taken (intact : c.Intact limit whole) {buffered : List UInt8} {peer : Peer}
    (taken : Taken limit c.buffered c.peer buffered peer) :
    Intact { c with buffered, peer } limit whole :=
  ⟨taken.whole.trans intact.whole, taken.fits intact.fits⟩

theorem Intact.watched (intact : c.Intact limit whole) (now : Instant) :
    (c.watched limit now).Intact limit whole :=
  intact.taken (watch_taken limit now c.buffered c.peer)

theorem Intact.read (intact : c.Intact s.budget whole) (now : Instant) :
    (c.read s now).Intact s.budget whole :=
  intact.taken (s.collect_taken now c.buffered c.peer)

theorem Welcome.watched (welcome : c.Welcome s whole h) (now : Instant) :
    (c.watched s.budget now).Welcome s whole h := by
  refine ⟨welcome.toIntact.watched now, ?_⟩
  obtain ⟨more, grown⟩ := (watch_taken s.budget now c.buffered c.peer).grows
  simp only [Candidate.watched, grown]
  exact HandshakeSettings.parse_append welcome.parsed more

theorem length_le_watched (c : Candidate) (limit : Nat) (now : Instant) :
    c.buffered.length ≤ (c.watched limit now).buffered.length := by
  obtain ⟨more, grown⟩ := (watch_taken limit now c.buffered c.peer).grows
  simp only [Candidate.watched, grown, List.length_append]
  exact Nat.le_add_right ..

end Candidate

/-- The bytes at a point, under these settings and of a peer that sent `whole` in all. -/
def Point.Intact (s : HandshakeSettings) (whole : List UInt8) : Point → Prop
  | .arriving _ peer => peer.bytesLeft = whole
  | .considering c | .delayed c _ | .greeting c _ | .resting (.waiting c (.delay _))
  | .resting (.waiting c (.greeting _)) => c.Intact s.budget whole
  | .greeted c result =>
      c.Intact s.budget whole ∧ ∀ h, result = .ok h → s.parse c.buffered = .complete h
  | .asking c h | .judged c h _ | .unjudged c h _ | .accepting c h _ => c.Welcome s whole h
  | .awaiting c q | .concluding c q _ | .resting (.waiting c (.opinion q)) =>
      c.Welcome s whole q.handshake ∧ q.known ≤ c.buffered.length
  | .resting (.finished (.accepted c) peer _) =>
      c.buffered ++ peer.bytesLeft = whole ∧ c.buffered.length ≤ s.budget ∧
        s.parse c.buffered = .complete c.handshake
  | .rejecting .. | .cancelling _ | .resting (.finished _ _ _) => True

theorem Leads.intact {now : Instant} {stop : Bool} {g g' : Gate} {p p' : Point}
    (edge : Leads now stop g p g' p') {whole : List UInt8}
    (before : p.Intact g.settings.handshake whole) : p'.Intact g'.settings.handshake whole := by
  rw [edge.settings]
  cases edge with
  | registered => exact ⟨before, Nat.zero_le _⟩
  | delayOver | delayLasts => exact before.watched now
  | greetingRead _ found =>
      refine ⟨before.read now, ?_⟩
      intro h complete
      rw [complete] at found
      exact HandshakeSettings.parse_collect found
  | greetingLate =>
      refine ⟨before.read now, ?_⟩
      intro h complete
      contradiction
  | greetingLasts => exact before.read now
  | welcomed => exact ⟨⟨before.1.whole, before.1.fits⟩, before.2 _ rfl⟩
  | asked => exact ⟨⟨⟨before.whole, before.fits⟩, before.parsed⟩, Nat.le_refl _⟩
  | opinionLasts =>
      exact ⟨before.1.watched now, Nat.le_trans before.2 (Candidate.length_le_watched ..)⟩
  | ruled | failed | crashed | tooLate => exact before.1
  | accepted => exact ⟨before.whole, before.fits, before.parsed⟩
  | allowed | throttled => exact ⟨before.whole, before.fits⟩
  | refused | exhausted | blocked | delayStopped | delayLeft | greetingStopped | disconnected
  | malformed | vanished | opinionStopped | opinionLeft | convicted | turnedAway | banned
  | failsClosed | rejected | cancelled => trivial
  | answered | unanswered | passed | suspected | failsOpen => exact before

end AdmissionGate
