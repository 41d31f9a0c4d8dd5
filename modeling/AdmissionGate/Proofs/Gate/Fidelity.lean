import AdmissionGate.Proofs.Gate.Soundness

/-!
Fidelity of the bytes in traffic. A connection that is accepted hands on every byte its peer
sent and that was taken, in order and beginning with the handshake; the rest is still with the
peer, and the record of the connection counts what was taken.
-/

namespace AdmissionGate

/-- At the turn that accepts a connection its bytes are whole. -/
theorem Traffic.Reachable.accepted_bytes {t : Traffic} (reachable : t.Reachable) {x : Admission}
    (present : x ∈ t.admissions) (under_way : x.isOver = false) {now : Instant} {stop : Bool}
    {c : Accepted} {rest : Peer} {trail : List StageResult}
    (accepts : (x.proceed t.gate now stop).1.progress =
      some (.finished (.accepted c) rest trail)) :
    c.buffered ++ rest.bytesLeft = x.peer.bytesLeft ∧
      c.buffered.length ≤ t.gate.settings.handshake.budget ∧
      t.gate.settings.handshake.parse c.buffered = .complete c.handshake ∧
      t.gate.settings.handshake.parse (c.buffered.take c.handshake.frameLength) =
        .complete c.handshake ∧
      (∀ record, (x.proceed t.gate now stop).2.registry.record? c.key = some record →
        record.bytesIn = c.buffered.length) ∧
      (c.key ∉ t.released →
        ∃ record, (x.proceed t.gate now stop).2.registry.record? c.key = some record) := by
  have sound := reachable.sound
  have before := (sound.each x present).toPoint under_way sound.numbered
  obtain ⟨-, bytes, record, -⟩ := Admission.proceed_sound under_way before now stop
  rw [(x.proceed_keeps t.gate now stop).1] at bytes
  simp only [Admission.point, accepts] at bytes record
  obtain ⟨whole, fits, parsed⟩ := bytes
  refine ⟨whole, fits, parsed, HandshakeSettings.parse_take_frame parsed, ?_, ?_⟩
  · intro found there
    exact (record.tells found there).2.2
  · intro kept
    cases found : (x.proceed t.gate now stop).2.registry.record? c.key with
    | none => exact (kept (record.there found)).elim
    | some there => exact ⟨there, rfl⟩

/-- All that was taken of a connection, with one byte behind the handshake. -/
theorem Sample.accepted_whole :
    ∃ c rest trail, Sample.accepted.1.progress = some (.finished (.accepted c) rest trail) ∧
      c.buffered.length = 15 ∧ c.buffered ++ rest.bytesLeft = Sample.arrived.peer.bytesLeft := by
  have sized : (Sample.accepted.1.connection?.map fun c => c.buffered.length) = some 15 := by
    decide +kernel
  obtain ⟨c, found, size⟩ := Option.map_eq_some_iff.mp sized
  obtain ⟨rest, trail, progress⟩ := Admission.progress_of_connection? found
  have accepts := progress
  rw [Sample.accepted] at accepts
  have present : Sample.waiting.1 ∈ Sample.midway.admissions := List.mem_singleton_self _
  have bytes := Sample.midway_reachable.accepted_bytes present (by decide +kernel) accepts
  rw [Sample.waiting, (Admission.proceed_address ..).2] at bytes
  exact ⟨c, rest, trail, progress, size, bytes.1⟩

end AdmissionGate
