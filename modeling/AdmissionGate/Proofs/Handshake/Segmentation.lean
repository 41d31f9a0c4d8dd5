import AdmissionGate.Proofs.Handshake.Reading

/-!
How a stream is cut and timed does not matter. What reading a handshake gives is a function of
the bytes that the peer sends in time and of how it ends, and of nothing else: neither of the
pieces, nor of their instants, nor of what was taken while another stage kept the client waiting.
-/

namespace AdmissionGate

inductive StreamEnd where
  | silence
  | close
  | failure (fault : ReadFault)

namespace StreamEnd

/-- How waiting for a handshake fails that never gets a decision. -/
def error (timeout : Duration) : StreamEnd → HandshakeError
  | silence => .timeout timeout
  | close => .connectionClosed
  | failure fault => .readFailed fault

end StreamEnd

namespace Peer

/-- The peer sends `bytes`, in pieces that are not empty, and then `ending`; all of that is due
by `deadline`. What stands behind a close or a failure is never read. -/
inductive Delivers (deadline : Instant) : List UInt8 → StreamEnd → Peer → Prop
  | silence : Delivers deadline [] .silence []
  | close {due : Instant} {rest : Peer} (in_time : due ≤ deadline) :
      Delivers deadline [] .close (⟨due, .close⟩ :: rest)
  | failure {due : Instant} {fault : ReadFault} {rest : Peer} (in_time : due ≤ deadline) :
      Delivers deadline [] (.failure fault) (⟨due, .fail fault⟩ :: rest)
  | send {due : Instant} {piece bytes : List UInt8} {ending : StreamEnd} {rest : Peer}
      (in_time : due ≤ deadline) (not_empty : piece ≠ [])
      (later : Delivers deadline bytes ending rest) :
      Delivers deadline (piece ++ bytes) ending (⟨due, .send piece⟩ :: rest)

namespace Delivers

variable {deadline now : Instant} {want : Nat} {bytes : List UInt8} {ending : StreamEnd}
  {peer rest : Peer}

theorem bytesLeft (delivers : peer.Delivers deadline bytes ending) : peer.bytesLeft = bytes := by
  induction delivers with
  | silence | close | failure => rfl
  | send _ _ _ ih => rw [Peer.bytesLeft, ih]

/-- A read leaves what it does not take. -/
theorem read {taken : List UInt8} (delivers : peer.Delivers deadline bytes ending)
    (read : peer.read now want = .bytes taken rest) :
    ∃ left, bytes = taken ++ left ∧ rest.Delivers deadline left ending := by
  have gives := peer.read_gives now want
  rw [read] at gives
  cases gives with
  | closed => exact ⟨bytes, rfl, delivers⟩
  | all =>
      cases delivers with
      | send _ _ later => exact ⟨_, rfl, later⟩
  | front _ long =>
      cases delivers with
      | send in_time _ later =>
          refine ⟨_, ?_, .send in_time ?_ later⟩
          · rw [← List.append_assoc, List.take_append_drop]
          · intro nothing
            exact Nat.not_le.mpr long (List.drop_eq_nil_iff.mp nothing)

/-- Only the end of the stream is read as no bytes. -/
theorem of_read_nil (delivers : peer.Delivers deadline bytes ending) (some_room : 0 < want)
    (read : peer.read now want = .bytes [] rest) : bytes = [] ∧ ending = .close := by
  have gives := peer.read_gives now want
  rw [read] at gives
  generalize arrival : Arrival.bytes [] rest = x at gives
  cases gives with
  | silent | early | broken => contradiction
  | closed =>
      cases delivers with
      | close => exact ⟨rfl, rfl⟩
  | all =>
      cases delivers with
      | send _ not_empty _ =>
          cases arrival
          contradiction
  | front _ long =>
      injection arrival with nothing
      have counted := congrArg List.length nothing
      rw [List.length_take, List.length_nil] at counted
      omega

theorem of_read_failed {fault : ReadFault} (delivers : peer.Delivers deadline bytes ending)
    (read : peer.read now want = .failed fault) : bytes = [] ∧ ending = .failure fault := by
  have gives := peer.read_gives now want
  rw [read] at gives
  cases gives with
  | broken =>
      cases delivers with
      | failure => exact ⟨rfl, rfl⟩

/-- Only a silent peer has nothing due in time. -/
theorem of_late (delivers : peer.Delivers deadline bytes ending)
    (late : ∀ due, peer.nextDue? = some due → deadline < due) : bytes = [] ∧ ending = .silence := by
  cases delivers with
  | silence => exact ⟨rfl, rfl⟩
  | close in_time | failure in_time | send in_time =>
      exact absurd in_time (Nat.not_le.mpr (late _ rfl))

/-- A watch leaves what it does not take. -/
theorem watch {limit : Nat} {buffered : List UInt8}
    (delivers : peer.Delivers deadline bytes ending) :
    ∃ left, (watch limit now buffered peer).buffered ++ left = buffered ++ bytes ∧
      (watch limit now buffered peer).peer.Delivers deadline left ending := by
  fun_induction AdmissionGate.watch limit now buffered peer generalizing bytes with
  | case1 | case2 | case3 => exact ⟨bytes, rfl, delivers⟩
  | case4 buffered peer room rest read =>
      obtain ⟨_, rfl, after⟩ := delivers.read read
      exact ⟨_, rfl, after⟩
  | case5 buffered peer room b bs rest read ih =>
      obtain ⟨left, rfl, after⟩ := delivers.read read
      rw [← List.append_assoc]
      exact ih after

end Delivers

end Peer

namespace HandshakeSettings

variable {s : HandshakeSettings} {bytes : List UInt8}

/-- The answer of the parser on the shortest front of `bytes` that has one. -/
def firstDecision? (s : HandshakeSettings) (bytes : List UInt8) :
    Option (Except HandshakeError Handshake) :=
  (List.range (bytes.length + 1)).findSome? fun n => (s.parse (bytes.take n)).decision?

/-- Within the budget, an answer on a front is the answer on the whole. -/
theorem parse_of_front (fits : bytes.length ≤ s.budget) {n : Nat}
    (decided : s.parse (bytes.take n) ≠ .needMore) : s.parse bytes = s.parse (bytes.take n) := by
  have split := List.take_append_drop n bytes
  have enough : (bytes.take n).length + (bytes.drop n).length ≤ s.budget := by
    rwa [← List.length_append, split]
  have same := parse_append_of_decided (.inl enough) decided
  rwa [split] at same

theorem firstDecision?_eq_decision? (fits : bytes.length ≤ s.budget) :
    s.firstDecision? bytes = (s.parse bytes).decision? := by
  have whole : s.parse bytes = s.parse (bytes.take bytes.length) := by rw [List.take_length]
  cases found : s.firstDecision? bytes with
  | none =>
      simp only [firstDecision?, List.findSome?_eq_none_iff, List.mem_range] at found
      rw [whole]
      exact (found bytes.length (Nat.lt_succ_self _)).symm
  | some r =>
      obtain ⟨n, -, answer⟩ := List.exists_of_findSome?_eq_some found
      rw [parse_of_front fits (Parsed.ne_needMore_of_decision answer), answer]

/-- How reading a stream of bytes goes, however they are cut: the first answer of the parser
within the budget counts, or else the end of the stream. -/
def outcome (s : HandshakeSettings) (bytes : List UInt8) (ending : StreamEnd) :
    Except HandshakeError Handshake :=
  (s.firstDecision? (bytes.take s.budget)).getD (.error (ending.error s.timeout))

theorem outcome_of_decision {buffered rest : List UInt8} {r : Except HandshakeError Handshake}
    (fits : buffered.length ≤ s.budget) (answer : (s.parse buffered).decision? = some r)
    (ending : StreamEnd) : s.outcome (buffered ++ rest) ending = r := by
  have decided := Parsed.ne_needMore_of_decision answer
  have short : ((buffered ++ rest).take s.budget).length ≤ s.budget := List.length_take_le ..
  rw [outcome, firstDecision?_eq_decision? short]
  rw [List.take_append, List.take_of_length_le fits] at short ⊢
  rw [parse_append_of_decided (.inl (List.length_append ▸ short)) decided, answer]
  rfl

/-- Without an answer and without more bytes. -/
theorem outcome_of_needMore {buffered : List UInt8} (undecided : s.parse buffered = .needMore)
    (ending : StreamEnd) :
    s.outcome (buffered ++ []) ending = .error (ending.error s.timeout) := by
  have fits := Nat.le_of_lt (length_lt_of_needMore undecided)
  rw [List.append_nil, outcome, List.take_of_length_le fits, firstDecision?_eq_decision? fits,
    undecided]
  rfl

/-- A connection that brings `bytes` and then `ending` by `deadline`: the first of the bytes
are buffered, within the budget, and the peer delivers the others. -/
structure Carries (s : HandshakeSettings) (deadline : Instant) (bytes : List UInt8)
    (ending : StreamEnd) (buffered : List UInt8) (peer : Peer) : Prop where
  fits : buffered.length ≤ s.budget
  delivers : ∃ rest, buffered ++ rest = bytes ∧ peer.Delivers deadline rest ending

variable {deadline now : Instant} {ending : StreamEnd} {buffered : List UInt8} {peer : Peer}

theorem Carries.watch (carries : s.Carries deadline bytes ending buffered peer) (now : Instant) :
    s.Carries deadline bytes ending (watch s.budget now buffered peer).buffered
      (watch s.budget now buffered peer).peer := by
  obtain ⟨fits, rest, rfl, delivers⟩ := carries
  exact ⟨(watch_taken ..).fits fits, delivers.watch⟩

def watchEach (s : HandshakeSettings) : List Instant → List UInt8 → Peer → List UInt8 × Peer
  | [], buffered, peer => (buffered, peer)
  | now :: later, buffered, peer =>
      let w := AdmissionGate.watch s.budget now buffered peer
      s.watchEach later w.buffered w.peer

/-- Watching until a deadline comes down to watches at some instants. -/
theorem watchUntil_eq_watchEach (s : HandshakeSettings) (deadline : Instant) (rounds : Nat)
    (now : Instant) (buffered : List UInt8) (peer : Peer) :
    ∃ watches, ((watchUntil s.budget deadline rounds now buffered peer).1.buffered,
        (watchUntil s.budget deadline rounds now buffered peer).1.peer) =
      s.watchEach watches buffered peer := by
  induction rounds generalizing now buffered peer with
  | zero => exact ⟨[], rfl⟩
  | succ rounds ih =>
      simp only [watchUntil]
      split
      · exact ⟨[now], rfl⟩
      split
      · rename_i due _
        split
        · obtain ⟨later, same⟩ := ih (max now due)
            (AdmissionGate.watch s.budget now buffered peer).buffered
            (AdmissionGate.watch s.budget now buffered peer).peer
          exact ⟨now :: later, same⟩
        · exact ⟨[now], rfl⟩
      · exact ⟨[now], rfl⟩

theorem Carries.watchEach (carries : s.Carries deadline bytes ending buffered peer)
    (watches : List Instant) :
    s.Carries deadline bytes ending (s.watchEach watches buffered peer).1
      (s.watchEach watches buffered peer).2 := by
  induction watches generalizing buffered peer with
  | nil => exact carries
  | cons now later ih => exact ih (carries.watch now)

/-- Reading depends on the bytes alone, and takes no more of them than the budget allows. -/
theorem Reading.outcome {r : Except HandshakeError Handshake × Collection × Instant}
    (reading : s.Reading deadline now buffered peer r)
    (carries : s.Carries deadline bytes ending buffered peer) :
    r.1 = s.outcome bytes ending ∧ r.2.1.buffered ++ r.2.1.peer.bytesLeft = bytes ∧
      r.2.1.buffered.length ≤ s.budget := by
  obtain ⟨fits, rest, rfl, delivers⟩ := carries
  induction reading generalizing rest with
  | decided answer =>
      refine ⟨(outcome_of_decision fits answer ending).symm, ?_, fits⟩
      rw [delivers.bytesLeft]
  | ended undecided asks read =>
      obtain ⟨left, taken, after⟩ := delivers.read read
      obtain ⟨rfl, rfl⟩ := delivers.of_read_nil asks read
      refine ⟨(outcome_of_needMore undecided .close).symm, ?_, fits⟩
      rw [after.bytesLeft, ← List.nil_append left, ← taken]
  | broken undecided asks read =>
      obtain ⟨rfl, rfl⟩ := delivers.of_read_failed read
      refine ⟨(outcome_of_needMore undecided (.failure _)).symm, ?_, fits⟩
      rw [delivers.bytesLeft]
  | received undecided asks read later ih =>
      obtain ⟨left, rfl, after⟩ := delivers.read read
      have room := (Taken.of_read read).fits fits
      rw [← List.append_assoc]
      exact ih room left after
  | awaited undecided asks read next in_time later ih => exact ih fits rest delivers
  | expired undecided asks read late =>
      obtain ⟨rfl, rfl⟩ := delivers.of_late late
      refine ⟨(outcome_of_needMore undecided .silence).symm, ?_, fits⟩
      rw [delivers.bytesLeft]

theorem readHandshake_outcome {start : Instant} (watches : List Instant)
    (carries : s.Carries (start + s.timeout) bytes ending buffered peer) :
    let left := s.watchEach watches buffered peer
    let r := s.readHandshake start left.1 left.2
    r.1 = s.outcome bytes ending ∧ r.2.1.buffered ++ r.2.1.peer.bytesLeft = bytes ∧
      r.2.1.buffered.length ≤ s.budget :=
  (reading_readHandshake ..).outcome (carries.watchEach watches)

/-- However two peers cut and time the same bytes, reading gives the same. -/
theorem readHandshake_segmentation (s : HandshakeSettings) {bytes : List UInt8}
    {ending : StreamEnd} {start₁ start₂ : Instant} {buffered₁ buffered₂ : List UInt8}
    {peer₁ peer₂ : Peer}
    (first : s.Carries (start₁ + s.timeout) bytes ending buffered₁ peer₁)
    (second : s.Carries (start₂ + s.timeout) bytes ending buffered₂ peer₂)
    (watches₁ watches₂ : List Instant) :
    let left₁ := s.watchEach watches₁ buffered₁ peer₁
    let left₂ := s.watchEach watches₂ buffered₂ peer₂
    let r₁ := s.readHandshake start₁ left₁.1 left₁.2
    let r₂ := s.readHandshake start₂ left₂.1 left₂.2
    r₁.1 = r₂.1 ∧ r₁.1 = s.outcome bytes ending ∧
      (r₁.2.1.buffered ++ r₁.2.1.peer.bytesLeft = bytes ∧ r₁.2.1.buffered.length ≤ s.budget) ∧
      r₂.2.1.buffered ++ r₂.2.1.peer.bytesLeft = bytes ∧ r₂.2.1.buffered.length ≤ s.budget := by
  intro left₁ left₂ r₁ r₂
  have one := readHandshake_outcome watches₁ first
  have two := readHandshake_outcome watches₂ second
  exact ⟨one.1.trans two.1.symm, one.1, one.2, two.2⟩

def greeting : List UInt8 := (Handshake.ofFields 767 "mc.org" 25565 .login).toBytes

def promptPeer : Peer := [⟨0, .send (greeting ++ [1])⟩, ⟨0, .close⟩]

def hesitantPeer : Peer :=
  [⟨3, .send (greeting.take 2)⟩, ⟨20, .send ((greeting.drop 2).take 9)⟩,
    ⟨20, .send ((greeting.drop 2).drop 9 ++ [1])⟩, ⟨40, .close⟩]

/-- The client that hesitates is read in the end, as the other one is at once. -/
theorem readHandshake_hesitantPeer :
    let settings : HandshakeSettings := {}
    let left := settings.watchEach [1, 3, 5] [] hesitantPeer
    let prompt := settings.readHandshake 0 [] promptPeer
    let hesitant := settings.readHandshake 10 left.1 left.2
    left.1 = greeting.take 2 ∧ hesitant.1 = prompt.1 ∧
      hesitant.1.toOption = some (Handshake.ofFields 767 "mc.org" 25565 .login) ∧
      hesitant.2.1.buffered ++ hesitant.2.1.peer.bytesLeft = greeting ++ [1] := by
  intro settings left prompt hesitant
  have limit : 40 ≤ settings.timeout := by decide
  have in_time {due : Instant} (soon : due ≤ 40) (start : Instant) :
      due ≤ start + settings.timeout :=
    Nat.le_trans soon (Nat.le_trans limit (Nat.le_add_left ..))
  have first : settings.Carries (0 + settings.timeout) (greeting ++ [1]) .close [] promptPeer :=
    ⟨Nat.zero_le _, _, by decide +kernel,
      .send (in_time (by decide) 0) (by decide +kernel) (.close (in_time (by decide) 0))⟩
  have second :
      settings.Carries (10 + settings.timeout) (greeting ++ [1]) .close [] hesitantPeer :=
    ⟨Nat.zero_le _, _, by decide +kernel,
      .send (in_time (by decide) 10) (by decide +kernel)
        (.send (in_time (by decide) 10) (by decide +kernel)
          (.send (in_time (by decide) 10) (by decide +kernel)
            (.close (in_time (by decide) 10))))⟩
  obtain ⟨same, -, ⟨whole, -⟩, -⟩ :=
    readHandshake_segmentation settings second first [1, 3, 5] []
  exact ⟨by decide +kernel, same, by decide +kernel, whole⟩

end HandshakeSettings

end AdmissionGate
