import AdmissionGate.Proofs.Handshake.Finality
import AdmissionGate.Proofs.Handshake.Intake

/-!
How a handshake is read, without the count of rounds and without the look at the budget that the
loop has: the parser is asked, and as long as it has no answer some bytes are asked for. The
rounds never run out, since each one but the first takes a delivery, and the budget is never used
up before the parser gives up.
-/

namespace AdmissionGate

namespace Peer

def pending (now : Instant) (p : Peer) : Nat := (p.dropWhile (·.due ≤ now)).length

theorem pending_of_read {p rest : Peer} {now : Instant} {want : Nat} {bs : List UInt8}
    (read : p.read now want = .bytes bs rest) : rest.pending now ≤ p.pending now := by
  have gives := p.read_gives now want
  rw [read] at gives
  cases gives with
  | closed ready => exact Nat.le_refl _
  | all ready | front ready => simp [pending, ready]

theorem pending_of_waiting {p : Peer} {now : Instant} {want : Nat}
    (read : p.read now want = .waiting) : p.pending now = p.length := by
  have gives := p.read_gives now want
  rw [read] at gives
  cases gives with
  | silent => rfl
  | early early => simp [pending, early]

theorem pending_lt_length {p : Peer} {due : Instant} (next : p.nextDue? = some due)
    (now : Instant) : p.pending (max now due) < p.length := by
  cases p with
  | nil => contradiction
  | cons d rest =>
      cases next
      have ready : d.due ≤ max now d.due := Nat.le_max_right ..
      simp only [pending, List.dropWhile_cons, ready, decide_true, if_true, List.length_cons]
      exact Nat.lt_succ_of_le (List.dropWhile_sublist _).length_le

end Peer

def Parsed.decision? : Parsed → Option (Except HandshakeError Handshake)
  | .complete handshake => some (.ok handshake)
  | .failed e => some (.error e)
  | .needMore => none

theorem Parsed.ne_needMore_of_decision {p : Parsed} {r : Except HandshakeError Handshake}
    (answer : p.decision? = some r) : p ≠ .needMore := by
  rintro rfl
  contradiction

namespace HandshakeSettings

def wanted (s : HandshakeSettings) (buffered : List UInt8) : Nat :=
  min (s.budget - buffered.length) readChunk

/-- Reading a handshake without a count of rounds and without a look at the budget: the parser
is asked, and as long as it has no answer, some bytes are asked for. -/
inductive Reading (s : HandshakeSettings) (deadline : Instant) :
    Instant → List UInt8 → Peer → Except HandshakeError Handshake × Collection × Instant → Prop
  | decided {now : Instant} {buffered : List UInt8} {peer : Peer}
      {r : Except HandshakeError Handshake} (answer : (s.parse buffered).decision? = some r) :
      Reading s deadline now buffered peer (r, ⟨some r, buffered, peer⟩, now)
  | ended {now : Instant} {buffered : List UInt8} {peer rest : Peer}
      (undecided : s.parse buffered = .needMore) (asks : 0 < s.wanted buffered)
      (read : peer.read now (s.wanted buffered) = .bytes [] rest) :
      Reading s deadline now buffered peer
        (.error .connectionClosed, ⟨some (.error .connectionClosed), buffered, rest⟩, now)
  | broken {now : Instant} {buffered : List UInt8} {peer : Peer} {fault : ReadFault}
      (undecided : s.parse buffered = .needMore) (asks : 0 < s.wanted buffered)
      (read : peer.read now (s.wanted buffered) = .failed fault) :
      Reading s deadline now buffered peer
        (.error (.readFailed fault), ⟨some (.error (.readFailed fault)), buffered, peer⟩, now)
  | received {now : Instant} {buffered : List UInt8} {peer rest : Peer} {b : UInt8}
      {bs : List UInt8} {r : Except HandshakeError Handshake × Collection × Instant}
      (undecided : s.parse buffered = .needMore) (asks : 0 < s.wanted buffered)
      (read : peer.read now (s.wanted buffered) = .bytes (b :: bs) rest)
      (later : Reading s deadline now (buffered ++ b :: bs) rest r) :
      Reading s deadline now buffered peer r
  | awaited {now due : Instant} {buffered : List UInt8} {peer : Peer}
      {r : Except HandshakeError Handshake × Collection × Instant}
      (undecided : s.parse buffered = .needMore) (asks : 0 < s.wanted buffered)
      (read : peer.read now (s.wanted buffered) = .waiting)
      (next : peer.nextDue? = some due) (in_time : due ≤ deadline)
      (later : Reading s deadline (max now due) buffered peer r) :
      Reading s deadline now buffered peer r
  | expired {now : Instant} {buffered : List UInt8} {peer : Peer}
      (undecided : s.parse buffered = .needMore) (asks : 0 < s.wanted buffered)
      (read : peer.read now (s.wanted buffered) = .waiting)
      (late : ∀ due, peer.nextDue? = some due → deadline < due) :
      Reading s deadline now buffered peer
        (.error (.timeout s.timeout), ⟨none, buffered, peer⟩, deadline)

variable {s : HandshakeSettings} {deadline now : Instant} {buffered : List UInt8} {peer : Peer}

theorem wanted_pos (undecided : s.parse buffered = .needMore) : 0 < s.wanted buffered := by
  have room := length_lt_of_needMore undecided
  simp only [wanted, readChunk]
  omega

theorem reading_collect_of_some {r : Except HandshakeError Handshake}
    (ended : (s.collect now buffered peer).result = some r) :
    Reading s deadline now buffered peer (r, s.collect now buffered peer, now) := by
  fun_induction collect s now buffered peer with
  | case1 buffered peer h answer =>
      cases ended
      exact .decided (by rw [answer]; rfl)
  | case2 buffered peer e answer =>
      cases ended
      exact .decided (by rw [answer]; rfl)
  | case3 buffered peer undecided full =>
      exact absurd (length_lt_of_needMore undecided) (Nat.not_lt.mpr full)
  | case4 => cases ended
  | case5 buffered peer undecided room fault read =>
      cases ended
      exact .broken undecided (wanted_pos undecided) read
  | case6 buffered peer undecided room rest read =>
      cases ended
      exact .ended undecided (wanted_pos undecided) read
  | case7 buffered peer undecided room b bs rest read ih =>
      exact .received undecided (wanted_pos undecided) read (ih ended)

structure Pauses (s : HandshakeSettings) (now : Instant) (peer : Peer) (c : Collection) : Prop where
  undecided : s.parse c.buffered = .needMore
  read : c.peer.read now (s.wanted c.buffered) = .waiting
  shorter : c.peer.length ≤ peer.pending now

theorem pauses_collect (paused : (s.collect now buffered peer).result = none) :
    s.Pauses now peer (s.collect now buffered peer) := by
  fun_induction collect s now buffered peer with
  | case4 buffered peer undecided room read =>
      exact ⟨undecided, read, Nat.le_of_eq (Peer.pending_of_waiting read).symm⟩
  | case7 buffered peer undecided room b bs rest read ih =>
      have later := ih paused
      exact ⟨later.undecided, later.read, Nat.le_trans later.shorter (Peer.pending_of_read read)⟩
  | _ => cases paused

theorem reading_collect_of_none {r : Except HandshakeError Handshake × Collection × Instant}
    (paused : (s.collect now buffered peer).result = none)
    (later : Reading s deadline now (s.collect now buffered peer).buffered
      (s.collect now buffered peer).peer r) :
    Reading s deadline now buffered peer r := by
  fun_induction collect s now buffered peer with
  | case4 => exact later
  | case7 buffered peer undecided room b bs rest read ih =>
      exact .received undecided (wanted_pos undecided) read (ih paused later)
  | _ => cases paused

def concluded (s : HandshakeSettings) (stop : Collection × Instant) :
    Except HandshakeError Handshake × Collection × Instant :=
  (stop.1.result.getD (.error (.timeout s.timeout)), stop.1, stop.2)

theorem readHandshake_eq (s : HandshakeSettings) (start : Instant) (buffered : List UInt8)
    (peer : Peer) :
    s.readHandshake start buffered peer =
      s.concluded (s.collectUntil (start + s.timeout) (peer.length + 1) start buffered peer) := by
  simp only [readHandshake, concluded]
  split <;> rename_i result <;> rw [result] <;> rfl

/-- With a round for each delivery that is not due yet, and one for those that are. -/
theorem reading_collectUntil {rounds : Nat} (enough : peer.pending now < rounds) :
    Reading s deadline now buffered peer
      (s.concluded (s.collectUntil deadline rounds now buffered peer)) := by
  induction rounds generalizing now buffered peer with
  | zero => contradiction
  | succ rounds ih =>
      simp only [collectUntil]
      split
      · rename_i r ended
        simp only [concluded, ended]
        exact reading_collect_of_some ended
      rename_i paused
      have pauses := pauses_collect paused
      apply reading_collect_of_none paused
      generalize s.collect now buffered peer = c at pauses paused ⊢
      have asks := wanted_pos pauses.undecided
      have expired (late : ∀ due, c.peer.nextDue? = some due → deadline < due) :
          Reading s deadline now c.buffered c.peer (s.concluded (c, deadline)) := by
        obtain ⟨result, buffered, peer⟩ := c
        cases paused
        exact .expired pauses.undecided asks pauses.read late
      split
      · rename_i due next
        split
        · rename_i in_time
          apply Reading.awaited pauses.undecided asks pauses.read next in_time
          apply ih
          have fewer := Peer.pending_lt_length next now
          have shorter := pauses.shorter
          omega
        · rename_i late
          apply expired
          intro due' next'
          cases next.symm.trans next'
          exact Nat.lt_of_not_le late
      · rename_i silent
        apply expired
        intro due next
        rw [silent] at next
        contradiction

theorem reading_readHandshake (s : HandshakeSettings) (start : Instant) (buffered : List UInt8)
    (peer : Peer) :
    Reading s (start + s.timeout) start buffered peer (s.readHandshake start buffered peer) := by
  rw [readHandshake_eq]
  exact reading_collectUntil (Nat.lt_succ_of_le (List.dropWhile_sublist _).length_le)

/-- More bytes do not change an answer, if they fit the budget or it has room for every number;
and a parser without an answer has room for more. So reading asks for some bytes each time, and
the parser, the peer or the deadline ends it. -/
theorem answers_final (s : HandshakeSettings) :
    (∀ bytes more : List UInt8,
      bytes.length + more.length ≤ s.budget ∨ VarInt.maxLength ≤ s.budget →
        s.parse bytes ≠ .needMore → s.parse (bytes ++ more) = s.parse bytes) ∧
    (∀ bytes, s.parse bytes = .needMore → bytes.length < s.budget) ∧
    ∀ start buffered peer,
      s.Reading (start + s.timeout) start buffered peer (s.readHandshake start buffered peer) := by
  refine ⟨?_, ?_, reading_readHandshake s⟩
  · intro bytes more enough decided
    exact parse_append_of_decided enough decided
  · intro bytes undecided
    exact length_lt_of_needMore undecided

def tightSettings : HandshakeSettings := { maxBytes := 5 }

/-- A frame that is too large stays so. One that would fit is waited for until the peer goes. -/
theorem tight_answers :
    let peer : Peer := [⟨3, .send [4, 0]⟩, ⟨7, .close⟩]
    let read := tightSettings.readHandshake 0 [] peer
    (∀ more, tightSettings.parse ([5, 0] ++ more) = .failed (.budgetExceeded 5)) ∧
      tightSettings.parse [4, 0] = .needMore ∧ [4, 0].length < tightSettings.budget ∧
      tightSettings.Reading (0 + tightSettings.timeout) 0 [] peer read ∧
      read.2.1.buffered = [4, 0] ∧ read.2.2 = 7 := by
  intro peer read
  obtain ⟨stays, room, reading⟩ := answers_final tightSettings
  have large : tightSettings.parse [5, 0] = .failed (.budgetExceeded 5) := by decide +kernel
  have undecided : tightSettings.parse [4, 0] = .needMore := by decide +kernel
  refine ⟨fun more => ?_, undecided, room _ undecided, reading 0 [] peer, by decide +kernel,
    by decide +kernel⟩
  rw [stays [5, 0] more (.inr (by decide)) (by simp [large]), large]

/-- With less room for a number, the bytes that follow still tell. -/
example :
    let settings : HandshakeSettings := { maxBytes := 3 }
    settings.parse [0x80, 0x80, 0x80] = .failed (.budgetExceeded 3) ∧
      settings.parse [0x80, 0x80, 0x80, 0x80, 0x80] = .failed .varIntTooLong := by
  decide +kernel

end HandshakeSettings

end AdmissionGate
