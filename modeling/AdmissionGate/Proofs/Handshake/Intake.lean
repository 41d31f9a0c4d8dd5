import AdmissionGate.Handshake.Intake
import AdmissionGate.Proofs.Handshake.Grammar

/-!
Taking bytes in loses none. Reads move bytes from the peer to the end of what is buffered,
and stop at the budget; a handshake that was complete stays complete when more bytes come.
-/

namespace AdmissionGate

namespace Peer

inductive Gives (now : Instant) (want : Nat) : Peer → Arrival → Prop
  | silent : Gives now want [] .waiting
  | early {d : Delivery} {rest : Peer} (early : now < d.due) : Gives now want (d :: rest) .waiting
  | closed {due : Instant} {rest : Peer} (ready : due ≤ now) :
      Gives now want (⟨due, .close⟩ :: rest) (.bytes [] (⟨due, .close⟩ :: rest))
  | broken {due : Instant} {fault : ReadFault} {rest : Peer} (ready : due ≤ now) :
      Gives now want (⟨due, .fail fault⟩ :: rest) (.failed fault)
  | all {due : Instant} {bs : List UInt8} {rest : Peer} (ready : due ≤ now)
      (fits : bs.length ≤ want) : Gives now want (⟨due, .send bs⟩ :: rest) (.bytes bs rest)
  | front {due : Instant} {bs : List UInt8} {rest : Peer} (ready : due ≤ now)
      (long : want < bs.length) :
      Gives now want (⟨due, .send bs⟩ :: rest)
        (.bytes (bs.take want) (⟨due, .send (bs.drop want)⟩ :: rest))

theorem read_gives (p : Peer) (now : Instant) (want : Nat) :
    p.Gives now want (p.read now want) := by
  match p with
  | [] => exact .silent
  | ⟨due, signal⟩ :: rest =>
      simp only [read]
      split
      · rename_i early
        exact .early early
      rename_i ready
      rw [Nat.not_lt] at ready
      cases signal with
      | close => exact .closed ready
      | fail fault => exact .broken ready
      | send bs =>
          dsimp only
          split
          · rename_i fits
            rw [List.take_of_length_le fits]
            exact .all ready fits
          · rename_i long
            exact .front ready (Nat.lt_of_not_le long)

theorem bytesLeft_of_read {p rest : Peer} {now : Instant} {want : Nat} {bs : List UInt8}
    (read : p.read now want = .bytes bs rest) : bs ++ rest.bytesLeft = p.bytesLeft := by
  have gives := p.read_gives now want
  rw [read] at gives
  cases gives with
  | closed | all => rfl
  | front =>
      simp only [bytesLeft]
      rw [← List.append_assoc, List.take_append_drop]

theorem length_le_of_read {p rest : Peer} {now : Instant} {want : Nat} {bs : List UInt8}
    (read : p.read now want = .bytes bs rest) : bs.length ≤ want := by
  have gives := p.read_gives now want
  rw [read] at gives
  cases gives with
  | closed => exact Nat.zero_le want
  | all _ fits => exact fits
  | front => exact List.length_take_le ..

end Peer

/-- Bytes went from the peer to the end of the buffer, not beyond a limit. -/
structure Taken (limit : Nat) (buffered : List UInt8) (peer : Peer) (buffered' : List UInt8)
    (peer' : Peer) : Prop where
  grows : ∃ more, buffered' = buffered ++ more
  whole : buffered' ++ peer'.bytesLeft = buffered ++ peer.bytesLeft
  fits : buffered.length ≤ limit → buffered'.length ≤ limit

namespace Taken

variable {limit : Nat} {buffered buffered' buffered'' : List UInt8} {peer peer' peer'' : Peer}

theorem nothing : Taken limit buffered peer buffered peer :=
  ⟨⟨[], (List.append_nil _).symm⟩, rfl, id⟩

theorem trans (first : Taken limit buffered peer buffered' peer')
    (second : Taken limit buffered' peer' buffered'' peer'') :
    Taken limit buffered peer buffered'' peer'' := by
  refine ⟨?_, second.whole.trans first.whole, fun fits => second.fits (first.fits fits)⟩
  obtain ⟨more, rfl⟩ := first.grows
  obtain ⟨yet, rfl⟩ := second.grows
  exact ⟨more ++ yet, List.append_assoc ..⟩

/-- One read that does not ask for more than there is room for. -/
theorem of_read {now : Instant} {chunk : Nat} {bs : List UInt8}
    (read : peer.read now (min (limit - buffered.length) chunk) = .bytes bs peer') :
    Taken limit buffered peer (buffered ++ bs) peer' := by
  have sized := Peer.length_le_of_read read
  refine ⟨⟨bs, rfl⟩, ?_, ?_⟩
  · rw [List.append_assoc, Peer.bytesLeft_of_read read]
  · intro fits
    rw [List.length_append]
    omega

end Taken

theorem watch_taken (limit : Nat) (now : Instant) (buffered : List UInt8) (peer : Peer) :
    Taken limit buffered peer (watch limit now buffered peer).buffered
      (watch limit now buffered peer).peer := by
  fun_induction watch limit now buffered peer with
  | case1 => exact .nothing
  | case2 => exact .nothing
  | case3 => exact .nothing
  | case4 buffered peer _ rest read =>
      have step := Taken.of_read read
      rwa [List.append_nil] at step
  | case5 buffered peer _ b bs rest read ih => exact (Taken.of_read read).trans ih

namespace HandshakeSettings

variable {s : HandshakeSettings}

theorem collect_taken (s : HandshakeSettings) (now : Instant) (buffered : List UInt8)
    (peer : Peer) :
    Taken s.budget buffered peer (s.collect now buffered peer).buffered
      (s.collect now buffered peer).peer := by
  fun_induction collect s now buffered peer with
  | case6 buffered peer _ _ rest read =>
      have step := Taken.of_read read
      rwa [List.append_nil] at step
  | case7 buffered peer _ _ b bs rest read ih => exact (Taken.of_read read).trans ih
  | _ => exact .nothing

theorem parse_collect {now : Instant} {buffered : List UInt8} {peer : Peer} {h : Handshake}
    (found : (s.collect now buffered peer).result = some (.ok h)) :
    s.parse (s.collect now buffered peer).buffered = .complete h := by
  fun_induction collect s now buffered peer with
  | case1 buffered peer h' complete =>
      simp only [Option.some.injEq, Except.ok.injEq] at found
      rw [complete, found]
  | case7 buffered peer _ _ b bs rest read ih => exact ih found
  | _ => simp at found

/-- A handshake takes up as many bytes as its frame length says, and any may follow. -/
theorem Opens.front {h : Handshake} {bytes : List UInt8} (opens : s.Opens h bytes) :
    ∃ front rest, bytes = front ++ rest ∧ front.length = h.frameLength ∧
      ∀ more, s.Opens h (front ++ more) := by
  obtain ⟨modern, spelled, notEmpty, affordable, fields, counted⟩ := opens
  rename_i length frame rest
  have first (more : List UInt8) :
      (length ++ (frame ++ more)).head? = (length ++ frame).head? := by
    cases length with
    | nil => cases frame with
      | nil => contradiction
      | cons b tail => rfl
    | cons b tail => rfl
  refine ⟨length ++ frame, rest, (List.append_assoc ..).symm, ?_, ?_⟩
  · rw [List.length_append, counted]
  · intro more
    rw [List.append_assoc]
    refine ⟨?_, spelled, notEmpty, affordable, fields, counted⟩
    rwa [first, ← first rest]

/-- More bytes after a handshake do not undo it. -/
theorem parse_append {h : Handshake} {bytes : List UInt8} (complete : s.parse bytes = .complete h)
    (more : List UInt8) : s.parse (bytes ++ more) = .complete h := by
  obtain ⟨front, rest, rfl, -, opens⟩ := (opens_of_parse complete).front
  rw [List.append_assoc]
  exact parse_of_opens (opens _)

/-- The frame of a handshake is enough to read it again. -/
theorem parse_take_frame {h : Handshake} {bytes : List UInt8}
    (complete : s.parse bytes = .complete h) :
    s.parse (bytes.take h.frameLength) = .complete h := by
  obtain ⟨front, rest, rfl, size, opens⟩ := (opens_of_parse complete).front
  rw [← size, List.take_left]
  have alone := opens []
  rw [List.append_nil] at alone
  exact parse_of_opens alone

end HandshakeSettings

end AdmissionGate
