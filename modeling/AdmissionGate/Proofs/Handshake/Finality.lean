import AdmissionGate.Handshake.Parser
import AdmissionGate.Proofs.Handshake.Numeral

/-!
Answers of the parser are final. What it says of some bytes it says of more, once it has read the
length of the frame; before that it gives up only when the budget is used up. And as long as it
asks for more bytes, the budget has room for them.
-/

namespace AdmissionGate

namespace HandshakeSettings

variable {s : HandshakeSettings} {bytes : List UInt8}

/-- An answer stays the same, once the length of the frame has been read. -/
theorem parse_append_of_read (read : VarInt.decode bytes ≠ .error .incomplete)
    (decided : s.parse bytes ≠ .needMore) (more : List UInt8) :
    s.parse (bytes ++ more) = s.parse bytes := by
  have first : (bytes ++ more).head? = bytes.head? := by
    cases bytes with
    | nil => exact absurd rfl read
    | cons b bs => rfl
  simp only [parse, first] at decided ⊢
  split
  · rfl
  rename_i modern
  rw [if_neg modern] at decided
  cases number : VarInt.decode bytes with
  | error e =>
      cases e with
      | incomplete => exact absurd number read
      | tooLong => rw [VarInt.decode_append_of_tooLong number]
  | ok r =>
      obtain ⟨word, rest⟩ := r
      have header : (bytes ++ more).length - (rest ++ more).length =
          bytes.length - rest.length := by
        have shorter := VarInt.length_le_of_decode number
        simp only [List.length_append]
        omega
      simp only [number] at decided
      simp only [VarInt.decode_append_of_ok number, header]
      by_cases there : word.toNat ≤ rest.length
      · have still : ¬(rest ++ more).length < word.toNat := by
          rw [List.length_append]
          omega
        rw [if_neg still, if_neg (Nat.not_lt.mpr there), List.take_append_of_le_length there]
      -- The frame is not there yet, so its length alone was wrong.
      · rw [if_pos (Nat.lt_of_not_le there)] at decided ⊢
        split
        · rfl
        rename_i positive
        split
        · rfl
        rename_i affordable
        rw [if_neg positive, if_neg affordable] at decided
        exact absurd rfl decided

theorem parse_append_of_decided {more : List UInt8}
    (enough : bytes.length + more.length ≤ s.budget ∨ VarInt.maxLength ≤ s.budget)
    (decided : s.parse bytes ≠ .needMore) : s.parse (bytes ++ more) = s.parse bytes := by
  by_cases cut : VarInt.decode bytes = .error .incomplete
  · by_cases legacy : bytes.head? = some Handshake.legacyPingByte
    · have first : (bytes ++ more).head? = some Handshake.legacyPingByte := by
        rw [List.head?_append, legacy, Option.some_or]
      rw [parse, parse, if_pos legacy, if_pos first]
    simp only [parse, if_neg legacy, cut] at decided
    -- An unfinished length is an error only if nothing more may come.
    have full : s.budget ≤ bytes.length :=
      Nat.le_of_not_lt fun room => decided (if_neg (Nat.not_le.mpr room))
    have short := (VarInt.decode_eq_incomplete_iff.mp cut).1
    have nothing : more = [] := by
      rw [← List.length_eq_zero_iff]
      omega
    rw [nothing, List.append_nil]
  · exact parse_append_of_read cut decided more

theorem length_lt_of_needMore (more : s.parse bytes = .needMore) : bytes.length < s.budget := by
  simp only [parse] at more
  split at more
  · contradiction
  split at more
  · split at more
    · contradiction
    · rename_i room
      exact Nat.lt_of_not_le room
  · contradiction
  rename_i word rest read
  split at more
  · contradiction
  split at more
  · contradiction
  rename_i affordable
  split at more
  · rename_i missing
    omega
  · split at more <;> contradiction

end HandshakeSettings

end AdmissionGate
