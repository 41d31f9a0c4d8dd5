import AdmissionGate.Audit.EventId
import AdmissionGate.Proofs.Text.Digits

/-!
An identifier is read from its text: thirty-two hexadecimal digits, with a hyphen behind the
eighth, twelfth, sixteenth and twentieth.
-/

namespace AdmissionGate.EventId

theorem length_digits (e : EventId) : e.digits.length = 32 :=
  Digits.length_padded (by decide) (show e.bits.toNat < 16 ^ 32 from e.bits.isLt)

theorem ofDigits?_digits (e : EventId) : ofDigits? e.digits = some e := by
  rw [ofDigits?, if_pos e.length_digits, digits, Digits.valueOf?_padded (by decide) (by decide),
    Option.map_some, BitVec.ofNat_toNat, BitVec.setWidth_eq]

/-- Hyphens that stand between the groups can be taken out. -/
theorem joinGroups?_hyphenated {a b c d e : List Char} (eight : a.length = 8)
    (second : b.length = 4) (third : c.length = 4) (fourth : d.length = 4)
    (twelve : e.length = 12) :
    joinGroups? (a ++ '-' :: b ++ '-' :: c ++ '-' :: d ++ '-' :: e) =
      some (a ++ b ++ c ++ d ++ e) := by
  match a, b, c, d, eight, second, third, fourth with
  | [a₀, a₁, a₂, a₃, a₄, a₅, a₆, a₇], [b₀, b₁, b₂, b₃], [c₀, c₁, c₂, c₃], [d₀, d₁, d₂, d₃],
      _, _, _, _ =>
      simp [joinGroups?, twelve]

theorem ofChars?_toChars (e : EventId) : ofChars? e.toChars = some e := by
  have thirtyTwo := e.length_digits
  have joined : joinGroups? e.toChars = some e.digits := by
    have parts := joinGroups?_hyphenated (a := e.digits.take 8) (b := (e.digits.drop 8).take 4)
      (c := (e.digits.drop 12).take 4) (d := (e.digits.drop 16).take 4) (e := e.digits.drop 20)
      (by simp [thirtyTwo]) (by simp [thirtyTwo]) (by simp [thirtyTwo]) (by simp [thirtyTwo])
      (by simp [thirtyTwo])
    have whole : e.digits.take 8 ++ (e.digits.drop 8).take 4 ++ (e.digits.drop 12).take 4 ++
        (e.digits.drop 16).take 4 ++ e.digits.drop 20 = e.digits := by
      simp only [← List.take_add, List.take_append_drop]
    rw [whole] at parts
    exact parts
  have length : e.toChars.length = 36 := by
    simp [toChars, thirtyTwo]
  have bare : unwrap e.toChars = e.toChars := by
    simp [unwrap, length]
  rw [ofChars?, length, if_neg (by decide), bare, joined, Option.bind_some, e.ofDigits?_digits]

end AdmissionGate.EventId
