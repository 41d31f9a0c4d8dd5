import AdmissionGate.Net.Address
import AdmissionGate.Text.HostName
import Mathlib.Data.List.TakeDrop

/-!
Addresses are read the same in either case. Each reader looks at its characters only to find the
value of a digit or a mark, and for neither does the case of a letter count; so it takes as much
of a text in lower case as of the text, and reads the same from it.
-/

namespace AdmissionGate

namespace HostName

/-- Letters from A to Z move by 32, and nothing else does. -/
theorem toLower_cases (c : Char) :
    65 ≤ c.toNat ∧ c.toNat ≤ 90 ∧ c.toLower.toNat = c.toNat + 32 ∨
      ¬(65 ≤ c.toNat ∧ c.toNat ≤ 90) ∧ c.toLower = c := by
  have low : c.val ≥ 'A'.val ↔ 65 ≤ c.toNat := UInt32.le_iff_toNat_le
  have high : c.val ≤ 'Z'.val ↔ c.toNat ≤ 90 := UInt32.le_iff_toNat_le
  by_cases upper : c.val ≥ 'A'.val ∧ c.val ≤ 'Z'.val
  · have same : c.toLower = ⟨c.val + 32, _⟩ := dif_pos upper
    have moved : (c.val + 32).toNat = (c.toNat + 32) % 4294967296 := UInt32.toNat_add ..
    rw [low, high] at upper
    refine .inl ⟨upper.1, upper.2, ?_⟩
    rw [same]
    change (c.val + 32).toNat = _
    omega
  · have same : c.toLower = c := dif_neg upper
    rw [low, high] at upper
    exact .inr ⟨upper, same⟩

/-- A mark in front of the letters is the lower case of itself only. -/
theorem toLower_eq_iff {mark : Char} (plain : mark.toNat < 65) (c : Char) :
    c.toLower = mark ↔ c = mark := by
  rcases toLower_cases c with ⟨_, _, moved⟩ | ⟨_, same⟩
  · constructor
    · rintro rfl
      omega
    · rintro rfl
      omega
  · rw [same]

theorem point : '.'.toNat < 65 := by decide

theorem colon : ':'.toNat < 65 := by decide

theorem nought : '0'.toNat < 65 := by decide

theorem nul : '\x00'.toNat < 65 := by decide

theorem toLower_toLower (c : Char) : c.toLower.toLower = c.toLower := by
  rcases toLower_cases c with ⟨_, _, moved⟩ | ⟨_, same⟩
  · rcases toLower_cases c.toLower with ⟨_, _, _⟩ | ⟨_, again⟩
    · omega
    · exact again
  · rw [same, same]

theorem lower_lower (cs : List Char) : lower (lower cs) = lower cs := by
  simp only [lower, List.map_map, Function.comp_def, toLower_toLower]

theorem lower_eq_nil_iff {cs : List Char} : lower cs = [] ↔ cs = [] := List.map_eq_nil_iff

theorem length_lower (cs : List Char) : (lower cs).length = cs.length := List.length_map ..

theorem head?_lower_eq_some_iff {mark : Char} (plain : mark.toNat < 65) (cs : List Char) :
    (lower cs).head? = some mark ↔ cs.head? = some mark := by
  cases cs with
  | nil => rfl
  | cons c cs =>
      simp only [lower, List.map_cons, List.head?_cons, Option.some.injEq, toLower_eq_iff plain]

end HostName

open HostName

namespace Digits

theorem value?_toLower (base : Nat) (c : Char) : value? base c.toLower = value? base c := by
  rcases toLower_cases c with ⟨low, high, moved⟩ | ⟨_, same⟩
  · have le_iff (a b : Char) : a ≤ b ↔ a.toNat ≤ b.toNat := UInt32.le_iff_toNat_le
    have digit : ¬(48 ≤ c.toNat + 32 ∧ c.toNat + 32 ≤ 57) ∧ ¬(48 ≤ c.toNat ∧ c.toNat ≤ 57) := by
      omega
    have letter : (97 ≤ c.toNat + 32 ∧ c.toNat + 32 ≤ 102 ↔ 65 ≤ c.toNat ∧ c.toNat ≤ 70) ∧
        ¬(97 ≤ c.toNat ∧ c.toNat ≤ 102) ∧ ¬(65 ≤ c.toNat + 32 ∧ c.toNat + 32 ≤ 70) := by
      omega
    have value : c.toNat + 32 - 87 = c.toNat - 55 := by omega
    simp only [value?, le_iff, moved, Char.reduceToNat, digit, letter, value, if_false]
  · rw [same]

theorem valueOf?_lower (base : Nat) (cs : List Char) :
    valueOf? base (lower cs) = valueOf? base cs := by
  simp only [valueOf?, lower, List.foldlM_map, value?_toLower]

end Digits

namespace Address

def lowerRest {α : Type} (read : α × List Char) : α × List Char := (read.1, lower read.2)

theorem takeDigits_lower (base : Nat) (cs : List Char) :
    takeDigits base (lower cs) =
      (lower (takeDigits base cs).1, lower (takeDigits base cs).2) := by
  simp only [takeDigits, List.span_eq_takeWhile_dropWhile, lower, List.takeWhile_map,
    List.dropWhile_map, Function.comp_def, Digits.value?_toLower]

theorem takeOctet_lower (cs : List Char) :
    takeOctet (lower cs) = (takeOctet cs).map lowerRest := by
  simp only [takeOctet, takeDigits_lower]
  generalize takeDigits 10 cs = taken
  obtain ⟨digits, rest⟩ := taken
  simp only [lower_eq_nil_iff, length_lower, head?_lower_eq_some_iff nought,
    Digits.valueOf?_lower]
  split
  · rfl
  · cases Digits.valueOf? 10 digits with
    | none => rfl
    | some n =>
        simp only [Option.bind_eq_bind, Option.bind_some]
        split <;> rfl

theorem takeGroup_lower (cs : List Char) :
    takeGroup (lower cs) = (takeGroup cs).map lowerRest := by
  simp only [takeGroup, takeDigits_lower]
  generalize takeDigits 16 cs = taken
  obtain ⟨digits, rest⟩ := taken
  simp only [lower_eq_nil_iff, length_lower, Digits.valueOf?_lower]
  split
  · rfl
  · cases Digits.valueOf? 16 digits <;> rfl

theorem takeMark_lower {mark : Char} (plain : mark.toNat < 65) (cs : List Char) :
    takeMark mark (lower cs) = (takeMark mark cs).map lower := by
  cases cs with
  | nil => rfl
  | cons c rest =>
      simp only [lower, List.map_cons, takeMark, toLower_eq_iff plain]
      split <;> rfl

theorem takeDotted_lower (cs : List Char) :
    takeDotted (lower cs) = (takeDotted cs).map lowerRest := by
  simp only [takeDotted, takeOctet_lower, takeMark_lower point, lowerRest, Option.bind_eq_bind,
    Option.bind_map, Option.map_bind, Function.comp_def, Option.map_some]

theorem takeGroups_lower (isFirst : Bool) (room : Nat) (cs : List Char) :
    takeGroups isFirst room (lower cs) =
      { takeGroups isFirst room cs with rest := lower (takeGroups isFirst room cs).rest } := by
  induction room generalizing isFirst cs with
  | zero => rfl
  | succ room ih =>
      have opened : (if isFirst then some (lower cs) else takeMark ':' (lower cs)) =
          (if isFirst then some cs else takeMark ':' cs).map lower := by
        rw [takeMark_lower colon]
        cases isFirst <;> rfl
      rw [takeGroups, takeGroups, opened]
      cases (if isFirst then some cs else takeMark ':' cs) with
      | none => rfl
      | some inner =>
          have dotted : (if room = 0 then none else takeDotted (lower inner)) =
              (if room = 0 then none else takeDotted inner).map lowerRest := by
            rw [takeDotted_lower]
            split <;> rfl
          simp only [Option.map_some, dotted]
          cases (if room = 0 then none else takeDotted inner) with
          | some read => rfl
          | none =>
              simp only [Option.map_none, takeGroup_lower]
              cases takeGroup inner with
              | none => rfl
              | some read => simp only [Option.map_some, lowerRest, ih]

theorem takeColons_lower (cs : List Char) :
    takeColons (lower cs) = (takeColons cs).map lowerRest := by
  simp only [takeColons, takeGroups_lower, takeMark_lower colon, Option.bind_eq_bind,
    Option.bind_map, Function.comp_def]
  split
  · cases ofGroups? (takeGroups true 8 cs).values <;> rfl
  · split
    · rfl
    · simp only [Option.map_bind, Option.map_map, Function.comp_def]
      rfl

theorem ofChars?_lower (cs : List Char) : ofChars? (lower cs) = ofChars? cs := by
  simp only [ofChars?, takeDotted_lower, takeColons_lower]
  cases takeDotted cs with
  | some read =>
      simp only [Option.map_some, lowerRest, lower_eq_nil_iff]
  | none =>
      cases takeColons cs with
      | some read =>
          simp only [Option.map_some, Option.map_none, lowerRest, lower_eq_nil_iff]
      | none => rfl

end Address

end AdmissionGate
