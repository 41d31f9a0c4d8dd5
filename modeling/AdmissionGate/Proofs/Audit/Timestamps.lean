import AdmissionGate.Audit.Timestamp
import AdmissionGate.Proofs.Text.Digits
import Mathlib.Data.List.TakeWhile

/-!
A moment is read from its text, with its fraction of a second, in the years that have four digits.
Whatever text a moment was read from, it has a date that the calendar knows and a time of day.
-/

namespace AdmissionGate

namespace Date

structure IsCivil (d : Date) : Prop where
  month_pos : 1 ≤ d.month
  month_le : d.month ≤ 12
  day_pos : 1 ≤ d.day
  day_le : d.day ≤ daysIn d.year d.month

theorem isValid_iff {d : Date} : d.isValid = true ↔ d.isInRange = true ∧ d.IsCivil := by
  simp only [isValid, Bool.and_eq_true, decide_eq_true_eq]
  exact ⟨fun ⟨⟨⟨⟨range, first⟩, second⟩, third⟩, fourth⟩ => ⟨range, first, second, third, fourth⟩,
    fun ⟨range, civil⟩ => ⟨⟨⟨⟨range, civil.1⟩, civil.2⟩, civil.3⟩, civil.4⟩⟩

theorem daysIn_pos (year : Int) (month : Nat) : 1 ≤ daysIn year month := by
  unfold daysIn
  grind

theorem IsCivil.previous {d : Date} (civil : d.IsCivil) : d.previous.IsCivil := by
  obtain ⟨month_pos, month_le, day_pos, day_le⟩ := civil
  unfold Date.previous
  split
  · exact ⟨month_pos, month_le, by dsimp only; omega, by dsimp only; omega⟩
  split
  · exact ⟨by dsimp only; omega, by dsimp only; omega, daysIn_pos _ _, Nat.le_refl _⟩
  · exact ⟨by simp, by simp, by simp, by simp [daysIn]⟩

theorem IsCivil.next {d : Date} (civil : d.IsCivil) : d.next.IsCivil := by
  obtain ⟨month_pos, month_le, day_pos, day_le⟩ := civil
  unfold Date.next
  split
  · exact ⟨month_pos, month_le, by dsimp only; omega, by dsimp only; omega⟩
  split
  · exact ⟨by dsimp only; omega, by dsimp only; omega, Nat.le_refl 1, daysIn_pos _ _⟩
  · exact ⟨by simp, by simp, by simp, by simp [daysIn]⟩

end Date

namespace Timestamp

variable {rest : List Char} {n width : Nat}

structure WellFormed (t : Timestamp) : Prop where
  date : t.date.isValid = true
  minute : t.minute < 1440
  second : t.second < 60

/-- Its year has four digits, and it is in no leap second. -/
structure IsOrdinary (t : Timestamp) : Prop where
  year_nonneg : 0 ≤ t.date.year
  year_le : t.date.year ≤ 9999
  nanos : t.nanos < 1000000000

theorem dropLeading_of_dark {c : Char} (dark : Blank.isBlank c = false) (cs : List Char) :
    Blank.dropLeading (c :: cs) = c :: cs :=
  List.dropWhile_cons_of_neg (by simp [dark])

theorem isBlank_of_isDecimal {c : Char} (digit : Digits.isDecimal c = true) :
    Blank.isBlank c = false := by
  simp only [Digits.isDecimal, Bool.and_eq_true, decide_eq_true_eq] at digit
  have low : 48 ≤ c.toNat := digit.1
  have high : c.toNat ≤ 57 := digit.2
  simp only [Blank.isBlank, Blank.ranges, List.any_cons, List.any_nil, Bool.or_false,
    Bool.or_eq_false_iff, Bool.and_eq_false_iff, decide_eq_false_iff_not]
  omega

/-- A number of a fixed width begins with a digit. -/
theorem padded_eq_cons (width n : Nat) :
    ∃ c cs, Digits.padLeft width (Digits.render 10 n) = c :: cs ∧ Digits.isDecimal c = true := by
  obtain ⟨c, cs, text⟩ := List.exists_cons_of_ne_nil (Digits.padded_ne_nil width 10 n)
  exact ⟨c, cs, text, Digits.isDecimal_of_mem_padded width n c (by simp [text])⟩

theorem dropLeading_padded (width n : Nat) (rest : List Char) :
    Blank.dropLeading (Digits.padLeft width (Digits.render 10 n) ++ rest) =
      Digits.padLeft width (Digits.render 10 n) ++ rest := by
  obtain ⟨c, cs, text, digit⟩ := padded_eq_cons width n
  rw [text, List.cons_append, dropLeading_of_dark (isBlank_of_isDecimal digit)]

theorem takeNumber_padded (pos : 0 < width) (less : n < 10 ^ width) (rest : List Char) :
    takeNumber width (Digits.padLeft width (Digits.render 10 n) ++ rest) = some (n, rest) := by
  have length := Digits.length_padded pos less
  have digits : ((Digits.padLeft width (Digits.render 10 n) ++ rest).take width).takeWhile
      Digits.isDecimal = Digits.padLeft width (Digits.render 10 n) := by
    rw [List.take_left' length, List.takeWhile_eq_self_iff]
    exact Digits.isDecimal_of_mem_padded width n
  rw [takeNumber, dropLeading_padded, digits, if_neg (Digits.padded_ne_nil _ _ _),
    Digits.valueOf?_padded (by decide) (by decide), List.drop_left]
  rfl

theorem takeBetween_padded {low high : Nat} (pos : 0 < width) (less : n < 10 ^ width)
    (low_le : low ≤ n) (le_high : n ≤ high) (rest : List Char) :
    takeBetween low high width (Digits.padLeft width (Digits.render 10 n) ++ rest) =
      some (n, rest) := by
  simp only [takeBetween, takeNumber_padded pos less, low_le, le_high, and_self, if_true,
    Option.bind_eq_bind, Option.bind_some]

theorem takeMark_cons {mark : Char} (dark : Blank.isBlank mark = false) (rest : List Char) :
    takeMark mark (mark :: rest) = some rest := by
  rw [takeMark, dropLeading_of_dark dark]
  exact if_pos rfl

/-- A year of four digits is read without a sign. -/
theorem takeYear_yearText {year : Int} (nonneg : 0 ≤ year) (le : year ≤ 9999)
    (rest : List Char) : takeYear (Date.yearText year ++ rest) = some (year, rest) := by
  have less : year.natAbs < 10 ^ 4 := by omega
  obtain ⟨c, cs, text, digit⟩ := padded_eq_cons 4 year.natAbs
  have number := takeNumber_padded (by decide) less rest
  rw [Date.yearText, if_pos ⟨nonneg, le⟩]
  rw [text, List.cons_append] at number ⊢
  rw [takeYear, dropLeading_of_dark (isBlank_of_isDecimal digit)]
  split
  · rename_i same
    exact absurd (List.cons.inj same).1 (Digits.ne_of_isDecimal digit rfl)
  · rename_i same
    exact absurd (List.cons.inj same).1 (Digits.ne_of_isDecimal digit rfl)
  · rw [number, Option.map_some]
    dsimp only
    rw [Int.natAbs_of_nonneg nonneg]

/-- The digits of a fraction count from the point on. -/
theorem takeFraction_digits {places k : Nat} (pos : 0 < places) (le : places ≤ 9)
    (less : k < 10 ^ places) (stops : Stops Digits.isDecimal rest) :
    takeFraction ('.' :: (Digits.padLeft places (Digits.render 10 k) ++ rest)) =
      some (k * 10 ^ (9 - places), rest) := by
  have length := Digits.length_padded pos less
  have nine : (Digits.padLeft places (Digits.render 10 k) ++ List.replicate 9 '0').take 9 =
      Digits.padLeft places (Digits.render 10 k) ++ List.replicate (9 - places) '0' := by
    rw [List.take_append, length, List.take_of_length_le (by omega), List.take_replicate,
      Nat.min_eq_left (Nat.sub_le ..)]
  rw [takeFraction, stops.takeWhile (Digits.isDecimal_of_mem_padded places k),
    if_neg (Digits.padded_ne_nil _ _ _), nine, Digits.valueOf?_append_replicate (by decide),
    Digits.valueOf?_padded (by decide) (by decide), List.drop_left]
  rfl

theorem takeFraction_fractionText (less : n < 1000000000) (stops : Stops Digits.isDecimal rest)
    (undotted : rest.head? ≠ some '.') :
    takeFraction (fractionText n ++ rest) = some (n, rest) := by
  unfold fractionText
  split
  · rename_i zero
    rw [List.nil_append, takeFraction, zero]
    rintro more rfl
    exact undotted rfl
  split
  · rw [List.cons_append, takeFraction_digits (by decide) (by decide) (by omega) stops]
    simp only [Option.some_inj, Prod.mk.injEq, and_true]
    omega
  split
  · rw [List.cons_append, takeFraction_digits (by decide) (by decide) (by omega) stops]
    simp only [Option.some_inj, Prod.mk.injEq, and_true]
    omega
  · rw [List.cons_append, takeFraction_digits (by decide) (by decide) (by omega) stops]
    simp

/-- Without an offset, local time is universal time. -/
theorem ofLocal?_zero {t : Timestamp} (wellFormed : t.WellFormed) :
    ofLocal? t.date t.minute t.second t.nanos 0 = some t := by
  have minute := wellFormed.minute
  have range := (Date.isValid_iff.mp wellFormed.date).1
  have early : ¬(t.minute : Int) < 0 := by omega
  have late : ¬1440 ≤ (t.minute : Int) := by omega
  rw [ofLocal?, if_neg (by decide)]
  simp only [Int.sub_zero, early, late, if_false, Int.toNat_natCast, range, if_true]

theorem ofChars?_toChars {t : Timestamp} (wellFormed : t.WellFormed) (ordinary : t.IsOrdinary) :
    ofChars? t.toChars = some t := by
  obtain ⟨month_pos, month_le, day_pos, day_le⟩ := (Date.isValid_iff.mp wellFormed.date).2
  have day_le : t.date.day ≤ 31 := by
    refine day_le.trans ?_
    unfold Date.daysIn
    grind
  have minute := wellFormed.minute
  have second := wellFormed.second
  have nanos := ordinary.nanos
  have hours : t.minute / 60 * 60 + t.minute % 60 = t.minute := by omega
  have whole : ¬1000000000 ≤ t.nanos := by omega
  have stops : Stops Digits.isDecimal ['Z'] := Stops.cons_iff.mpr rfl
  have month (rest : List Char) : takeBetween 1 12 2 (twoDigits t.date.month ++ rest) =
      some (t.date.month, rest) := takeBetween_padded (by decide) (by omega) month_pos month_le rest
  have day (rest : List Char) : takeBetween 1 31 2 (twoDigits t.date.day ++ rest) =
      some (t.date.day, rest) := takeBetween_padded (by decide) (by omega) day_pos day_le rest
  have hour (rest : List Char) : takeBetween 0 23 2 (twoDigits (t.minute / 60) ++ rest) =
      some (t.minute / 60, rest) :=
    takeBetween_padded (by decide) (by omega) (Nat.zero_le _) (by omega) rest
  have past (rest : List Char) : takeBetween 0 59 2 (twoDigits (t.minute % 60) ++ rest) =
      some (t.minute % 60, rest) :=
    takeBetween_padded (by decide) (by omega) (Nat.zero_le _) (by omega) rest
  have seconds (rest : List Char) : takeBetween 0 60 2 (twoDigits t.second ++ rest) =
      some (t.second, rest) :=
    takeBetween_padded (by decide) (by omega) (Nat.zero_le _) (by omega) rest
  have fraction := takeFraction_fractionText nanos stops (by decide)
  have zone : takeOffset (Blank.dropLeading ['Z']) = some (0, []) := rfl
  have hyphen (rest : List Char) : takeMark '-' ('-' :: rest) = some rest := takeMark_cons rfl rest
  have colon (rest : List Char) : takeMark ':' (':' :: rest) = some rest := takeMark_cons rfl rest
  have known : (!Blank.isAllBlank [] || !t.date.isValid) = false := by
    rw [wellFormed.date]
    rfl
  have found {α β : Type} (a : α) (f : α → Option β) : (some a >>= f) = f a := rfl
  simp only [toChars, whole, if_false, ofChars?, List.append_assoc, List.cons_append,
    takeYear_yearText ordinary.year_nonneg ordinary.year_le, hyphen, colon, month, day, hour, past,
    seconds, fraction, zone, found, true_or, if_true, known,
    Bool.false_eq_true, second.ne, hours]
  exact ofLocal?_zero wellFormed

theorem le_of_takeBetween {low high most : Nat} {cs : List Char}
    (taken : takeBetween low high most cs = some (n, rest)) : n ≤ high := by
  simp only [takeBetween, Option.bind_eq_bind, Option.bind_eq_some_iff] at taken
  obtain ⟨⟨m, more⟩, -, taken⟩ := taken
  split at taken
  · rename_i between
    cases taken
    exact between.2
  · contradiction

/-- Less than a day before or after a moment of a day is a moment of a day next to it. -/
theorem wellFormed_of_ofLocal? {date : Date} {minute second nanos : Nat} {ahead : Int}
    {t : Timestamp} (known : date.isValid = true) (ofDay : minute < 1440) (ofMinute : second < 60)
    (taken : ofLocal? date minute second nanos ahead = some t) : t.WellFormed := by
  obtain ⟨range, civil⟩ := Date.isValid_iff.mp known
  unfold ofLocal? at taken
  split at taken
  · contradiction
  rename_i near
  rw [not_or, Int.not_le, Int.not_le] at near
  -- The day before, the day after, or the same day.
  by_cases early : (minute : Int) - ahead < 0
  · simp only [early, if_true, Option.ite_none_right_eq_some, Option.some_inj] at taken
    obtain ⟨range, rfl⟩ := taken
    exact ⟨Date.isValid_iff.mpr ⟨range, civil.previous⟩, by dsimp only; omega, ofMinute⟩
  by_cases late : 1440 ≤ (minute : Int) - ahead
  · simp only [early, late, if_false, if_true, Option.ite_none_right_eq_some, Option.some_inj]
      at taken
    obtain ⟨range, rfl⟩ := taken
    exact ⟨Date.isValid_iff.mpr ⟨range, civil.next⟩, by dsimp only; omega, ofMinute⟩
  · simp only [early, late, if_false, Option.ite_none_right_eq_some, Option.some_inj] at taken
    obtain ⟨-, rfl⟩ := taken
    exact ⟨known, by dsimp only; omega, ofMinute⟩

theorem wellFormed_of_ofChars? {cs : List Char} {t : Timestamp} (taken : ofChars? cs = some t) :
    t.WellFormed := by
  obtain ⟨⟨year, rest⟩, -, taken⟩ := Option.bind_eq_some_iff.mp taken
  obtain ⟨rest, -, taken⟩ := Option.bind_eq_some_iff.mp taken
  obtain ⟨⟨month, rest⟩, -, taken⟩ := Option.bind_eq_some_iff.mp taken
  obtain ⟨rest, -, taken⟩ := Option.bind_eq_some_iff.mp taken
  obtain ⟨⟨day, rest⟩, -, taken⟩ := Option.bind_eq_some_iff.mp taken
  dsimp only at taken
  split at taken
  case h_2 => contradiction
  split at taken
  case isFalse => contradiction
  obtain ⟨rest, -, taken⟩ := Option.bind_eq_some_iff.mp taken
  obtain ⟨⟨hour, rest⟩, hours, taken⟩ := Option.bind_eq_some_iff.mp taken
  obtain ⟨rest, -, taken⟩ := Option.bind_eq_some_iff.mp taken
  obtain ⟨⟨minute, rest⟩, minutes, taken⟩ := Option.bind_eq_some_iff.mp taken
  obtain ⟨rest, -, taken⟩ := Option.bind_eq_some_iff.mp taken
  obtain ⟨⟨second, rest⟩, seconds, taken⟩ := Option.bind_eq_some_iff.mp taken
  obtain ⟨⟨nanos, rest⟩, -, taken⟩ := Option.bind_eq_some_iff.mp taken
  obtain ⟨⟨ahead, rest⟩, -, taken⟩ := Option.bind_eq_some_iff.mp taken
  have hours := le_of_takeBetween hours
  have minutes := le_of_takeBetween minutes
  have seconds := le_of_takeBetween seconds
  dsimp only at taken
  split at taken
  · contradiction
  rename_i known
  rw [Bool.not_eq_true, Bool.or_eq_false_iff, Bool.not_eq_false', Bool.not_eq_false'] at known
  split at taken
  · exact wellFormed_of_ofLocal? known.2 (by omega) (by decide) taken
  · exact wellFormed_of_ofLocal? known.2 (by omega) (by omega) taken

end Timestamp

end AdmissionGate
