import AdmissionGate.Proofs.Decimal.Plain
import AdmissionGate.Toml.Printer
import AdmissionGate.Toml.Scalar

/-!
Numbers read back from their text. A reader of TOML first asks whether a date or a time begins,
then for the words and bases that numbers may have, and then for a sign and digits; a plain number
passes all of these questions.
-/

namespace AdmissionGate.Toml

open Decimal (sign Plain)

variable {negative : Bool} {whole run rest tail : List Char}

theorem isSome_value?_ten (c : Char) : (Digits.value? 10 c).isSome = Digits.isDecimal c := by
  by_cases decimal : '0' ≤ c ∧ c ≤ '9'
  · have small : c.toNat - 48 < 10 := by
      have : c.toNat ≤ 57 := decimal.2
      omega
    simp [Digits.value?, Digits.isDecimal, decimal, small]
  · have letter : ∀ low high : Char, low ≤ c ∧ c ≤ high → low.toNat ≤ c.toNat := fun _ _ h => h.1
    have large : ∀ v : Nat, 10 ≤ v → (if v < 10 then some v else none).isSome = false := by
      intro v large
      rw [if_neg (by omega)]
      rfl
    have lower := letter 'a' 'f'
    have upper := letter 'A' 'F'
    rw [Digits.value?, if_neg decimal, show Digits.isDecimal c = false by
      simpa [Digits.isDecimal] using decimal]
    apply large
    split_ifs with h h
    · exact Nat.le_sub_of_add_le (lower h)
    · exact Nat.le_sub_of_add_le (upper h)
    · exact Nat.le_refl 10

/-- What may stand behind a value: the end of its line, or of its place in a list. -/
def EndsValue (rest : List Char) : Prop :=
  ∃ c more, rest = c :: more ∧ (c = '\n' ∨ c = ',' ∨ c = ']')

def EndsWhole (tail : List Char) : Prop := (∃ more, tail = '.' :: more) ∨ EndsValue tail

theorem EndsValue.stops (ends : EndsValue rest) : Stops Digits.isDecimal rest := by
  obtain ⟨c, more, rfl, rfl | rfl | rfl⟩ := ends <;> exact Stops.cons_iff.mpr (by decide)

/-- A property of the character behind the whole part, from the few that it may be. -/
theorem EndsWhole.exists_cons {p : Char → Prop} [DecidablePred p] (ends : EndsWhole tail)
    (each : ['.', '\n', ',', ']'].all (p ·) = true) : ∃ c more, tail = c :: more ∧ p c := by
  simp only [List.all_cons, List.all_nil, Bool.and_true, Bool.and_eq_true,
    decide_eq_true_eq] at each
  obtain ⟨point, line, comma, bracket⟩ := each
  obtain ⟨more, rfl⟩ | ⟨c, more, rfl, rfl | rfl | rfl⟩ := ends
  · exact ⟨'.', more, rfl, point⟩
  · exact ⟨'\n', more, rfl, line⟩
  · exact ⟨',', more, rfl, comma⟩
  · exact ⟨']', more, rfl, bracket⟩

theorem EndsWhole.stops (ends : EndsWhole tail) : Stops Digits.isDecimal tail := by
  obtain ⟨c, more, rfl, other⟩ := ends.exists_cons
    (p := fun c => Digits.isDecimal c = false) rfl
  exact Stops.cons_iff.mpr other

/-- Behind the digits that a date begins with, a dash stands. -/
theorem dropWhile_of_startsDate {cs : List Char} (date : startsDate cs = true) :
    (cs.dropWhile Digits.isDecimal).head? = some '-' := by
  unfold startsDate at date
  split at date
  · simp_all [show Digits.isDecimal '-' = false from rfl]
  · contradiction

theorem dropWhile_of_startsTime {cs : List Char} (time : startsTime cs = true) :
    (cs.dropWhile Digits.isDecimal).head? = some ':' := by
  unfold startsTime at time
  split at time
  · simp_all [show Digits.isDecimal ':' = false from rfl]
  · contradiction

theorem startsDate_of_other {c : Char} (other : Digits.isDecimal c = false) (cs : List Char) :
    startsDate (c :: cs) = false := by
  unfold startsDate
  split
  · rename_i heq
    obtain ⟨rfl, rfl⟩ := List.cons.inj heq
    simp [other]
  · rfl

theorem startsTime_of_other {c : Char} (other : Digits.isDecimal c = false) (cs : List Char) :
    startsTime (c :: cs) = false := by
  unfold startsTime
  split
  · rename_i heq
    obtain ⟨rfl, rfl⟩ := List.cons.inj heq
    simp [other]
  · rfl

theorem takeScalar_of_other {c : Char} (other : Digits.isDecimal c = false) (cs : List Char) :
    takeScalar (c :: cs) = takeNumber (c :: cs) := by
  rw [takeScalar, startsDate_of_other other, startsTime_of_other other]
  rfl

theorem takeScalar_number (numeral : Digits.IsNumeral whole) (ends : EndsWhole tail) :
    takeScalar (sign negative ++ whole ++ tail) = takeNumber (sign negative ++ whole ++ tail) := by
  cases negative with
  | true => exact takeScalar_of_other (by decide) _
  | false =>
      have behind : (whole ++ tail).dropWhile Digits.isDecimal = tail :=
        ends.stops.dropWhile numeral.digits
      obtain ⟨c, more, rfl, dash, colon⟩ := ends.exists_cons (p := fun c => c ≠ '-' ∧ c ≠ ':')
        rfl
      have noDate : startsDate (whole ++ c :: more) = false := by
        rw [← Bool.not_eq_true]
        intro date
        exact dash (by simpa [behind] using dropWhile_of_startsDate date)
      have noTime : startsTime (whole ++ c :: more) = false := by
        rw [← Bool.not_eq_true]
        intro time
        exact colon (by simpa [behind] using dropWhile_of_startsTime time)
      rw [sign, if_neg Bool.false_ne_true, List.nil_append, takeScalar, noDate, noTime]
      rfl

theorem takeSpaced_run (digits : ∀ c ∈ run, Digits.isDecimal c = true) (nonempty : run ≠ [])
    (ends : EndsWhole tail) : takeSpaced 10 (run ++ tail) = some (run, tail) := by
  induction run with
  | nil => exact absurd rfl nonempty
  | cons d run ih =>
      obtain ⟨digit, others⟩ := List.forall_mem_cons.mp digits
      rw [List.cons_append, takeSpaced.eq_def]
      simp only [isSome_value?_ten, digit, if_true]
      cases run with
      | nil =>
          obtain ⟨c, more, rfl, other, space⟩ := ends.exists_cons
            (p := fun c => Digits.isDecimal c = false ∧ c ≠ '_') rfl
          rw [List.nil_append]
          split
          · simp_all
          · simp_all
          · rename_i heq
            cases heq
      | cons c more =>
          have next : Digits.isDecimal c = true := others c (by simp)
          have space : c ≠ '_' := Digits.ne_of_isDecimal next rfl
          have taken := ih others (by simp)
          rw [List.cons_append] at taken ⊢
          split
          · simp_all
          · rename_i heq
            obtain ⟨rfl, rfl⟩ := List.cons.inj heq
            simp [next, taken]
          · rename_i heq
            cases heq

/-- Digits behind a sign, if there was one. -/
theorem takeDecimal_sign {d : Char} {cs : List Char} (digit : Digits.isDecimal d = true) :
    takeDecimal (sign negative ++ d :: cs) =
      if d = '0' then some (negative, ['0'], cs)
      else (takeSpaced 10 (d :: cs)).map fun (ds, rest) => (negative, ds, rest) := by
  have unsigned : d ≠ '-' ∧ d ≠ '+' :=
    ⟨Digits.ne_of_isDecimal digit rfl, Digits.ne_of_isDecimal digit rfl⟩
  cases negative with
  | true =>
      simp only [takeDecimal, sign, if_true, List.cons_append, List.nil_append]
      split
      · simp_all
      · rw [if_neg (by simp_all)]
  | false =>
      simp only [takeDecimal, sign, Bool.false_eq_true, if_false, List.nil_append]
      split
      · simp_all
      · rw [if_neg (by simp_all)]
        split <;> simp_all

theorem takeDecimal_number (numeral : Digits.IsNumeral whole) (ends : EndsWhole tail) :
    takeDecimal (sign negative ++ whole ++ tail) = some (negative, whole, tail) := by
  have taken := takeSpaced_run numeral.digits numeral.ne_nil ends
  have alone := numeral.zero_alone
  obtain ⟨d, more, rfl, digit⟩ := numeral.exists_cons
  rw [List.append_assoc, List.cons_append, takeDecimal_sign digit]
  rw [List.cons_append] at taken
  split_ifs with zero
  · simp_all
  · rw [taken, Option.map_some]

theorem takeSpecial_number (numeral : Digits.IsNumeral whole) :
    takeSpecial (sign negative ++ whole ++ tail) = none := by
  obtain ⟨d, more, rfl, digit⟩ := numeral.exists_cons
  have letters : d ≠ 'i' ∧ d ≠ 'n' ∧ d ≠ '+' ∧ d ≠ '-' := by
    refine ⟨?_, ?_, ?_, ?_⟩ <;> exact Digits.ne_of_isDecimal digit rfl
  cases negative with
  | true =>
      rw [takeSpecial.eq_def]
      simp only [sign, if_true, List.cons_append, List.nil_append]
      split <;> simp_all
  | false =>
      rw [takeSpecial.eq_def]
      simp only [sign, Bool.false_eq_true, if_false, List.cons_append, List.nil_append]
      split <;> simp_all

/-- A number without letters is read by its sign and digits. -/
theorem takeNumber_number (numeral : Digits.IsNumeral whole) (ends : EndsWhole tail) :
    takeNumber (sign negative ++ whole ++ tail) = takeNumberTail negative whole tail := by
  have decimal : takeDecimal (sign negative ++ whole ++ tail) = some (negative, whole, tail) :=
    takeDecimal_number numeral ends
  have noLetter : ∀ mark more, mark = 'x' ∨ mark = 'o' ∨ mark = 'b' →
      sign negative ++ whole ++ tail ≠ '0' :: mark :: more := by
    rintro mark more letter heq
    obtain ⟨c, behind, rfl, other⟩ := ends.exists_cons
      (p := fun c => c ≠ 'x' ∧ c ≠ 'o' ∧ c ≠ 'b') rfl
    cases negative with
    | true => simp [sign] at heq
    | false =>
        have zero : whole.head? = some '0' := by
          have first := congrArg List.head? heq
          rwa [sign, if_neg Bool.false_ne_true, List.nil_append,
            List.head?_append_of_ne_nil _ numeral.ne_nil] at first
        rw [numeral.zero_alone zero] at heq
        simp_all [sign]
  rw [takeNumber.eq_def, takeSpecial_number numeral]
  dsimp only
  split
  · rename_i heq
    exact absurd heq (noLetter _ _ (by simp))
  · rename_i heq
    exact absurd heq (noLetter _ _ (by simp))
  · rename_i heq
    exact absurd heq (noLetter _ _ (by simp))
  · rw [decimal]
    rfl

theorem takeNumberTail_int {n : Nat} (value : Digits.valueOf? 10 whole = some n)
    (fits : isInteger (if negative then -(n : Int) else n) = true) (ends : EndsValue rest) :
    takeNumberTail negative whole rest =
      some (.int (if negative then -(n : Int) else n), rest) := by
  obtain ⟨c, more, rfl, mark⟩ := ends
  have point : c ≠ '.' := by
    rcases mark with rfl | rfl | rfl <;> decide
  have exponent : isExponentMark c = false := by
    rcases mark with rfl | rfl | rfl <;> decide
  rw [takeNumberTail.eq_def]
  split
  · simp_all
  · rename_i heq
    obtain ⟨rfl, rfl⟩ := List.cons.inj heq
    simp [exponent, value, fitted?, fits]
  · contradiction

/-- An integer is written as its sign and its size. -/
theorem exists_sign_of_renderInt? {n : Int} {cs : List Char} (rendered : renderInt? n = some cs) :
    ∃ negative, ∃ m : Nat, (if negative then -(m : Int) else m) = n ∧
      cs = sign negative ++ Digits.render 10 m := by
  simp only [renderInt?, Option.ite_none_right_eq_some, Option.some.injEq] at rendered
  obtain ⟨-, rfl⟩ := rendered
  cases n with
  | ofNat m => exact ⟨false, m, rfl, by simp [Digits.decimalOfInt, Digits.decimal, sign]⟩
  | negSucc m => exact ⟨true, m + 1, rfl, by simp [Digits.decimalOfInt, Digits.decimal, sign]⟩

theorem isInteger_of_renderInt? {n : Int} {cs : List Char} (rendered : renderInt? n = some cs) :
    isInteger n = true := by
  simp only [renderInt?, Option.ite_none_right_eq_some] at rendered
  exact rendered.1

theorem takeScalar_renderInt? {n : Int} {cs : List Char} (rendered : renderInt? n = some cs)
    (ends : EndsValue rest) : takeScalar (cs ++ rest) = some (.int n, rest) := by
  have fits := isInteger_of_renderInt? rendered
  obtain ⟨negative, m, rfl, rfl⟩ := exists_sign_of_renderInt? rendered
  have numeral := Digits.isNumeral_render m
  rw [takeScalar_number numeral (.inr ends), takeNumber_number numeral (.inr ends),
    takeNumberTail_int (Digits.valueOf?_render (by decide) (by decide) m) fits ends]

theorem exists_renderInt? {n : Int} (fits : isInteger n = true) :
    ∃ cs, renderInt? n = some cs := ⟨_, if_pos fits⟩

theorem takeNumberTail_plain (p : Plain) {x : Float} (value : p.value? = some x)
    (finite : x.isFinite = true) (ends : EndsValue rest) :
    takeNumberTail p.negative p.whole ('.' :: p.fraction ++ rest) = some (.float x, rest) := by
  have taken := takeSpaced_run p.fraction_digits p.fraction_ne_nil (.inr ends)
  have read : floatOf? p.negative p.whole p.fraction 0 = some (.float x) := by
    obtain ⟨n, mantissa, rfl⟩ := Option.map_eq_some_iff.mp value
    rw [floatOf?, mantissa]
    simp only [Option.bind_eq_bind, Option.bind_some, Int.zero_sub]
    rw [Decimal.isInf_of_isFinite finite]
    rfl
  obtain ⟨c, more, rfl, mark⟩ := ends
  have exponent : isExponentMark c = false := by
    rcases mark with rfl | rfl | rfl <;> decide
  simp [takeNumberTail, taken, exponent, read]

theorem takeScalar_text {x : Float} (finite : x.isFinite = true) (back : Decimal.ReadsBack x)
    (ends : EndsValue rest) : takeScalar (Decimal.text x ++ rest) = some (.float x, rest) := by
  obtain ⟨p, shape⟩ := Decimal.exists_plain_text finite
  have value : p.value? = some x := by
    rw [← Decimal.ofChars?_toChars, shape]
    exact back
  have point : EndsWhole ('.' :: p.fraction ++ rest) := .inl ⟨_, rfl⟩
  rw [← shape, Plain.toChars, List.append_assoc, takeScalar_number p.whole_numeral point,
    takeNumber_number p.whole_numeral point, takeNumberTail_plain p value finite ends]

end AdmissionGate.Toml
