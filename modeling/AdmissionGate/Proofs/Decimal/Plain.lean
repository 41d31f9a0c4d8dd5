import AdmissionGate.Decimal.Reading
import AdmissionGate.Decimal.Shortest
import AdmissionGate.Proofs.Text.Digits

/-!
The shape of the text of a finite number: perhaps a sign, digits on both sides of a point, and no
zero in front of other digits. What number such a text names is told here without any format that
holds it, and whether the shortest text names the number it was made for is a property of the
number.
-/

namespace AdmissionGate.Decimal

def sign (negative : Bool) : List Char := if negative then ['-'] else []

structure Plain where
  negative : Bool
  whole : List Char
  fraction : List Char
  whole_numeral : Digits.IsNumeral whole
  fraction_digits : ∀ c ∈ fraction, Digits.isDecimal c = true
  fraction_ne_nil : fraction ≠ []

namespace Plain

def toChars (p : Plain) : List Char := sign p.negative ++ p.whole ++ '.' :: p.fraction

def value? (p : Plain) : Option Float :=
  (Digits.valueOf? 10 (p.whole ++ p.fraction)).map
    (nearestSigned p.negative · (-p.fraction.length))

end Plain

def ofChars? (cs : List Char) : Option Float := do
  let (negative, cs) := match cs with
    | '-' :: rest => (true, rest)
    | cs => (false, cs)
  match cs.span Digits.isDecimal with
  | (whole, '.' :: fraction) => do
      let mantissa ← Digits.valueOf? 10 (whole ++ fraction)
      some (nearestSigned negative mantissa (-fraction.length))
  | _ => none

/-- The shortest text of a number names that number. -/
def ReadsBack (x : Float) : Prop := ofChars? (text x) = some x

instance (x : Float) : Decidable (ReadsBack x) := inferInstanceAs (Decidable (_ = _))

theorem ofChars?_toChars (p : Plain) : ofChars? p.toChars = p.value? := by
  have taken : (p.whole ++ '.' :: p.fraction).span Digits.isDecimal =
      (p.whole, '.' :: p.fraction) :=
    Stops.span p.whole_numeral.digits (Stops.cons_iff.mpr (by decide))
  cases isSigned : p.negative with
  | true =>
      simp only [ofChars?, Plain.toChars, sign, isSigned, if_true, List.cons_append,
        List.nil_append, taken]
      cases value : Digits.valueOf? 10 (p.whole ++ p.fraction) with
      | none => simp [Plain.value?, value]
      | some n => simp [Plain.value?, value, isSigned]
  | false =>
      obtain ⟨c, more, begins⟩ := List.exists_cons_of_ne_nil p.whole_numeral.ne_nil
      have digit : c ≠ '-' := by
        rintro rfl
        exact absurd (p.whole_numeral.digits '-' (by simp [begins])) (by decide)
      have unsigned : ∀ cs : List Char, (match c :: cs with
          | '-' :: rest => (true, rest)
          | cs => (false, cs)) = (false, c :: cs) := by
        intro cs
        split
        · rename_i heq
          exact absurd (List.cons.inj heq).1 digit
        · rfl
      rw [begins] at taken
      simp only [List.cons_append] at taken
      simp only [ofChars?, Plain.toChars, sign, isSigned, Bool.false_eq_true, if_false, begins,
        List.cons_append, List.nil_append, unsigned, taken]
      cases value : Digits.valueOf? 10 (p.whole ++ p.fraction) with
      | none => simp_all [Plain.value?]
      | some n => simp_all [Plain.value?]

theorem isNaN_of_isFinite {x : Float} (finite : x.isFinite = true) : x.isNaN = false := by
  change x.toModel.unpack.isFinite = true at finite
  change x.toModel.unpack.isNaN = false
  revert finite
  cases x.toModel.unpack with
  | notANumber => exact nofun
  | infinity _ | zero _ | finite _ _ _ _ => exact fun _ => rfl

theorem isInf_of_isFinite {x : Float} (finite : x.isFinite = true) : x.isInf = false := by
  change x.toModel.unpack.isFinite = true at finite
  change x.toModel.unpack.isInf = false
  revert finite
  cases x.toModel.unpack with
  | infinity _ => exact nofun
  | notANumber | zero _ | finite _ _ _ _ => exact fun _ => rfl

theorem mantissa_pos {x : Float} {negative : Bool} {b : Binary}
    (split : binaryOf? x = some (negative, b)) : 0 < b.mantissa := by
  simp only [binaryOf?] at split
  split at split
  · contradiction
  · rename_i nonzero
    split at split
    · rename_i subnormal
      cases split
      exact Nat.pos_of_ne_zero fun zero => nonzero (.inr ⟨subnormal, zero⟩)
    · cases split
      exact Nat.add_pos_right _ (by decide)

/-- A number is more than half the distance to its neighbour above zero. -/
theorem gapBelow_lt_numerator {b : Binary} (pos : 0 < b.mantissa) : b.gapBelow < b.numerator := by
  have power : 0 < Nat.pow 2 b.exponent.toNat := Nat.pow_pos (by decide)
  have factor : (if b.atPowerOfTwo then 1 else 2) < 4 * b.mantissa := by
    split <;> omega
  exact Nat.mul_lt_mul_of_pos_right factor power

/-- On no grid is zero as near as that to a number above it. -/
theorem onGrid?_pos {b : Binary} {step : Int} {n : Nat} (pos : 0 < b.mantissa)
    (found : b.onGrid? step = some n) : 0 < n := by
  rcases Nat.eq_zero_or_pos n with rfl | some
  · exfalso
    have scale : 0 < Nat.pow 10 (-step).toNat := Nat.pow_pos (by decide)
    have far : b.gapBelow * Nat.pow 10 (-step).toNat < b.numerator * Nat.pow 10 (-step).toNat :=
      Nat.mul_lt_mul_of_pos_right (gapBelow_lt_numerator pos) scale
    simp only [Binary.onGrid?] at found
    generalize b.numerator * Nat.pow 10 (-step).toNat = a at far found
    generalize b.gapBelow * Nat.pow 10 (-step).toNat = gap at far found
    generalize a / (b.denominator * Nat.pow 10 step.toNat) = down at found
    generalize b.gapAbove * Nat.pow 10 (-step).toNat = gapAbove at found
    generalize b.denominator * Nat.pow 10 step.toNat = unit at found
    -- Only the lower neighbour can be zero, and it is the whole number away.
    have zero : down = 0 := by
      grind
    have lower : (decide (a - down * unit < gap) ||
        (decide (a - down * unit = gap) && decide (b.mantissa % 2 = 0))) = false := by
      rw [zero, Nat.zero_mul, Nat.sub_zero, decide_eq_false (by omega), decide_eq_false (by omega)]
      rfl
    rw [lower] at found
    grind
  · exact some

theorem shortest_spec {b : Binary} (pos : 0 < b.mantissa) :
    0 < b.shortest.1 ∨ b.shortest = (0, 0) := by
  simp only [Binary.shortest]
  cases found : ((List.range 18).map fun k : Nat => b.magnitude - (k : Int)).findSome?
      fun step => (b.onGrid? step).map (·, step) with
  | none => exact .inr rfl
  | some result =>
      obtain ⟨step, -, here⟩ := List.exists_of_findSome?_eq_some found
      obtain ⟨n, onGrid, rfl⟩ := Option.map_eq_some_iff.mp here
      exact .inl (onGrid?_pos pos onGrid)

/-- Digits without a zero in front are the whole part, or behind zeros the fraction. -/
theorem exists_plain_positional (negative : Bool) {n : Nat} {exponent : Int}
    (found : 0 < n ∨ exponent = 0) :
    ∃ p : Plain, p.toChars = sign negative ++ positional (Digits.render 10 n) exponent := by
  have numeral := Digits.isNumeral_render n
  have nonzero : 0 < n → (Digits.render 10 n).head? ≠ some '0' :=
    Digits.head?_render_ne (by decide) (by decide)
  generalize Digits.render 10 n = run at *
  have zeros : ∀ count, ∀ c ∈ List.replicate count '0' ++ run, Digits.isDecimal c = true :=
    fun count => List.forall_mem_append.mpr
      ⟨fun c member => List.eq_of_mem_replicate member ▸ rfl, numeral.digits⟩
  simp only [positional]
  split
  · rename_i nonneg
    have whole : Digits.IsNumeral (run ++ List.replicate exponent.toNat '0') := by
      rcases found with pos | rfl
      · refine ⟨?_, by simp [numeral.ne_nil], ?_⟩
        · exact fun c member => zeros exponent.toNat c (by simp at member ⊢; tauto)
        · rw [List.head?_append_of_ne_nil _ numeral.ne_nil]
          exact fun zero => absurd zero (nonzero pos)
      · simpa using numeral
    exact ⟨⟨negative, _, ['0'], whole, Digits.isNumeral_zero.digits, Digits.isNumeral_zero.ne_nil⟩,
      by simp [Plain.toChars]⟩
  · rename_i negativeExponent
    have pos : 0 < n := found.resolve_right (by omega)
    have places : 0 < exponent.natAbs := by omega
    generalize exponent.natAbs = count at places
    have digits := zeros (count + 1 - run.length)
    have long : count < (List.replicate (count + 1 - run.length) '0' ++ run).length := by
      simp only [List.length_append, List.length_replicate]
      omega
    refine ⟨⟨negative, _, _, ⟨fun c member => digits c (List.mem_of_mem_take member), ?_, ?_⟩,
      fun c member => digits c (List.mem_of_mem_drop member), ?_⟩, List.append_assoc ..⟩
    · rw [← List.length_pos_iff, List.length_take]
      omega
    · rcases Nat.lt_or_ge count run.length with short | wide
      · rw [Nat.sub_eq_zero_of_le short, List.replicate_zero, List.nil_append,
          List.head?_take, if_neg (by omega)]
        exact fun zero => absurd zero (nonzero pos)
      · have one : (List.replicate (count + 1 - run.length) '0' ++ run).length - count = 1 := by
          simp only [List.length_append, List.length_replicate]
          omega
        rw [one, show count + 1 - run.length = (count - run.length) + 1 by omega]
        simp [List.replicate_succ]
    · rw [← List.length_pos_iff, List.length_drop]
      omega

/-- The text of a finite number is plain. -/
theorem exists_plain_text {x : Float} (finite : x.isFinite = true) :
    ∃ p : Plain, p.toChars = text x := by
  rw [text, isNaN_of_isFinite finite, if_neg Bool.false_ne_true]
  cases split : binaryOf? x with
  | none =>
      refine ⟨⟨isNegative x, ['0'], ['0'], Digits.isNumeral_zero, Digits.isNumeral_zero.digits,
        Digits.isNumeral_zero.ne_nil⟩, ?_⟩
      simp [Plain.toChars, sign, isInf_of_isFinite finite]
  | some parts =>
      obtain ⟨negative, b⟩ := parts
      refine exists_plain_positional negative ?_
      rcases shortest_spec (mantissa_pos split) with pos | none
      · exact .inl pos
      · exact .inr (congrArg Prod.snd none)

end AdmissionGate.Decimal
