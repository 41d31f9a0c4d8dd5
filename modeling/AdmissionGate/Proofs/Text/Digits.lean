import AdmissionGate.Text.Digits
import Mathlib.Algebra.Group.Nat.Defs
import Mathlib.Data.List.Basic
import Mathlib.Data.List.TakeDrop

/-!
Digits read back. What is written of a number, with zeros in front or without, has that number as
its value. A run of characters of one kind is taken as a whole when something else comes after it.
-/

namespace AdmissionGate

def Stops (p : Char → Bool) (rest : List Char) : Prop := ∀ c ∈ rest.head?, p c = false

namespace Stops

variable {p q : Char → Bool} {cs rest : List Char}

@[simp]
theorem nil (p : Char → Bool) : Stops p [] := nofun

@[simp]
theorem cons_iff {c : Char} : Stops p (c :: rest) ↔ p c = false := by simp [Stops]

theorem takeWhile (run : ∀ c ∈ cs, p c = true) (stops : Stops p rest) :
    (cs ++ rest).takeWhile p = cs := by
  rw [List.takeWhile_append_of_pos run]
  cases rest with
  | nil => exact List.append_nil cs
  | cons c more => rw [List.takeWhile_cons_of_neg (by simp_all), List.append_nil]

theorem dropWhile (run : ∀ c ∈ cs, p c = true) (stops : Stops p rest) :
    (cs ++ rest).dropWhile p = rest := by
  rw [List.dropWhile_append_of_pos run]
  cases rest with
  | nil => rfl
  | cons c more => rw [List.dropWhile_cons_of_neg (by simp_all)]

theorem span (run : ∀ c ∈ cs, p c = true) (stops : Stops p rest) :
    (cs ++ rest).span p = (cs, rest) := by
  rw [List.span_eq_takeWhile_dropWhile, takeWhile run stops, dropWhile run stops]

theorem dropWhile_self (stops : Stops p rest) : rest.dropWhile p = rest := by
  simpa using dropWhile (List.forall_mem_nil _) stops

theorem imp (weaker : ∀ c, p c = true → q c = true) (stops : Stops q rest) : Stops p rest := by
  intro c first
  have out := stops c first
  cases kind : p c with
  | false => rfl
  | true => exact absurd (weaker c kind) (by simp [out])

end Stops

namespace Digits

variable {base n width : Nat} {cs : List Char}

theorem value?_ofNat {d : Nat} (small : d < base) (base_le : base ≤ 16) :
    value? base (ofNat d) = some d := by
  have all : ∀ b ≤ 16, ∀ d < b, value? b (ofNat d) = some d := by decide
  exact all base base_le d small

theorem ne_of_isDecimal {c d : Char} (digit : isDecimal c = true) (other : isDecimal d = false) :
    c ≠ d := by
  rintro rfl
  exact Bool.false_ne_true (other.symm.trans digit)

theorem isDecimal_ofNat {d : Nat} (small : d < 10) : isDecimal (ofNat d) = true := by
  have all : ∀ d < 10, isDecimal (ofNat d) = true := by decide
  exact all d small

theorem valueOf?_concat (base : Nat) (cs : List Char) (c : Char) :
    valueOf? base (cs ++ [c]) =
      (valueOf? base cs).bind fun n => (value? base c).map (base * n + ·) := by
  simp only [valueOf?, List.foldlM_append, List.foldlM_cons, List.foldlM_nil, bind_pure]
  rfl

theorem valueOf?_render (two_le : 2 ≤ base) (base_le : base ≤ 16) (n : Nat) :
    valueOf? base (render base n) = some n := by
  induction n using Nat.strongRecOn with
  | _ n ih =>
      rw [render]
      split
      · rename_i small
        have one : n < base := by omega
        simp [valueOf?, value?_ofNat one base_le]
      · have less : n / base < n := Nat.div_lt_self (by omega) (by omega)
        rw [valueOf?_concat, ih _ less, Option.bind_some,
          value?_ofNat (Nat.mod_lt n (by omega)) base_le, Option.map_some, Nat.div_add_mod]

theorem value?_zero (pos : 0 < base) : value? base '0' = some 0 := by
  unfold value?
  simp [pos]

theorem valueOf?_replicate_append (pos : 0 < base) (count : Nat) (cs : List Char) :
    valueOf? base (List.replicate count '0' ++ cs) = valueOf? base cs := by
  induction count with
  | zero => rfl
  | succ count ih =>
      rw [List.replicate_succ, List.cons_append, valueOf?, List.foldlM_cons, value?_zero pos]
      exact ih

theorem valueOf?_padLeft (pos : 0 < base) (width : Nat) (cs : List Char) :
    valueOf? base (padLeft width cs) = valueOf? base cs :=
  valueOf?_replicate_append pos ..

/-- Zeros behind a number are factors of it. -/
theorem valueOf?_append_replicate (pos : 0 < base) (cs : List Char) (count : Nat) :
    valueOf? base (cs ++ List.replicate count '0') =
      (valueOf? base cs).map (· * base ^ count) := by
  induction count with
  | zero => simp
  | succ count ih =>
      rw [List.replicate_succ', ← List.append_assoc, valueOf?_concat, ih, value?_zero pos]
      cases valueOf? base cs with
      | none => rfl
      | some n => simp only [Option.map_some, Option.bind_some, Nat.pow_succ]; grind

theorem forall_mem_render {p : Char → Prop} (two_le : 2 ≤ base)
    (digit : ∀ d < base, p (ofNat d)) (n : Nat) : ∀ c ∈ render base n, p c := by
  induction n using Nat.strongRecOn with
  | _ n ih =>
      rw [render]
      split
      · rename_i small
        have one : n < base := by omega
        simpa using digit n one
      · have less : n / base < n := Nat.div_lt_self (by omega) (by omega)
        rw [List.forall_mem_append, List.forall_mem_singleton]
        exact ⟨ih _ less, digit _ (Nat.mod_lt n (by omega))⟩

theorem value?_isSome_of_mem_render (two_le : 2 ≤ base) (base_le : base ≤ 16) (n : Nat) :
    ∀ c ∈ render base n, (value? base c).isSome = true :=
  forall_mem_render two_le (fun d small => by rw [value?_ofNat small base_le]; rfl) n

theorem isDecimal_of_mem_render (n : Nat) : ∀ c ∈ render 10 n, isDecimal c = true :=
  forall_mem_render (by decide) (fun _ small => isDecimal_ofNat small) n

theorem render_ne_nil (base n : Nat) : render base n ≠ [] := by
  rw [render]
  split <;> simp

theorem length_render_le {k : Nat} (pos : 0 < k) (less : n < base ^ k) :
    (render base n).length ≤ k := by
  induction k generalizing n with
  | zero => contradiction
  | succ k ih =>
      rw [render]
      split
      · exact Nat.le_add_left ..
      · rename_i large
        have more : 0 < k := by
          rcases Nat.eq_zero_or_pos k with rfl | more
          · rw [Nat.zero_add, Nat.pow_one] at less
            omega
          · exact more
        have shorter := ih more (Nat.div_lt_of_lt_mul (by rwa [Nat.pow_succ'] at less))
        simpa using shorter

theorem mem_padLeft {c : Char} (member : c ∈ padLeft width cs) : c = '0' ∨ c ∈ cs := by
  rcases List.mem_append.mp member with zero | digit
  · exact .inl (List.eq_of_mem_replicate zero)
  · exact .inr digit

theorem length_padLeft (le : cs.length ≤ width) : (padLeft width cs).length = width := by
  rw [padLeft, List.length_append, List.length_replicate, Nat.sub_add_cancel le]

/-- A number with zeros in front. -/
theorem valueOf?_padded (two_le : 2 ≤ base) (base_le : base ≤ 16) (width n : Nat) :
    valueOf? base (padLeft width (render base n)) = some n := by
  rw [valueOf?_padLeft (by omega), valueOf?_render two_le base_le]

theorem length_padded (pos : 0 < width) (less : n < base ^ width) :
    (padLeft width (render base n)).length = width :=
  length_padLeft (length_render_le pos less)

theorem padded_ne_nil (width base n : Nat) : padLeft width (render base n) ≠ [] :=
  List.append_ne_nil_of_right_ne_nil _ (render_ne_nil base n)

theorem isDecimal_of_mem_padded (width n : Nat) :
    ∀ c ∈ padLeft width (render 10 n), isDecimal c = true := by
  intro c member
  rcases mem_padLeft member with rfl | digit
  · rfl
  · exact isDecimal_of_mem_render n c digit

/-- A number that is not zero begins with a digit that is not zero. -/
theorem head?_render_ne (two_le : 2 ≤ base) (base_le : base ≤ 16) (pos : 0 < n) :
    (render base n).head? ≠ some '0' := by
  induction n using Nat.strongRecOn with
  | _ n ih =>
      rw [render]
      split
      · rename_i small
        have one : n < base := by omega
        intro zero
        have value := value?_ofNat one base_le
        rw [Option.some.inj zero, value?_zero (by omega)] at value
        exact absurd (Option.some.inj value) (by omega)
      · have less : n / base < n := Nat.div_lt_self (by omega) (by omega)
        rw [List.head?_append_of_ne_nil _ (render_ne_nil _ _)]
        exact ih _ less (Nat.div_pos (by omega) (by omega))

/-- Decimal digits without a zero in front of others. -/
structure IsNumeral (run : List Char) : Prop where
  digits : ∀ c ∈ run, isDecimal c = true
  ne_nil : run ≠ []
  zero_alone : run.head? = some '0' → run = ['0']

/-- The first digit, and the rest. -/
theorem IsNumeral.exists_cons {run : List Char} (numeral : IsNumeral run) :
    ∃ d more, run = d :: more ∧ isDecimal d = true := by
  obtain ⟨d, more, rfl⟩ := List.exists_cons_of_ne_nil numeral.ne_nil
  exact ⟨d, more, rfl, numeral.digits d List.mem_cons_self⟩

theorem isNumeral_zero : IsNumeral ['0'] where
  digits := List.all_eq_true.mp rfl
  ne_nil := nofun
  zero_alone := fun _ => rfl

theorem render_zero : render 10 0 = ['0'] := by
  rw [render, dif_pos (.inr (by decide))]
  rfl

theorem isNumeral_render (n : Nat) : IsNumeral (render 10 n) where
  digits := isDecimal_of_mem_render n
  ne_nil := render_ne_nil 10 n
  zero_alone := by
    intro zero
    rcases Nat.eq_zero_or_pos n with rfl | pos
    · exact render_zero
    · exact absurd zero (head?_render_ne (by decide) (by decide) pos)

end Digits

end AdmissionGate
