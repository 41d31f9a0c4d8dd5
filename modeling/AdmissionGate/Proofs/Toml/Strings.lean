import AdmissionGate.Proofs.Text.Digits
import AdmissionGate.Toml.Printer
import AdmissionGate.Toml.Text

/-!
Strings read back from their quoted text. Without control characters and apostrophes a string
stands between double quotes, or between single ones if it has double quotes or backslashes.
-/

namespace AdmissionGate.Toml

variable {c : Char} {cs rest : List Char}

/-- Text that one pair of quotes can hold, without escapes except those of tabs. -/
def IsQuotable (cs : List Char) : Prop := ∀ c ∈ cs, isPlain c = true ∧ c ≠ '\x27'

instance (cs : List Char) : Decidable (IsQuotable cs) := List.decidableBAll _ cs

theorem needsEscape_of_isPlain (plain : isPlain c = true) : needsEscape c = false := by
  by_cases tab : c = '\t'
  · subst tab
    rfl
  · simp only [isPlain, tab, decide_false, Bool.false_or, Bool.and_eq_true,
      decide_eq_true_eq] at plain
    simp only [needsEscape, Bool.or_eq_false_iff, Bool.and_eq_false_iff, decide_eq_false_iff_not]
    omega

theorem quotesFor_of_isQuotable (quotable : IsQuotable cs) :
    quotesFor cs = if '\\' ∈ cs ∨ '"' ∈ cs then .literal else .basic := by
  have escapes : cs.any needsEscape = false := by
    rw [List.any_eq_false]
    exact fun c member => by simp [needsEscape_of_isPlain (quotable c member).1]
  have lines : cs.contains '\n' = false := by
    rw [← Bool.not_eq_true, List.contains_iff_mem]
    exact fun member => absurd (quotable _ member).1 (by decide)
  have quote : cs.contains '\x27' = false := by
    rw [← Bool.not_eq_true, List.contains_iff_mem]
    exact fun member => (quotable _ member).2 rfl
  simp only [quotesFor, escapes, lines, quote]
  by_cases backslash : '\\' ∈ cs
  · simp [backslash]
  · by_cases double : '"' ∈ cs
    · simp [backslash, double]
    · simp [backslash, double]

theorem escapeChar_of_isPlain (plain : isPlain c = true) (tab : c ≠ '\t') (double : c ≠ '"')
    (backslash : c ≠ '\\') : escapeChar c = [c] := by
  have printable : ¬(c.toNat < 0x20 ∨ c.toNat = 0x7f) := by
    unfold isPlain at plain
    grind
  unfold escapeChar
  split <;> first
    | contradiction
    | exact absurd plain (by decide)
    | rw [if_neg printable]

theorem takeBasic_cons (plain : isPlain c = true) (double : c ≠ '"') (backslash : c ≠ '\\') :
    takeBasic (c :: rest) = Taken.cons c (takeBasic rest) := by
  rw [takeBasic.eq_def]
  split <;> simp_all

theorem takeBasic_escapeChar (plain : isPlain c = true) (double : c ≠ '"') (backslash : c ≠ '\\') :
    takeBasic (escapeChar c ++ rest) = Taken.cons c (takeBasic rest) := by
  by_cases tab : c = '\t'
  · subst tab
    rfl
  · rw [escapeChar_of_isPlain plain tab double backslash, List.singleton_append,
      takeBasic_cons plain double backslash]

theorem takeBasic_flatMap_escapeChar
    (plain : ∀ c ∈ cs, isPlain c = true ∧ c ≠ '"' ∧ c ≠ '\\') :
    takeBasic (cs.flatMap escapeChar ++ '"' :: rest) = some (cs, rest) := by
  induction cs with
  | nil => rfl
  | cons c cs ih =>
      obtain ⟨here, others⟩ := List.forall_mem_cons.mp plain
      rw [List.flatMap_cons, List.append_assoc, takeBasic_escapeChar here.1 here.2.1 here.2.2,
        ih others]
      rfl

/-- What an escaped character begins with is no quote. -/
theorem head?_escapeChar (plain : isPlain c = true) (double : c ≠ '"') (backslash : c ≠ '\\') :
    ∃ d more, escapeChar c = d :: more ∧ d ≠ '"' := by
  by_cases tab : c = '\t'
  · subst tab
    exact ⟨'\\', ['t'], rfl, by decide⟩
  · exact ⟨c, [], escapeChar_of_isPlain plain tab double backslash, double⟩

theorem takeText_basic (plain : ∀ c ∈ cs, isPlain c = true ∧ c ≠ '"' ∧ c ≠ '\\')
    (ends : rest.head? ≠ some '"') :
    takeText ('"' :: (cs.flatMap escapeChar ++ '"' :: rest)) = some (cs, rest) := by
  have taken : takeBasic (cs.flatMap escapeChar ++ '"' :: rest) = some (cs, rest) :=
    takeBasic_flatMap_escapeChar plain
  cases cs with
  | nil =>
      cases rest with
      | nil => rfl
      | cons d more =>
          have other : d ≠ '"' := by simpa using ends
          rw [List.flatMap_nil, List.nil_append] at taken ⊢
          rw [takeText.eq_def]
          split <;> simp_all
  | cons c cs =>
      obtain ⟨here, -⟩ := List.forall_mem_cons.mp plain
      obtain ⟨d, more, begins, other⟩ := head?_escapeChar here.1 here.2.1 here.2.2
      rw [List.flatMap_cons, begins, List.cons_append, List.cons_append] at taken ⊢
      rw [takeText.eq_def]
      split <;> simp_all

theorem takeLiteral_quotable (quotable : IsQuotable cs) :
    takeLiteral (cs ++ '\x27' :: rest) = some (cs, rest) := by
  induction cs with
  | nil => rfl
  | cons c cs ih =>
      obtain ⟨⟨plain, other⟩, others⟩ := List.forall_mem_cons.mp quotable
      rw [List.cons_append, takeLiteral.eq_def]
      simp [plain, ih others, Taken.cons]

theorem takeText_literal (quotable : IsQuotable cs) (nonempty : cs ≠ []) :
    takeText ('\x27' :: (cs ++ '\x27' :: rest)) = some (cs, rest) := by
  have taken : takeLiteral (cs ++ '\x27' :: rest) = some (cs, rest) := takeLiteral_quotable quotable
  cases cs with
  | nil => exact absurd rfl nonempty
  | cons c cs =>
      have other : c ≠ '\x27' := (quotable c (by simp)).2
      rw [List.cons_append] at taken ⊢
      rw [takeText.eq_def]
      split <;> simp_all

theorem takeText_renderText (quotable : IsQuotable cs) (ends : rest.head? ≠ some '"') :
    takeText (renderText cs ++ rest) = some (cs, rest) := by
  rw [renderText, quotesFor_of_isQuotable quotable]
  split_ifs with special
  · have nonempty : cs ≠ [] := by
      rintro rfl
      simp at special
    simpa using takeText_literal quotable nonempty
  · have plain : ∀ c ∈ cs, isPlain c = true ∧ c ≠ '"' ∧ c ≠ '\\' := by
      intro c member
      refine ⟨(quotable c member).1, ?_, ?_⟩
      · rintro rfl
        exact special (.inr member)
      · rintro rfl
        exact special (.inl member)
    simpa using takeText_basic plain ends

/-- A quoted string begins with a quote. -/
theorem head?_renderText (quotable : IsQuotable cs) :
    ∃ more, renderText cs = '"' :: more ∨ renderText cs = '\x27' :: more := by
  rw [renderText, quotesFor_of_isQuotable quotable]
  split_ifs
  · exact ⟨_, .inr rfl⟩
  · exact ⟨_, .inl rfl⟩

end AdmissionGate.Toml
