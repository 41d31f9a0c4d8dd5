import AdmissionGate.Proofs.Toml.Numbers
import AdmissionGate.Proofs.Toml.Strings
import AdmissionGate.Toml.Document
import Mathlib.Data.List.Forall2

/-!
Values read back from their text: truth values, numbers and strings, and lists of these, which
stand on one line while they have at most one item, and else give each item a line of its own.
-/

namespace AdmissionGate.Toml

variable {d : Datum} {cs rest : List Char}

def IsScalar : Datum → Prop
  | .bool _ => True
  | .int n => isInteger n = true
  | .float x => x.isFinite = true ∧ Decimal.ReadsBack x
  | .text s => IsQuotable s.toList
  | .null | .moment | .list _ | .table _ => False

inductive IsFlat : Datum → Prop
  | scalar {d : Datum} (scalar : IsScalar d) : IsFlat d
  | list {items : List Datum} (scalars : ∀ item ∈ items, IsScalar item) : IsFlat (.list items)

def scalarValue : Datum → Value
  | .bool b => .bool b
  | .int n => .int n
  | .float x => .float x
  | .text s => .text s
  | _ => .moment

def flatValue : Datum → Value
  | .list items => .array (items.map scalarValue)
  | d => scalarValue d

theorem toDatum?_scalarValue (scalar : IsScalar d) : (scalarValue d).toDatum? = some d := by
  cases d with
  | bool _ | int _ | float _ | text _ => rfl
  | null | moment | list _ | table _ => exact scalar.elim

theorem valuesToData?_scalarValue {items : List Datum} (scalars : ∀ item ∈ items, IsScalar item) :
    valuesToData? (items.map scalarValue) = some items := by
  induction items with
  | nil => rfl
  | cons item items ih =>
      obtain ⟨first, others⟩ := List.forall_mem_cons.mp scalars
      simp [valuesToData?, toDatum?_scalarValue first, ih others]

theorem flatValue_of_isScalar (scalar : IsScalar d) : flatValue d = scalarValue d := by
  cases d with
  | list _ => exact scalar.elim
  | _ => rfl

theorem toDatum?_flatValue (flat : IsFlat d) : (flatValue d).toDatum? = some d := by
  cases flat with
  | scalar scalar => rw [flatValue_of_isScalar scalar, toDatum?_scalarValue scalar]
  | list scalars => simp [flatValue, Value.toDatum?, valuesToData?_scalarValue scalars]

/-- Text that no reader passes over as space or as a comment. -/
def Begins (cs : List Char) : Prop :=
  ∃ c more, cs = c :: more ∧ isBlank c = false ∧ c ≠ '#' ∧ c ≠ '\n' ∧ c ≠ '\r'

theorem Begins.append (begins : Begins cs) (rest : List Char) : Begins (cs ++ rest) := by
  obtain ⟨c, more, rfl, solid⟩ := begins
  exact ⟨c, more ++ rest, rfl, solid⟩

/-- Text that says a value, whatever the place it stands in. -/
structure Reads (cs : List Char) (v : Value) : Prop where
  begins : Begins cs
  takes : ∀ {rest}, EndsValue rest → ∀ fuel depth,
    takeValue (fuel + 1) depth (cs ++ rest) = some (v, rest)

theorem reads_text {s : String} (quotable : IsQuotable s.toList) :
    Reads (renderText s.toList) (.text s) where
  begins := by
    obtain ⟨more, double | single⟩ := head?_renderText quotable
    · exact ⟨'"', more, double, by decide⟩
    · exact ⟨'\x27', more, single, by decide⟩
  takes := by
    intro rest ends fuel depth
    have noQuote : rest.head? ≠ some '"' := by
      obtain ⟨c, more, rfl, rfl | rfl | rfl⟩ := ends <;> simp
    have taken := takeText_renderText quotable noQuote
    obtain ⟨more, double | single⟩ := head?_renderText quotable
    · rw [double] at taken ⊢
      simp only [takeValue, List.cons_append] at taken ⊢
      simp [taken]
    · rw [single] at taken ⊢
      simp only [takeValue, List.cons_append] at taken ⊢
      simp [taken]

/-- A number is neither a string, nor a word, nor a list or a table. -/
theorem takeValue_number {whole tail : List Char} (negative : Bool)
    (numeral : Digits.IsNumeral whole) (fuel depth : Nat) :
    takeValue (fuel + 1) depth (Decimal.sign negative ++ whole ++ tail) =
      takeScalar (Decimal.sign negative ++ whole ++ tail) := by
  cases negative with
  | true => rfl
  | false =>
      obtain ⟨d, more, rfl, digit⟩ := numeral.exists_cons
      have others : d ≠ '"' ∧ d ≠ '\x27' ∧ d ≠ 't' ∧ d ≠ 'f' ∧ d ≠ '[' ∧ d ≠ '\x7b' := by
        refine ⟨?_, ?_, ?_, ?_, ?_, ?_⟩ <;> exact Digits.ne_of_isDecimal digit rfl
      simp only [Decimal.sign, Bool.false_eq_true, if_false, List.nil_append, List.cons_append]
      rw [takeValue.eq_def]
      dsimp only
      split <;> simp_all

theorem begins_number {whole : List Char} (negative : Bool) (numeral : Digits.IsNumeral whole) :
    Begins (Decimal.sign negative ++ whole) := by
  cases negative with
  | true => exact ⟨'-', whole, rfl, by decide⟩
  | false =>
      obtain ⟨d, more, rfl, digit⟩ := numeral.exists_cons
      have other : ∀ c, Digits.isDecimal c = false → d ≠ c := fun _ =>
        Digits.ne_of_isDecimal digit
      have solid : isBlank d = false := by
        simp only [isBlank, Bool.or_eq_false_iff, decide_eq_false_iff_not]
        exact ⟨other _ rfl, other _ rfl⟩
      exact ⟨d, more, rfl, solid, other _ rfl, other _ rfl, other _ rfl⟩

theorem reads_int {n : Int} (rendered : renderInt? n = some cs) : Reads cs (.int n) := by
  obtain ⟨negative, m, -, shape⟩ := exists_sign_of_renderInt? rendered
  have numeral := Digits.isNumeral_render m
  refine ⟨shape ▸ begins_number negative numeral, fun {rest} ends fuel depth => ?_⟩
  rw [← takeScalar_renderInt? rendered ends, shape]
  exact takeValue_number negative numeral fuel depth

theorem reads_float {x : Float} (finite : x.isFinite = true) (back : Decimal.ReadsBack x) :
    Reads (Decimal.text x) (.float x) := by
  obtain ⟨p, shape⟩ := Decimal.exists_plain_text finite
  refine ⟨?_, fun {rest} ends fuel depth => ?_⟩
  · rw [← shape]
    exact (begins_number p.negative p.whole_numeral).append _
  · rw [← takeScalar_text finite back ends, ← shape, Decimal.Plain.toChars, List.append_assoc]
    exact takeValue_number p.negative p.whole_numeral fuel depth

theorem reads_scalar (scalar : IsScalar d) (rendered : renderValue? d = some cs) :
    Reads cs (scalarValue d) := by
  cases d with
  | bool b =>
      cases b with
      | true =>
          cases rendered
          exact ⟨⟨'t', _, rfl, by decide⟩, fun _ _ _ => rfl⟩
      | false =>
          cases rendered
          exact ⟨⟨'f', _, rfl, by decide⟩, fun _ _ _ => rfl⟩
  | int n => exact reads_int rendered
  | float x =>
      cases rendered
      exact reads_float scalar.1 scalar.2
  | text s =>
      cases rendered
      exact reads_text scalar
  | null | moment | list _ | table _ => exact scalar.elim

theorem skipBlanks_of_begins (begins : Begins cs) : skipBlanks cs = cs := by
  obtain ⟨c, more, rfl, solid, -⟩ := begins
  exact Stops.dropWhile_self (Stops.cons_iff.mpr solid)

theorem skipLines_of_begins (begins : Begins cs) (fuel : Nat) : skipLines fuel cs = cs := by
  cases fuel with
  | zero => rfl
  | succ fuel =>
      rw [skipLines, skipBlanks_of_begins begins]
      obtain ⟨c, more, rfl, -, hash, line, feed⟩ := begins
      have noEnd : takeLineEnd (c :: more) = none := by
        rw [takeLineEnd.eq_def]
        split <;> simp_all
      split
      · simp_all
      · rw [noEnd]

/-- After a line end, blanks that indent the next line are passed over. -/
theorem skipLines_newline (begins : Begins cs) (indent : Nat) :
    skipLines ('\n' :: (List.replicate indent ' ' ++ cs)).length
      ('\n' :: (List.replicate indent ' ' ++ cs)) = cs := by
  have blanks : skipBlanks (List.replicate indent ' ' ++ cs) = cs := by
    obtain ⟨c, more, rfl, solid, -⟩ := begins
    refine Stops.dropWhile ?_ (Stops.cons_iff.mpr solid)
    exact fun c member => List.eq_of_mem_replicate member ▸ rfl
  have some : 0 < cs.length := by
    obtain ⟨c, more, rfl, -⟩ := begins
    exact Nat.succ_pos _
  obtain ⟨fuel, enough⟩ : ∃ fuel, (List.replicate indent ' ' ++ cs).length = fuel + 1 :=
    Nat.exists_eq_add_one.mpr (by simp; omega)
  have here := skipLines_of_begins begins (fuel + 1)
  rw [skipLines, skipBlanks_of_begins begins] at here
  rw [List.length_cons, enough]
  change skipLines (fuel + 1) _ = _
  rw [skipLines, blanks]
  exact here

def rows : List (List Char) → List Char
  | [] => ['\n', ']']
  | item :: items => '\n' :: (List.replicate 4 ' ' ++ (item ++ ',' :: rows items))

theorem listText_of_many {first second : List Char} {items : List (List Char)} :
    listText (first :: second :: items) = '[' :: rows (first :: second :: items) := by
  have lines : ∀ texts : List (List Char),
      '\n' :: (texts.flatMap (fun item => [' ', ' ', ' ', ' '] ++ item ++ [',', '\n']) ++ [']']) =
        rows texts := by
    intro texts
    induction texts with
    | nil => rfl
    | cons text texts ih => simp [rows, ← ih, List.replicate_succ]
  rw [← lines]
  rfl

theorem begins_bracket (rest : List Char) : Begins (']' :: rest) := ⟨']', rest, rfl, by decide⟩

theorem takeItems_close (fuel depth : Nat) {before : List Char}
    (skipped : skipLines before.length before = ']' :: rest) :
    takeItems (fuel + 1) depth before = some ([], rest) := by
  rw [takeItems.eq_def]
  simp only [skipped]

theorem takeValue_bracket (fuel depth : Nat) (rest : List Char) :
    takeValue (fuel + 1) depth (']' :: rest) = none := by
  change takeScalar (']' :: rest) = none
  have noDigits : takeSpaced 10 (']' :: rest) = none := by
    rw [takeSpaced.eq_def]
    rfl
  rw [takeScalar_of_other (by decide)]
  simp [takeNumber, takeSpecial, takeDecimal, noDigits]

/-- An item is read up to the comma or bracket behind it. -/
theorem takeItems_item {item : List Char} {v : Value} {c : Char} {more before : List Char}
    (reads : Reads item v) (mark : c = ',' ∨ c = ']') (fuel depth : Nat)
    (skipped : skipLines before.length before = item ++ c :: more) :
    takeItems (fuel + 2) depth before =
      if c = ']' then some ([v], more)
      else (takeItems (fuel + 1) depth more).map fun (vs, rest) => (v :: vs, rest) := by
  have taken := reads.takes ⟨c, more, rfl, .inr mark⟩ fuel depth
  have solid : Begins (c :: more) := by
    rcases mark with rfl | rfl <;> exact ⟨_, more, rfl, by decide⟩
  rw [takeItems.eq_def]
  dsimp only
  rw [skipped]
  split
  · rename_i heq
    rw [heq, takeValue_bracket] at taken
    contradiction
  · rw [taken]
    simp only [Option.bind_eq_bind, Option.bind_some, skipLines_of_begins solid]
    rcases mark with rfl | rfl <;> rfl

theorem takeItems_rows {texts : List (List Char)} {values : List Value}
    (reads : List.Forall₂ Reads texts values) {fuel : Nat} (enough : values.length < fuel)
    (depth : Nat) : takeItems fuel depth (rows texts ++ rest) = some (values, rest) := by
  induction reads generalizing fuel with
  | nil =>
      obtain ⟨fuel, rfl⟩ : ∃ f, fuel = f + 1 := Nat.exists_eq_add_one.mpr (by omega)
      exact takeItems_close fuel depth (skipLines_newline (begins_bracket rest) 0)
  | @cons item v texts values first others ih =>
      obtain ⟨fuel, rfl⟩ : ∃ f, fuel = f + 2 := ⟨fuel - 2, by simp at enough; omega⟩
      have skipped := skipLines_newline (first.begins.append (',' :: (rows texts ++ rest))) 4
      have step := takeItems_item first (.inl rfl) fuel depth skipped
      rw [ih (by simp at enough; omega)] at step
      simpa [rows] using step

theorem takeValue_listText {texts : List (List Char)} {values : List Value}
    (reads : List.Forall₂ Reads texts values) {fuel depth : Nat} (enough : values.length + 1 < fuel)
    (shallow : depth + 1 < depthLimit) :
    takeValue fuel depth (listText texts ++ rest) = some (.array values, rest) := by
  obtain ⟨fuel, rfl⟩ : ∃ f, fuel = f + 2 := ⟨fuel - 2, by omega⟩
  have opened : ∀ inner, takeItems (fuel + 1) (depth + 1) inner = some (values, rest) →
      takeValue (fuel + 2) depth ('[' :: inner) = some (.array values, rest) := by
    intro inner taken
    rw [takeValue.eq_def]
    simp only
    rw [if_neg (by omega), taken]
    rfl
  cases reads with
  | nil => exact opened _ (takeItems_close _ _ (skipLines_of_begins (begins_bracket rest) _))
  | @cons item v texts values first others =>
      cases others with
      | nil =>
          obtain ⟨fuel, rfl⟩ : ∃ f, fuel = f + 1 :=
            Nat.exists_eq_add_one.mpr (by simp at enough; omega)
          have skipped := skipLines_of_begins (first.begins.append (']' :: rest))
          have taken := opened _ (takeItems_item first (.inr rfl) fuel (depth + 1) (skipped _))
          simpa [listText] using taken
      | cons second others =>
          rw [listText_of_many]
          exact opened _ (takeItems_rows (.cons first (.cons second others)) (by omega) _)

theorem forall₂_reads {items : List Datum} {texts : List (List Char)}
    (scalars : ∀ item ∈ items, IsScalar item) (rendered : renderItems? items = some texts) :
    List.Forall₂ Reads texts (items.map scalarValue) := by
  induction items generalizing texts with
  | nil =>
      cases rendered
      exact .nil
  | cons item items ih =>
      obtain ⟨here, others⟩ := List.forall_mem_cons.mp scalars
      simp only [renderItems?, Option.bind_eq_bind, Option.bind_eq_some_iff] at rendered
      obtain ⟨first, said, more, rest, together⟩ := rendered
      cases together
      exact .cons (reads_scalar here said) (ih others rest)

/-- A list has more characters than items. -/
theorem length_lt_length_listText {texts : List (List Char)} {values : List Value}
    (reads : List.Forall₂ Reads texts values) : values.length + 1 ≤ (listText texts).length := by
  rw [← List.Forall₂.length_eq reads]
  have long : ∀ texts, texts.length + 2 ≤ (rows texts).length := by
    intro texts
    induction texts with
    | nil => decide
    | cons text texts ih =>
        simp only [rows, List.length_cons, List.length_append]
        omega
  match texts with
  | [] => decide
  | [item] => simp [listText]
  | first :: second :: texts =>
      rw [listText_of_many]
      exact Nat.le_succ_of_le (Nat.le_of_succ_le (long (first :: second :: texts)))

theorem begins_flat (flat : IsFlat d) (rendered : renderValue? d = some cs) : Begins cs := by
  cases flat with
  | scalar scalar => exact (reads_scalar scalar rendered).begins
  | list _ =>
      obtain ⟨texts, -, rfl⟩ := Option.map_eq_some_iff.mp rendered
      match texts with
      | [] | [_] | _ :: _ :: _ => exact ⟨'[', _, rfl, by decide⟩

theorem takeValue_flat (flat : IsFlat d) (rendered : renderValue? d = some cs)
    (ends : EndsValue rest) {fuel : Nat} (enough : cs.length < fuel) :
    takeValue (fuel + 1) 0 (cs ++ rest) = some (flatValue d, rest) := by
  cases flat with
  | scalar scalar =>
      rw [flatValue_of_isScalar scalar, (reads_scalar scalar rendered).takes ends fuel 0]
  | list scalars =>
      obtain ⟨texts, said, rfl⟩ := Option.map_eq_some_iff.mp rendered
      have reads := forall₂_reads scalars said
      have long := length_lt_length_listText reads
      exact takeValue_listText reads (by omega) (by decide)

theorem exists_renderScalar? (scalar : IsScalar d) : ∃ cs, renderValue? d = some cs := by
  cases d with
  | bool b => cases b <;> exact ⟨_, rfl⟩
  | int n => exact exists_renderInt? scalar
  | float _ | text _ => exact ⟨_, rfl⟩
  | null | moment | list _ | table _ => exact scalar.elim

theorem exists_renderItems? {items : List Datum} (scalars : ∀ item ∈ items, IsScalar item) :
    ∃ texts, renderItems? items = some texts := by
  induction items with
  | nil => exact ⟨[], rfl⟩
  | cons item items ih =>
      obtain ⟨here, others⟩ := List.forall_mem_cons.mp scalars
      obtain ⟨first, said⟩ := exists_renderScalar? here
      obtain ⟨more, rest⟩ := ih others
      exact ⟨first :: more, by simp [renderItems?, said, rest]⟩

theorem exists_renderValue? (flat : IsFlat d) : ∃ cs, renderValue? d = some cs := by
  cases flat with
  | scalar scalar => exact exists_renderScalar? scalar
  | list scalars =>
      obtain ⟨texts, rendered⟩ := exists_renderItems? scalars
      exact ⟨listText texts, by simp [renderValue?, rendered]⟩

end AdmissionGate.Toml
