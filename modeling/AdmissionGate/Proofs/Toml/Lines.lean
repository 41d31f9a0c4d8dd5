import AdmissionGate.Proofs.Toml.Values

/-!
Lines read back. A header is a line, and so is a key with its value, unless the value is a list
with several items; each says one statement, whatever lines come after it. A text of such lines,
with empty ones among them, spells its statements.
-/

namespace AdmissionGate.Toml

variable {path : Path} {cs rest tail : List Char}

def IsBare (key : String) : Prop := key.toList ≠ [] ∧ ∀ c ∈ key.toList, isBareKeyChar c = true

instance (key : String) : Decidable (IsBare key) :=
  @instDecidableAnd _ _ _ (List.decidableBAll _ _)

def pathText (path : Path) : List Char := ['.'].intercalate (path.map String.toList)

theorem exists_cons_of_isBare {key : String} (bare : IsBare key) :
    ∃ c more, key.toList = c :: more ∧ isBareKeyChar c = true := by
  obtain ⟨c, more, shape⟩ := List.exists_cons_of_ne_nil bare.1
  exact ⟨c, more, shape, bare.2 c (by simp [shape])⟩

/-- None of the characters that mean something before a key can begin one. -/
theorem ne_of_isBareKeyChar {c : Char} (bare : isBareKeyChar c = true) (mark : Char)
    (other : isBareKeyChar mark = false) : c ≠ mark := by
  rintro rfl
  simp [bare] at other

theorem begins_key {key : String} (bare : IsBare key) : Begins key.toList := by
  obtain ⟨c, more, shape, first⟩ := exists_cons_of_isBare bare
  have other := ne_of_isBareKeyChar first
  refine ⟨c, more, shape, ?_, other '#' (by decide), other '\n' (by decide), other '\r' (by decide)⟩
  simp [isBlank, other ' ' (by decide), other '\t' (by decide)]

theorem exists_cons_pathText (bare : ∀ key ∈ path, IsBare key) (nonempty : path ≠ []) :
    ∃ c more, pathText path = c :: more ∧ isBareKeyChar c = true := by
  cases path with
  | nil => contradiction
  | cons key path =>
      obtain ⟨c, more, shape, first⟩ := exists_cons_of_isBare (bare key (by simp))
      cases path with
      | nil => exact ⟨c, more, by simp [pathText, shape], first⟩
      | cons next path =>
          rw [pathText, List.map_cons, List.map_cons, List.intercalate_cons_cons, shape]
          exact ⟨c, _, rfl, first⟩

/-- What begins with a key does not begin with a mark. -/
theorem pathText_ne_cons (bare : ∀ key ∈ path, IsBare key) (nonempty : path ≠ []) (mark : Char)
    (other : isBareKeyChar mark = false) (tail more : List Char) :
    pathText path ++ tail ≠ mark :: more := by
  obtain ⟨c, behind, shape, first⟩ := exists_cons_pathText bare nonempty
  rw [shape, List.cons_append]
  exact fun heq => ne_of_isBareKeyChar first mark other (List.cons.inj heq).1

theorem takeKeyPart_key {key : String} (bare : IsBare key) (stops : Stops isBareKeyChar tail) :
    takeKeyPart (key.toList ++ tail) = some (key, tail) := by
  have taken := Stops.span bare.2 stops
  obtain ⟨c, more, shape, first⟩ := exists_cons_of_isBare bare
  have other := ne_of_isBareKeyChar first
  have double := other '"' (by decide)
  have single := other '\x27' (by decide)
  have whole : String.ofList (c :: more) = key := by rw [← shape, String.ofList_toList]
  rw [shape, List.cons_append] at taken ⊢
  rw [takeKeyPart.eq_def]
  split
  · simp_all
  · simp_all
  · simp only [taken, whole]

/-- A path is read up to what can neither go on with a key nor with a further one. -/
theorem takeKey_pathText {room : Nat} (bare : ∀ key ∈ path, IsBare key) (nonempty : path ≠ [])
    (fits : path.length ≤ room) (stops : Stops isBareKeyChar tail)
    (last : (skipBlanks tail).head? ≠ some '.') :
    takeKey room (pathText path ++ tail) = some (path, skipBlanks tail) := by
  induction path generalizing room with
  | nil => contradiction
  | cons key path ih =>
      obtain ⟨here, others⟩ := List.forall_mem_cons.mp bare
      obtain ⟨room, rfl⟩ : ∃ r, room = r + 1 := Nat.exists_eq_add_one.mpr (by simp at fits; omega)
      cases path with
      | nil =>
          rw [pathText, List.map_singleton, List.intercalate_singleton, takeKey,
            skipBlanks_of_begins ((begins_key here).append tail), takeKeyPart_key here stops]
          simp only [Option.bind_eq_bind, Option.bind_some]
          split
          · rename_i heq
            simp [heq] at last
          · rfl
      | cons next path =>
          have point : Stops isBareKeyChar ('.' :: (pathText (next :: path) ++ tail)) :=
            Stops.cons_iff.mpr (by decide)
          have rest : takeKey room (pathText (next :: path) ++ tail) =
              some (next :: path, skipBlanks tail) :=
            ih others (by simp) (by simpa using fits)
          have shape : pathText (key :: next :: path) ++ tail =
              key.toList ++ '.' :: (pathText (next :: path) ++ tail) := by
            simp [pathText, List.intercalate_cons_cons]
          rw [shape, takeKey, skipBlanks_of_begins ((begins_key here).append _),
            takeKeyPart_key here point]
          simp [skipBlanks, isBlank, rest]

/-- A line, or the lines of one list, that say a statement. -/
structure Says (line : List Char) (s : Statement) : Prop where
  begins : Begins line
  takes : ∀ rest, takeStatement (line ++ rest) = some (s, rest)

theorem takeLineTail_newline (rest : List Char) : takeLineTail ('\n' :: rest) = some rest := by
  simp [takeLineTail, skipBlanks, isBlank, takeLineEnd]

theorem says_header (bare : ∀ key ∈ path, IsBare key) (nonempty : path ≠ [])
    (fits : path.length < depthLimit) :
    Says ('[' :: pathText path ++ [']', '\n']) (.header path) where
  begins := ⟨'[', _, rfl, by decide⟩
  takes := by
    intro rest
    have taken : takeKey (depthLimit - 1) (pathText path ++ ']' :: '\n' :: rest) =
        some (path, skipBlanks (']' :: '\n' :: rest)) :=
      takeKey_pathText bare nonempty (by omega) (Stops.cons_iff.mpr (by decide))
        (by simp [skipBlanks, isBlank])
    have single := pathText_ne_cons bare nonempty '[' (by decide) (']' :: '\n' :: rest)
    have shape : '[' :: pathText path ++ [']', '\n'] ++ rest =
        '[' :: (pathText path ++ ']' :: '\n' :: rest) := by simp
    rw [shape, takeStatement.eq_def]
    split
    · rename_i heq
      exact absurd (List.cons.inj heq).2 (single _)
    · rename_i heq
      obtain ⟨-, rfl⟩ := List.cons.inj heq
      rw [taken]
      simp [skipBlanks, isBlank, takeMark, takeLineTail_newline]
    · simp_all

theorem says_assign {key : String} {d : Datum} {value : List Char} (bare : IsBare key)
    (flat : IsFlat d) (rendered : renderValue? d = some value) :
    Says (key.toList ++ [' ', '=', ' '] ++ value ++ ['\n']) (.assign [key] (flatValue d)) where
  begins := by
    simp only [List.append_assoc]
    exact (begins_key bare).append _
  takes := by
    intro rest
    have bareKey : ∀ k ∈ [key], IsBare k := by simpa using bare
    have taken : takeKey (depthLimit - 1)
        (pathText [key] ++ ' ' :: '=' :: ' ' :: (value ++ '\n' :: rest)) =
          some ([key], skipBlanks (' ' :: '=' :: ' ' :: (value ++ '\n' :: rest))) :=
      takeKey_pathText bareKey (by simp) (by simp [depthLimit]) (Stops.cons_iff.mpr (by decide))
        (by simp [skipBlanks, isBlank])
    have solid : skipBlanks (' ' :: (value ++ '\n' :: rest)) = value ++ '\n' :: rest :=
      skipBlanks_of_begins ((begins_flat flat rendered).append _)
    have shape : key.toList ++ [' ', '=', ' '] ++ value ++ ['\n'] ++ rest =
        pathText [key] ++ ' ' :: '=' :: ' ' :: (value ++ '\n' :: rest) := by simp [pathText]
    have noBracket := pathText_ne_cons bareKey (by simp) '[' (by decide)
      (' ' :: '=' :: ' ' :: (value ++ '\n' :: rest))
    rw [shape, takeStatement.eq_def]
    split
    · rename_i heq
      exact absurd heq (noBracket _)
    · rename_i heq
      exact absurd heq (noBracket _)
    · rw [taken]
      have ends : EndsValue ('\n' :: rest) := ⟨'\n', rest, rfl, .inl rfl⟩
      have mark : skipBlanks (' ' :: '=' :: ' ' :: (value ++ '\n' :: rest)) =
          '=' :: ' ' :: (value ++ '\n' :: rest) := rfl
      simp only [Option.bind_eq_bind, Option.bind_some, mark, takeMark, if_true, solid]
      rw [takeValue_flat flat rendered ends (by simp; omega)]
      simp [takeLineTail_newline]

/-- A text of lines that say statements, with empty lines among them. -/
inductive Spells : List Char → List Statement → Prop
  | nil : Spells [] []
  | blank {cs : List Char} {ss : List Statement} (rest : Spells cs ss) : Spells ('\n' :: cs) ss
  | line {l cs : List Char} {s : Statement} {ss : List Statement} (said : Says l s)
      (rest : Spells cs ss) : Spells (l ++ cs) (s :: ss)

namespace Spells

variable {ss ts : List Statement} {front back : List Char}

theorem append (first : Spells front ss) (second : Spells back ts) :
    Spells (front ++ back) (ss ++ ts) := by
  induction first with
  | nil => exact second
  | blank _ ih => exact .blank ih
  | line said _ ih =>
      rw [List.append_assoc]
      exact .line said ih

theorem join (first : Spells front ss) (second : Spells back ts) :
    Spells (join front back) (ss ++ ts) := by
  unfold Toml.join
  split
  · exact first.append second
  · exact first.append second.blank

theorem takeStatements (spells : Spells cs ss) {fuel : Nat} (enough : cs.length < fuel) :
    takeStatements fuel cs = some ss := by
  induction spells generalizing fuel with
  | nil =>
      obtain ⟨fuel, rfl⟩ : ∃ f, fuel = f + 1 := Nat.exists_eq_add_one.mpr (by omega)
      rfl
  | @blank cs ss _ ih =>
      obtain ⟨fuel, rfl⟩ : ∃ f, fuel = f + 1 := Nat.exists_eq_add_one.mpr (by omega)
      have rest : Toml.takeStatements (fuel + 1) cs = some ss := ih (by simp at enough; omega)
      rw [Toml.takeStatements] at rest ⊢
      exact rest
  | @line l cs s ss said _ ih =>
      obtain ⟨fuel, rfl⟩ : ∃ f, fuel = f + 1 := Nat.exists_eq_add_one.mpr (by omega)
      have skipped := skipLines_of_begins (said.begins.append cs) (l ++ cs).length
      have taken := said.takes cs
      have long : cs.length < fuel := by
        obtain ⟨c, more, rfl, -⟩ := said.begins
        simp at enough
        omega
      obtain ⟨c, more, rfl, -, hash, -⟩ := said.begins
      rw [Toml.takeStatements, skipped]
      split
      · contradiction
      · simp_all
      · rw [taken]
        simp [ih long]

/-- A byte order mark begins no line. -/
theorem takeStatement_byteOrderMark (rest : List Char) :
    takeStatement ('\ufeff' :: rest) = none := by
  have noPart : takeKeyPart ('\ufeff' :: rest) = none := rfl
  have noKey : ∀ room, takeKey room ('\ufeff' :: rest) = none := by
    rintro (_ | room)
    · rfl
    · rw [takeKey, skipBlanks_of_begins ⟨'\ufeff', rest, rfl, by decide⟩, noPart]
      rfl
  rw [takeStatement.eq_def]
  split
  · rename_i heq
    exact absurd (List.cons.inj heq).1 (by decide)
  · rename_i heq
    exact absurd (List.cons.inj heq).1 (by decide)
  · rw [noKey]
    rfl

theorem head?_ne_byteOrderMark (spells : Spells cs ss) : cs.head? ≠ some '\ufeff' := by
  cases spells with
  | nil | blank _ => simp
  | @line l cs s ss said _ =>
      have taken := said.takes cs
      obtain ⟨c, more, rfl, -⟩ := said.begins
      rintro ⟨rfl⟩
      rw [List.cons_append, takeStatement_byteOrderMark] at taken
      contradiction

theorem statements? (spells : Spells cs ss) : statements? cs = some ss := by
  rw [Toml.statements?.eq_def]
  split
  · exact absurd rfl spells.head?_ne_byteOrderMark
  · exact spells.takeStatements (Nat.lt_succ_self _)

end Spells

end AdmissionGate.Toml
