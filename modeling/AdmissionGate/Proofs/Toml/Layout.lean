import AdmissionGate.Proofs.Toml.Lines

/-!
The layout of a document. The statements of a table are told beside its text: a header if it needs
one, its plain entries, and then the tables in it. The text spells just these.
-/

namespace AdmissionGate.Toml

variable {room : Nat} {path : Path} {entries : List (String × Datum)}

/-- Entries that a document can hold: keys that need no quotes, each of them once, with scalars,
lists of scalars, nothing, or tables, which lie less than `room` deep. -/
inductive IsTable : Nat → List (String × Datum) → Prop
  | nil {room : Nat} : IsTable room []
  | null {room : Nat} {key : String} {rest : List (String × Datum)}
      (fresh : ∀ e ∈ rest, e.1 ≠ key) (others : IsTable room rest) :
      IsTable room ((key, .null) :: rest)
  | flat {room : Nat} {key : String} {d : Datum} {rest : List (String × Datum)} (bare : IsBare key)
      (fresh : ∀ e ∈ rest, e.1 ≠ key) (flat : IsFlat d) (others : IsTable room rest) :
      IsTable room ((key, d) :: rest)
  | table {room : Nat} {key : String} {inner rest : List (String × Datum)} (bare : IsBare key)
      (fresh : ∀ e ∈ rest, e.1 ≠ key) (within : IsTable room inner)
      (others : IsTable (room + 1) rest) : IsTable (room + 1) ((key, .table inner) :: rest)

inductive IsEntry : Nat → Datum → Prop
  | null {room : Nat} : IsEntry room .null
  | flat {room : Nat} {d : Datum} (flat : IsFlat d) : IsEntry room d
  | table {room : Nat} {inner : List (String × Datum)} (within : IsTable room inner) :
      IsEntry (room + 1) (.table inner)

def AreKeys (keys : List String) : Prop := (∀ key ∈ keys, IsBare key) ∧ keys.Nodup

instance (keys : List String) : Decidable (AreKeys keys) := inferInstanceAs (Decidable (_ ∧ _))

/-- A table is told by its keys and by what stands behind them. -/
theorem isTable_of_keys (keys : AreKeys (entries.map Prod.fst))
    (each : ∀ d ∈ entries.map Prod.snd, IsEntry room d) : IsTable room entries := by
  obtain ⟨bare, distinct⟩ := keys
  induction entries with
  | nil => exact .nil
  | cons e rest ih =>
      obtain ⟨key, d⟩ := e
      obtain ⟨bareKey, bareKeys⟩ := List.forall_mem_cons.mp bare
      obtain ⟨here, others⟩ := List.forall_mem_cons.mp each
      obtain ⟨new, distinctKeys⟩ := List.nodup_cons.mp distinct
      have fresh : ∀ e ∈ rest, e.1 ≠ key := by
        rintro e member rfl
        exact new (List.mem_map.mpr ⟨e, member, rfl⟩)
      have table := ih others bareKeys distinctKeys
      cases here with
      | null => exact .null fresh table
      | flat flat => exact .flat bareKey fresh flat table
      | table within => exact .table bareKey fresh within table

def plainStatements : List (String × Datum) → List Statement
  | [] => []
  | (_, .null) :: rest | (_, .table _) :: rest => plainStatements rest
  | (key, d) :: rest => .assign [key] (flatValue d) :: plainStatements rest

def headerStatements (path : Path) (entries : List (String × Datum)) : List Statement :=
  if path = [] ∨ (entries ≠ [] ∧ entries.all (isTable ·.2)) then [] else [.header path]

mutual

def tableStatements (path : Path) : Datum → List Statement
  | .table entries =>
      headerStatements path entries ++ plainStatements entries ++ innerStatements path entries
  | _ => []

def innerStatements (path : Path) : List (String × Datum) → List Statement
  | [] => []
  | (key, d) :: rest => tableStatements (path ++ [key]) d ++ innerStatements path rest

end

theorem IsFlat.ne_null {d : Datum} (flat : IsFlat d) : d ≠ .null := by
  rintro rfl
  cases flat with
  | scalar scalar => exact scalar

theorem IsFlat.ne_table {d : Datum} (flat : IsFlat d) (entries : List (String × Datum)) :
    d ≠ .table entries := by
  rintro rfl
  cases flat with
  | scalar scalar => exact scalar

theorem IsFlat.plainStatements {d : Datum} (flat : IsFlat d) (key : String)
    (rest : List (String × Datum)) :
    plainStatements ((key, d) :: rest) = .assign [key] (flatValue d) :: plainStatements rest :=
  plainStatements.eq_4 key d rest flat.ne_null flat.ne_table

theorem IsFlat.renderPlain? {d : Datum} {value more : List Char} {rest : List (String × Datum)}
    (flat : IsFlat d) (key : String) (said : renderValue? d = some value)
    (others : renderPlain? rest = some more) :
    renderPlain? ((key, d) :: rest) =
      some (key.toList ++ [' ', '=', ' '] ++ value ++ ['\n'] ++ more) := by
  rw [renderPlain?.eq_4 key d rest flat.ne_null flat.ne_table, said, others]
  simp

theorem IsFlat.tableStatements {d : Datum} (flat : IsFlat d) (path : Path) :
    tableStatements path d = [] := tableStatements.eq_2 path d flat.ne_table

theorem IsFlat.renderTable? {d : Datum} (flat : IsFlat d) (path : Path) :
    renderTable? path d = some [] := renderTable?.eq_2 path d flat.ne_table

theorem spells_plain (table : IsTable room entries) :
    ∃ plain, renderPlain? entries = some plain ∧ Spells plain (plainStatements entries) := by
  induction table with
  | nil => exact ⟨[], rfl, .nil⟩
  | null _ _ ih | table _ _ _ _ _ ih => exact ih
  | @flat room key d rest bare _ flat _ ih =>
      obtain ⟨value, rendered⟩ := exists_renderValue? flat
      obtain ⟨plain, others, spells⟩ := ih
      refine ⟨_, flat.renderPlain? key rendered others, ?_⟩
      rw [flat.plainStatements key rest]
      exact .line (says_assign bare flat rendered) spells

theorem spells_header (bare : ∀ key ∈ path, IsBare key) (fits : path.length < depthLimit)
    (entries : List (String × Datum)) :
    Spells (headerText path entries) (headerStatements path entries) := by
  unfold headerText headerStatements
  split
  · exact .nil
  · rename_i needed
    have nonempty : path ≠ [] := fun empty => needed (.inl empty)
    simpa [pathText] using Spells.line (says_header bare nonempty fits) .nil

/-- The tables in a table are spelled below its path. -/
theorem spells_inner (table : IsTable room entries) (path : Path)
    (bare : ∀ key ∈ path, IsBare key) (fits : path.length + room < depthLimit) :
    ∃ inner, renderInner? path entries = some inner ∧
      Spells inner (innerStatements path entries) := by
  induction table generalizing path with
  | nil => exact ⟨[], rfl, .nil⟩
  | null _ _ ih =>
      obtain ⟨inner, rendered, spells⟩ := ih path bare fits
      exact ⟨_, by simp [renderInner?, renderTable?, rendered], Spells.nil.join spells⟩
  | @flat room key d rest _ _ flat _ ih =>
      obtain ⟨inner, rendered, spells⟩ := ih path bare fits
      refine ⟨join [] inner, ?_, ?_⟩
      · simp [renderInner?, flat.renderTable?, rendered]
      · simpa [innerStatements, flat.tableStatements] using Spells.nil.join spells
  | @table room key entries rest bareKey _ within _ below ih =>
      obtain ⟨others, renderedOthers, spellsOthers⟩ := ih path bare fits
      obtain ⟨plain, renderedPlain, spellsPlain⟩ := spells_plain within
      have bareBelow : ∀ k ∈ path ++ [key], IsBare k := by
        simpa [or_imp, forall_and] using ⟨bare, bareKey⟩
      obtain ⟨inner, renderedInner, spellsInner⟩ := below _ bareBelow (by simp; omega)
      have header := spells_header bareBelow (by simp; omega) entries
      refine ⟨_, ?_, ((header.append spellsPlain).join spellsInner).join spellsOthers⟩
      simp [renderInner?, renderTable?, renderedPlain, renderedInner, renderedOthers]

/-- The text of a document, and the statements it spells. -/
theorem exists_text (table : IsTable room entries) (shallow : room < depthLimit) :
    ∃ cs, renderTable? [] (.table entries) = some cs ∧
      statements? cs = some (plainStatements entries ++ innerStatements [] entries) := by
  obtain ⟨plain, renderedPlain, spellsPlain⟩ := spells_plain table
  obtain ⟨inner, renderedInner, spellsInner⟩ :=
    spells_inner table [] (List.forall_mem_nil _) (by simpa using shallow)
  refine ⟨join plain inner, ?_, (spellsPlain.join spellsInner).statements?⟩
  simp [renderTable?, renderedPlain, renderedInner, headerText]

end AdmissionGate.Toml
