import AdmissionGate.Proofs.Toml.Layout
import AdmissionGate.Proofs.Toml.Trees

/-!
Documents read back. The statements of a document, taken one by one, build the tree of its tables:
plain entries go to the open table, and a header puts the table that was open in its place. A table
that holds nothing but tables has no header, and is made on the way to the first of them.
-/

namespace AdmissionGate.Toml

variable {room : Nat} {path : Path} {entries : List (String × Datum)}

def plainNodes : List (String × Datum) → Entries
  | [] => []
  | (_, .null) :: rest | (_, .table _) :: rest => plainNodes rest
  | (key, d) :: rest => (key, .leaf d) :: plainNodes rest

/-- A table that needs no header is passed on the way to the tables in it. -/
def originOf (entries : List (String × Datum)) : Origin :=
  if entries ≠ [] ∧ entries.all (isTable ·.2) then .passed else .opened

mutual

def nodeOf? : Datum → Option Node
  | .table entries => some (.table (originOf entries) (plainNodes entries ++ tableNodes entries))
  | _ => none

def tableNodes : List (String × Datum) → Entries
  | [] => []
  | (key, d) :: rest =>
      match nodeOf? d with
      | some node => (key, node) :: tableNodes rest
      | none => tableNodes rest

end

/-- The entries of a document as they are read: plain ones first, and none that say nothing. -/
def readEntries (entries : List (String × Datum)) : List (String × Datum) :=
  entriesToData (plainNodes entries ++ tableNodes entries)

theorem IsFlat.plainNodes {d : Datum} (flat : IsFlat d) (key : String)
    (rest : List (String × Datum)) :
    plainNodes ((key, d) :: rest) = (key, .leaf d) :: plainNodes rest :=
  plainNodes.eq_4 key d rest flat.ne_null flat.ne_table

theorem tableNodes_of_none {d : Datum} (plain : ∀ inner, d ≠ .table inner) (key : String)
    (rest : List (String × Datum)) : tableNodes ((key, d) :: rest) = tableNodes rest := by
  rw [tableNodes, nodeOf?.eq_2 d plain]

theorem tableNodes_table (key : String) (inner rest : List (String × Datum)) :
    tableNodes ((key, .table inner) :: rest) =
      (key, .table (originOf inner) (plainNodes inner ++ tableNodes inner)) :: tableNodes rest := by
  rw [tableNodes, nodeOf?]

theorem exists_mem_of_mem_plainNodes {e : String × Node} (member : e ∈ plainNodes entries) :
    ∃ d, (e.1, d) ∈ entries := by
  induction entries with
  | nil => contradiction
  | cons first rest ih =>
      obtain ⟨k, d⟩ := first
      have behind : e ∈ plainNodes rest → ∃ d', (e.1, d') ∈ (k, d) :: rest := fun inner =>
        (ih inner).imp fun _ => List.mem_cons_of_mem _
      rw [plainNodes.eq_def] at member
      split at member
      · contradiction
      · simp_all
      · simp_all
      · rename_i heq
        cases heq
        rcases List.mem_cons.mp member with rfl | inner
        · exact ⟨d, List.mem_cons_self ..⟩
        · exact behind inner

theorem get?_eq_none {nodes : Entries} {key : String} (fresh : ∀ e ∈ nodes, e.1 ≠ key) :
    nodes.get? key = none := by
  simpa [Entries.get?] using fresh

theorem get?_plainNodes_of_fresh {key : String} (fresh : ∀ e ∈ entries, e.1 ≠ key) :
    (plainNodes entries).get? key = none :=
  get?_eq_none fun _ member => (exists_mem_of_mem_plainNodes member).elim fun _ => fresh _

/-- No plain entry has the key of a table beside it. -/
theorem get?_plainNodes_of_table (table : IsTable room entries) {key : String}
    {inner : List (String × Datum)} (member : (key, .table inner) ∈ entries) :
    (plainNodes entries).get? key = none := by
  induction table with
  | nil => contradiction
  | null _ _ ih => exact ih (by simpa using member)
  | @flat room k d rest _ fresh flat _ ih =>
      have other : (key, .table inner) ∈ rest := by
        refine (List.mem_cons.mp member).resolve_left fun heq => ?_
        exact flat.ne_table inner (Prod.mk.inj heq).2.symm
      have rest := ih other
      rw [flat.plainNodes, Entries.get?_cons, if_neg (fresh _ other).symm, rest]
  | @table room k inner rest _ fresh _ _ _ ih =>
      rcases List.mem_cons.mp member with heq | other
      · have here : (plainNodes rest).get? k = none := get?_plainNodes_of_fresh fresh
        rwa [(Prod.mk.inj heq).1]
      · exact ih other

theorem step_assign {draft : Draft} {key : String} {d : Datum} (flat : IsFlat d)
    (missing : draft.entries.get? key = none) :
    draft.step (.assign [key] (flatValue d)) =
      some { draft with entries := draft.entries ++ [(key, .leaf d)] } := by
  simp [Draft.step, toDatum?_flatValue flat, assign, splitKey, changeAt, missing]

/-- Plain entries go to the end of the open table. -/
theorem foldlM_plainStatements (table : IsTable room entries) (draft : Draft)
    (free : ∀ e ∈ entries, draft.entries.get? e.1 = none) :
    (plainStatements entries).foldlM Draft.step draft =
      some { draft with entries := draft.entries ++ plainNodes entries } := by
  induction table generalizing draft with
  | nil => simp [plainStatements, plainNodes]
  | null _ _ ih | table _ _ _ _ _ ih =>
      exact ih draft (List.forall_mem_cons.mp free).2
  | @flat room key d rest _ fresh flat _ ih =>
      obtain ⟨here, others⟩ := List.forall_mem_cons.mp free
      rw [flat.plainStatements, flat.plainNodes, List.foldlM_cons, step_assign flat here]
      simp only [Option.bind_eq_bind, Option.bind_some]
      rw [ih]
      · simp
      · intro e member
        rw [Entries.get?_append, others e member, Entries.get?_cons, if_neg (fresh e member).symm]
        rfl

variable {root here : Entries} {key : String}

theorem step_header {draft : Draft} (closed : draft.close = some root)
    (found : Entries.at? path root = some here) (missing : here.get? key = none) :
    draft.step (.header (path ++ [key])) =
      some { closed := root, path := path ++ [key], isItem := false, entries := [] } := by
  simp [Draft.step, closed, splitKey, entriesToOpen?_of_none found missing]

/-- When the open table is closed, it stands at the end of the table above it. -/
theorem close_header (found : Entries.at? path root = some here) (missing : here.get? key = none)
    (inner : Entries) :
    Draft.close { closed := root, path := path ++ [key], isItem := false, entries := inner } =
      some (Entries.replaceAt (here ++ [(key, .table .opened inner)]) path root) := by
  rw [Draft.close]
  simp only [splitKey, List.getLast?_concat, List.dropLast_concat, Option.map_some,
    Bool.false_eq_true, if_false]
  exact changeAt_passed found (fun _ => by rw [Entries.put_of_none missing]) .opened

def grow (nodes here : Entries) (path : Path) (root : Entries) : Entries :=
  if nodes.isEmpty then root else Entries.replaceAt (here ++ nodes) path root

theorem at?_grow (found : Entries.at? path root = some here) (nodes : Entries) :
    Entries.at? path (grow nodes here path root) = some (here ++ nodes) := by
  cases nodes with
  | nil => simpa [grow] using found
  | cons node rest => exact Entries.at?_replaceAt found _

theorem grow_append (found : Entries.at? path root = some here) (front back : Entries) :
    grow back (here ++ front) path (grow front here path root) =
      grow (front ++ back) here path root := by
  cases front with
  | nil => simp [grow]
  | cons node rest =>
      cases back with
      | nil => simp [grow]
      | cons next more => simp [grow, Entries.replaceAt_replaceAt found]

/-- What statements do to every document that has a table at a path without these nodes: it has
them then, and all else stays as it was. -/
def Adds (statements : List Statement) (path : Path) (nodes : Entries) : Prop :=
  ∀ ⦃draft : Draft⦄ ⦃root here : Entries⦄, draft.close = some root →
    Entries.at? path root = some here → (∀ e ∈ nodes, here.get? e.1 = none) →
    ∃ next, statements.foldlM Draft.step draft = some next ∧
      next.close = some (grow nodes here path root)

namespace Adds

variable {first second : List Statement} {front back : Entries}

theorem nil : Adds [] path [] := fun draft _ _ closed _ _ => ⟨draft, rfl, closed⟩

theorem append (adds : Adds first path front) (more : Adds second path back)
    (distinct : ∀ e ∈ front, ∀ e' ∈ back, e'.1 ≠ e.1) :
    Adds (first ++ second) path (front ++ back) := by
  intro draft root here closed found free
  have free := List.forall_mem_append.mp free
  obtain ⟨middle, run, closed⟩ := adds closed found free.1
  obtain ⟨last, run', closed⟩ := more closed (at?_grow found front) (by
    intro e member
    rw [Entries.get?_append, free.2 e member, Option.none_or]
    exact get?_eq_none fun e' inner => (distinct e' inner e member).symm)
  refine ⟨last, ?_, closed.trans (by rw [grow_append found])⟩
  rw [List.foldlM_append, run]
  exact run'

/-- Tables below a key that is missing make a table for it. -/
theorem passed {nodes : Entries} (adds : Adds first (path ++ [key]) nodes) (some : nodes ≠ []) :
    Adds first path [(key, .table .passed nodes)] := by
  intro draft root here closed found free
  have missing : here.get? key = none := free _ (List.mem_singleton_self _)
  have below := Entries.below?_of_none missing
  obtain ⟨next, run, closed⟩ := adds closed (Entries.at?_concat found below) fun _ _ => rfl
  refine ⟨next, run, closed.trans ?_⟩
  have nonempty : nodes.isEmpty = false := by simpa using some
  simp [grow, nonempty, Entries.replaceAt_concat found below, Entries.put_of_none missing]

/-- A header, plain entries, and tables below make a table. -/
theorem opened {inner : List Statement} {nodes : Entries} (table : IsTable room entries)
    (adds : Adds inner (path ++ [key]) nodes)
    (distinct : ∀ e ∈ nodes, (plainNodes entries).get? e.1 = none) :
    Adds ([.header (path ++ [key])] ++ plainStatements entries ++ inner) path
      [(key, .table .opened (plainNodes entries ++ nodes))] := by
  intro draft root here closed found free
  have missing : here.get? key = none := free _ (List.mem_singleton_self _)
  have headed := step_header closed found missing
  have plain := foldlM_plainStatements table
    { closed := root, path := path ++ [key], isItem := false, entries := [] } fun _ _ => rfl
  have closed := close_header found missing (plainNodes entries)
  have put : ∀ inner, here ++ [(key, Node.table .opened inner)] =
      Entries.put key (.table .opened inner) here := fun inner =>
    (Entries.put_of_none missing _).symm
  have there := Entries.at?_replaceAt found (here ++ [(key, .table .opened (plainNodes entries))])
  have below : Entries.below? (here ++ [(key, .table .opened (plainNodes entries))]) key =
      some ⟨.opened, plainNodes entries⟩ := by
    rw [put, Entries.below?_put]
  obtain ⟨next, run, closed⟩ := adds closed (Entries.at?_concat there below) distinct
  refine ⟨next, ?_, closed.trans ?_⟩
  · simp only [List.foldlM_append, List.foldlM_cons, List.foldlM_nil, headed, bind_pure,
      Option.bind_eq_bind, Option.bind_some, plain]
    exact run
  · cases nodes with
    | nil => simp [grow]
    | cons node rest =>
        simp only [grow, List.isEmpty_cons, Bool.false_eq_true, if_false]
        rw [Entries.replaceAt_concat there below, Entries.replaceAt_replaceAt found, put,
          Entries.put_put, put]

end Adds

theorem plain_of_all_tables (tables : entries.all (isTable ·.2) = true) :
    plainStatements entries = [] ∧ plainNodes entries = [] := by
  induction entries with
  | nil => exact ⟨rfl, rfl⟩
  | cons e rest ih =>
      obtain ⟨key, d⟩ := e
      rw [List.all_cons, Bool.and_eq_true] at tables
      cases d with
      | table _ => exact ih tables.2
      | _ => exact absurd tables.1 (by simp [isTable])

theorem exists_mem_of_mem_tableNodes {e : String × Node} (member : e ∈ tableNodes entries) :
    ∃ inner, (e.1, Datum.table inner) ∈ entries := by
  induction entries with
  | nil => contradiction
  | cons first rest ih =>
      obtain ⟨key, d⟩ := first
      by_cases plain : ∀ inner, d ≠ .table inner
      · rw [tableNodes_of_none plain] at member
        exact (ih member).imp fun _ => List.mem_cons_of_mem _
      · obtain ⟨inner, rfl⟩ : ∃ inner, d = .table inner := by simpa using plain
        rw [tableNodes_table] at member
        rcases List.mem_cons.mp member with rfl | behind
        · exact ⟨inner, List.mem_cons_self ..⟩
        · exact (ih behind).imp fun _ => List.mem_cons_of_mem _

theorem tableNodes_ne_nil (some : entries ≠ []) (tables : entries.all (isTable ·.2) = true) :
    tableNodes entries ≠ [] := by
  cases entries with
  | nil => contradiction
  | cons e rest =>
      obtain ⟨key, d⟩ := e
      cases d with
      | table inner =>
          rw [tableNodes_table]
          exact List.cons_ne_nil _ _
      | _ => exact absurd tables (by simp [isTable])

/-- The statements of the tables in a table add these tables. -/
theorem adds_inner (table : IsTable room entries) (path : Path) :
    Adds (innerStatements path entries) path (tableNodes entries) := by
  induction table generalizing path with
  | nil => exact Adds.nil
  | null _ _ ih => exact ih path
  | @flat room key d rest _ _ flat _ ih =>
      rw [innerStatements, flat.tableStatements, List.nil_append, tableNodes_of_none flat.ne_table]
      exact ih path
  | @table room key entries rest _ fresh within _ below ih =>
      rw [innerStatements, tableNodes_table]
      change Adds _ path ([_] ++ tableNodes rest)
      refine Adds.append ?_ (ih path) ?_
      · have nonempty : path ++ [key] ≠ [] := by simp
        rw [tableStatements, headerStatements, originOf]
        by_cases headless : entries ≠ [] ∧ entries.all (isTable ·.2) = true
        · obtain ⟨noStatements, noNodes⟩ := plain_of_all_tables headless.2
          rw [if_pos (.inr headless), if_pos headless, noStatements, noNodes]
          exact Adds.passed (below _) (tableNodes_ne_nil headless.1 headless.2)
        · rw [if_neg (by simp only [nonempty, false_or]; exact headless), if_neg headless]
          refine Adds.opened within (below _) fun e member => ?_
          obtain ⟨inner, here⟩ := exists_mem_of_mem_tableNodes member
          exact get?_plainNodes_of_table within here
      · intro e member e' behind
        obtain ⟨inner, here⟩ := exists_mem_of_mem_tableNodes behind
        rw [List.mem_singleton.mp member]
        exact fresh _ here

theorem grow_root (nodes here : Entries) : grow nodes here [] here = here ++ nodes := by
  cases nodes with
  | nil => exact (List.append_nil here).symm
  | cons _ _ => rfl

theorem dataOf?_statements (table : IsTable room entries) :
    dataOf? (plainStatements entries ++ innerStatements [] entries) =
      some (.table (readEntries entries)) := by
  have plain := foldlM_plainStatements table {} fun _ _ => rfl
  have free : ∀ e ∈ tableNodes entries, (plainNodes entries).get? e.1 = none := by
    intro e member
    obtain ⟨inner, here⟩ := exists_mem_of_mem_tableNodes member
    exact get?_plainNodes_of_table table here
  have closed : Draft.close { entries := plainNodes entries } = some (plainNodes entries) := rfl
  obtain ⟨last, run, closed⟩ := adds_inner table [] closed rfl free
  rw [grow_root] at closed
  have whole : (plainStatements entries ++ innerStatements [] entries).foldlM Draft.step {} =
      some last := by
    rw [List.foldlM_append, plain]
    exact run
  simp [dataOf?, whole, closed, readEntries]

/-- The text of a document reads back as its entries. -/
theorem read?_text? (table : IsTable room entries) (shallow : room < depthLimit) :
    ∃ text, text? (.table entries) = some text ∧
      read? text = some (.table (readEntries entries)) := by
  obtain ⟨cs, rendered, statements⟩ := exists_text table shallow
  refine ⟨String.ofList cs, by rw [text?, rendered]; rfl, ?_⟩
  rw [read?, String.toList_ofList, statements]
  exact dataOf?_statements table

/-- What stands for an entry in the text: nothing, or a table as it is read. -/
def seen? : Datum → Option Datum
  | .null => none
  | .table inner => some (.table (readEntries inner))
  | d => some d

theorem IsFlat.seen? {d : Datum} (flat : IsFlat d) : seen? d = some d :=
  seen?.eq_3 d flat.ne_null flat.ne_table

theorem find?_entriesToData (nodes : Entries) (key : String) :
    ((entriesToData nodes).find? (·.1 = key)).map (·.2) = (nodes.get? key).map Node.toDatum := by
  induction nodes with
  | nil => rfl
  | cons e rest ih =>
      obtain ⟨k, node⟩ := e
      by_cases same : k = key
      · simp [entriesToData, Entries.get?_cons, same]
      · simpa [entriesToData, Entries.get?_cons, same] using ih

theorem get?_tableNodes_of_fresh {key : String} (fresh : ∀ e ∈ entries, e.1 ≠ key) :
    (tableNodes entries).get? key = none :=
  get?_eq_none fun _ member => (exists_mem_of_mem_tableNodes member).elim fun _ => fresh _

/-- Under each key stands what the text says of its entry. -/
theorem find?_readEntries (table : IsTable room entries) (key : String) :
    ((readEntries entries).find? (·.1 = key)).map (·.2) =
      ((entries.find? (·.1 = key)).map (·.2)).bind seen? := by
  rw [readEntries, find?_entriesToData, Entries.get?_append]
  induction table with
  | nil => rfl
  | @null room k rest fresh _ ih =>
      rw [show plainNodes ((k, .null) :: rest) = plainNodes rest from rfl,
        tableNodes_of_none (fun _ h => Datum.noConfusion h)]
      by_cases same : k = key
      · subst same
        simp [get?_plainNodes_of_fresh fresh, get?_tableNodes_of_fresh fresh, seen?]
      · simpa [same] using ih
  | @flat room k d rest _ fresh flat _ ih =>
      rw [flat.plainNodes, tableNodes_of_none flat.ne_table]
      by_cases same : k = key
      · simp [same, Entries.get?_cons, flat.seen?, Node.toDatum]
      · simpa [same, Entries.get?_cons] using ih
  | @table room k inner rest _ fresh _ _ _ ih =>
      rw [show plainNodes ((k, .table inner) :: rest) = plainNodes rest from rfl,
        tableNodes_table]
      by_cases same : k = key
      · subst same
        simp [get?_plainNodes_of_fresh fresh, Entries.get?_cons, seen?, Node.toDatum, readEntries]
      · simpa [same, Entries.get?_cons] using ih

end AdmissionGate.Toml
