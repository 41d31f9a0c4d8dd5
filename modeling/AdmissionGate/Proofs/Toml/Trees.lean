import AdmissionGate.Toml.Document

/-!
Places in a tree of tables. A path leads to a table, and one that is missing counts as empty; what
a header changes is the table at its path, and everything beside the path stays as it was.
-/

namespace AdmissionGate.Toml

namespace Entries

variable {entries : Entries} {key : String} {node : Node}

theorem get?_cons (k : String) (node : Node) (rest : Entries) (key : String) :
    get? ((k, node) :: rest) key = if k = key then some node else rest.get? key := by
  by_cases same : k = key <;> simp [get?, same]

theorem get?_append (front back : Entries) (key : String) :
    get? (front ++ back) key = (front.get? key).or (back.get? key) := by
  simp only [get?, List.find?_append]
  cases front.find? (·.1 = key) <;> rfl

theorem put_of_none (missing : entries.get? key = none) (node : Node) :
    entries.put key node = entries ++ [(key, node)] := by
  induction entries with
  | nil => rfl
  | cons e rest ih =>
      obtain ⟨k, n⟩ := e
      by_cases same : k = key
      · simp [get?_cons, same] at missing
      · rw [get?_cons, if_neg same] at missing
        rw [put, if_neg same, ih missing, List.cons_append]

@[simp]
theorem get?_put (entries : Entries) (key : String) (node : Node) :
    (entries.put key node).get? key = some node := by
  induction entries with
  | nil => simp [put, get?_cons]
  | cons e rest ih =>
      obtain ⟨k, n⟩ := e
      by_cases same : k = key
      · simp [put, get?_cons, same]
      · simp [put, get?_cons, same, ih]

@[simp]
theorem put_put (entries : Entries) (key : String) (first second : Node) :
    (entries.put key first).put key second = entries.put key second := by
  induction entries with
  | nil => simp [put]
  | cons e rest ih =>
      obtain ⟨k, n⟩ := e
      by_cases same : k = key
      · simp [put, same]
      · simp [put, same, ih]

/-- The table that a key stands for; without the key, an empty one that a header passes. -/
def below? (entries : Entries) (key : String) : Option Open :=
  match entries.get? key with
  | none => some ⟨.passed, []⟩
  | some (.table origin inner) => some ⟨origin, inner⟩
  | some (.leaf _) | some (.tables _) => none

theorem below?_of_none (missing : entries.get? key = none) :
    entries.below? key = some ⟨.passed, []⟩ := by
  rw [below?, missing]

@[simp]
theorem below?_put (entries : Entries) (key : String) (origin : Origin) (inner : Entries) :
    below? (entries.put key (.table origin inner)) key = some ⟨origin, inner⟩ := by
  rw [below?, get?_put]

def at? : Path → Entries → Option Entries
  | [], entries => some entries
  | key :: path, entries => (entries.below? key).bind fun t => at? path t.entries

def replaceAt (new : Entries) : Path → Entries → Entries
  | [], _ => new
  | key :: path, entries =>
      match entries.below? key with
      | some t => entries.put key (.table t.origin (replaceAt new path t.entries))
      | none => entries

variable {root here new : Entries} {path : Path}

theorem at?_cons : at? (key :: path) root = some here ↔
    ∃ t, root.below? key = some t ∧ at? path t.entries = some here := by
  rw [at?, Option.bind_eq_some_iff]

theorem replaceAt_cons {t : Open} (below : root.below? key = some t) (new : Entries)
    (path : Path) :
    replaceAt new (key :: path) root =
      root.put key (.table t.origin (replaceAt new path t.entries)) := by
  rw [replaceAt, below]

theorem at?_replaceAt (found : at? path root = some here) (new : Entries) :
    at? path (replaceAt new path root) = some new := by
  induction path generalizing root with
  | nil => rfl
  | cons key path ih =>
      obtain ⟨t, below, inner⟩ := at?_cons.mp found
      rw [replaceAt_cons below, at?_cons]
      exact ⟨_, below?_put .., ih inner⟩

theorem replaceAt_replaceAt (found : at? path root = some here) (first second : Entries) :
    replaceAt second path (replaceAt first path root) = replaceAt second path root := by
  induction path generalizing root with
  | nil => rfl
  | cons key path ih =>
      obtain ⟨t, below, inner⟩ := at?_cons.mp found
      rw [replaceAt_cons below, replaceAt_cons below, replaceAt_cons (below?_put ..), put_put,
        ih inner]

/-- One key further, the table is the one below that key. -/
theorem at?_concat {t : Open} (found : at? path root = some here)
    (below : here.below? key = some t) : at? (path ++ [key]) root = some t.entries := by
  induction path generalizing root with
  | nil =>
      cases found
      exact at?_cons.mpr ⟨t, below, rfl⟩
  | cons k path ih =>
      obtain ⟨s, first, inner⟩ := at?_cons.mp found
      exact at?_cons.mpr ⟨s, first, ih inner⟩

theorem replaceAt_concat {t : Open} (found : at? path root = some here)
    (below : here.below? key = some t) (new : Entries) :
    replaceAt new (path ++ [key]) root =
      replaceAt (here.put key (.table t.origin new)) path root := by
  induction path generalizing root with
  | nil =>
      cases found
      rw [List.nil_append, replaceAt_cons below]
      rfl
  | cons k path ih =>
      obtain ⟨s, first, inner⟩ := at?_cons.mp found
      rw [List.cons_append, replaceAt_cons first, replaceAt_cons first, ih inner]

end Entries

variable {root here : Entries} {path : Path} {key : String}

/-- What a header changes, it changes at the end of its path. -/
theorem changeAt_passed {change : Open → Option Entries} {new : Entries}
    (found : Entries.at? path root = some here)
    (changed : ∀ origin, change ⟨origin, here⟩ = some new) (origin : Origin) :
    changeAt .passed change path ⟨origin, root⟩ = some (Entries.replaceAt new path root) := by
  induction path generalizing root origin with
  | nil =>
      cases found
      exact changed origin
  | cons key path ih =>
      obtain ⟨t, below, inner⟩ := Entries.at?_cons.mp found
      have rest := fun o => ih inner o
      rw [Entries.replaceAt_cons below, changeAt]
      simp only [Entries.below?] at below
      cases missing : root.get? key with
      | none =>
          simp only [missing, Option.some.injEq] at below
          subst below
          simp [rest, Entries.put_of_none missing]
      | some node =>
          cases node with
          | leaf _ | tables _ => simp [missing] at below
          | table o entries =>
              simp only [missing, Option.some.injEq] at below
              subst below
              simp [rest]

theorem entriesToOpen?_of_none (found : Entries.at? path root = some here)
    (missing : here.get? key = none) : Draft.entriesToOpen? root path key = some [] := by
  induction path generalizing root with
  | nil =>
      cases found
      rw [Draft.entriesToOpen?, missing]
  | cons k path ih =>
      obtain ⟨t, below, inner⟩ := Entries.at?_cons.mp found
      rw [Draft.entriesToOpen?]
      simp only [Entries.below?] at below
      cases first : root.get? k with
      | none => rfl
      | some node =>
          cases node with
          | leaf _ | tables _ => simp [first] at below
          | table o entries =>
              simp only [first, Option.some.injEq] at below
              subst below
              exact ih inner

end AdmissionGate.Toml
