import AdmissionGate.Net.Address

/-!
Finite maps from addresses. Each address stands at most once in the list of
entries, so their number is the number of addresses. The lemmas say what each
operation does to `get?`.
-/

namespace AdmissionGate

structure AddressMap (α : Type) where
  entries : List (Address × α)
  nodup : (entries.map (·.1)).Nodup

namespace AddressMap

variable {α : Type}

def empty : AddressMap α := ⟨[], by simp⟩

instance : Inhabited (AddressMap α) := ⟨empty⟩

def size (m : AddressMap α) : Nat := m.entries.length

def lookup (a : Address) : List (Address × α) → Option α
  | [] => none
  | (b, v) :: rest => if b = a then some v else lookup a rest

def get? (m : AddressMap α) (a : Address) : Option α := lookup a m.entries

/-- Replaces the value at an address, or adds the address at the end. -/
def put (a : Address) (v : α) : List (Address × α) → List (Address × α)
  | [] => [(a, v)]
  | (b, w) :: rest => if b = a then (a, v) :: rest else (b, w) :: put a v rest

theorem mem_keys_put {a b : Address} {v : α} {es : List (Address × α)} :
    b ∈ (put a v es).map (·.1) ↔ b = a ∨ b ∈ es.map (·.1) := by
  induction es with
  | nil => simp [put]
  | cons e es ih =>
      simp only [put]
      split
      · rename_i h
        simp [h]
      · simp only [List.map_cons, List.mem_cons, ih]
        constructor
        · rintro (h | h | h) <;> simp [h]
        · rintro (h | h | h) <;> simp [h]

theorem nodup_put {a : Address} {v : α} {es : List (Address × α)}
    (h : (es.map (·.1)).Nodup) : ((put a v es).map (·.1)).Nodup := by
  induction es with
  | nil => simp [put]
  | cons e es ih =>
      simp only [List.map_cons, List.nodup_cons] at h
      simp only [put]
      split
      · rename_i same
        subst same
        simpa using h
      · rename_i other
        simp only [List.map_cons, List.nodup_cons, mem_keys_put, not_or]
        exact ⟨⟨other, h.1⟩, ih h.2⟩

theorem lookup_put {a b : Address} {v : α} {es : List (Address × α)} :
    lookup b (put a v es) = if a = b then some v else lookup b es := by
  induction es with
  | nil => simp [put, lookup]
  | cons e es ih =>
      simp only [put]
      split
      · rename_i same
        subst same
        simp only [lookup]
        split <;> rfl
      · rename_i other
        simp only [lookup, ih]
        split
        · rename_i here
          subst here
          simp [Ne.symm other]
        · rfl

theorem lookup_eq_none {a : Address} {es : List (Address × α)} (h : a ∉ es.map (·.1)) :
    lookup a es = none := by
  induction es with
  | nil => rfl
  | cons e es ih =>
      simp only [List.map_cons, List.mem_cons, not_or] at h
      simp [lookup, Ne.symm h.1, ih h.2]

theorem lookup_filter {p : Address × α → Bool} {a : Address} {es : List (Address × α)}
    (h : (es.map (·.1)).Nodup) :
    lookup a (es.filter p) = (lookup a es).filter fun v => p (a, v) := by
  induction es with
  | nil => simp [lookup]
  | cons e es ih =>
      obtain ⟨b, v⟩ := e
      simp only [List.map_cons, List.nodup_cons] at h
      have rest := ih h.2
      by_cases same : b = a
      · subst same
        rw [lookup_eq_none h.1] at rest
        by_cases hp : p (b, v) = true
        · rw [List.filter_cons_of_pos hp]
          simp [lookup, Option.filter, hp]
        · rw [List.filter_cons_of_neg hp, rest]
          simp [lookup, Option.filter, hp]
      · by_cases hp : p (b, v) = true <;> simp_all [lookup]

def insert (m : AddressMap α) (a : Address) (v : α) : AddressMap α :=
  ⟨put a v m.entries, nodup_put m.nodup⟩

def filter (m : AddressMap α) (p : Address → α → Bool) : AddressMap α :=
  ⟨m.entries.filter fun e => p e.1 e.2,
    m.nodup.sublist (List.filter_sublist.map _)⟩

def erase (m : AddressMap α) (a : Address) : AddressMap α := m.filter fun b _ => b ≠ a

def map (m : AddressMap α) (f : Address → α → α) : AddressMap α :=
  ⟨m.entries.map fun e => (e.1, f e.1 e.2), by simpa [Function.comp_def] using m.nodup⟩

@[simp]
theorem get?_empty (a : Address) : (empty : AddressMap α).get? a = none := rfl

@[simp]
theorem get?_insert (m : AddressMap α) (a b : Address) (v : α) :
    (m.insert a v).get? b = if a = b then some v else m.get? b :=
  lookup_put

@[simp]
theorem get?_filter (m : AddressMap α) (p : Address → α → Bool) (a : Address) :
    (m.filter p).get? a = (m.get? a).filter (p a) :=
  lookup_filter m.nodup

@[simp]
theorem get?_erase (m : AddressMap α) (a b : Address) :
    (m.erase a).get? b = if a = b then none else m.get? b := by
  simp only [erase, get?_filter]
  cases h : m.get? b with
  | none => simp
  | some v =>
      by_cases same : a = b
      · simp [Option.filter, same]
      · simp [Option.filter, same, Ne.symm same]

@[simp]
theorem get?_map (m : AddressMap α) (f : Address → α → α) (a : Address) :
    (m.map f).get? a = (m.get? a).map (f a) := by
  simp only [get?, map]
  induction m.entries with
  | nil => rfl
  | cons e es ih =>
      simp only [List.map_cons, lookup]
      split
      · rename_i same
        simp [same]
      · exact ih

theorem lookup_eq_some_iff {a : Address} {v : α} {es : List (Address × α)}
    (h : (es.map (·.1)).Nodup) : lookup a es = some v ↔ (a, v) ∈ es := by
  induction es with
  | nil => simp [lookup]
  | cons e es ih =>
      obtain ⟨b, w⟩ := e
      simp only [List.map_cons, List.nodup_cons] at h
      simp only [lookup, List.mem_cons, Prod.mk.injEq]
      split
      · rename_i same
        subst same
        have once : (b, v) ∉ es := fun there => h.1 (List.mem_map_of_mem there)
        simp [once, eq_comm]
      · rename_i other
        simp [ih h.2, Ne.symm other]

/-- The entries are what look-ups find. -/
theorem get?_eq_some_iff {m : AddressMap α} {a : Address} {v : α} :
    m.get? a = some v ↔ (a, v) ∈ m.entries :=
  lookup_eq_some_iff m.nodup

end AddressMap

end AdmissionGate
