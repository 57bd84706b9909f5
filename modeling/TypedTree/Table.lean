/-!
Tables that remember the order in which their keys were first written. A key occurs once; writing to
it again replaces its value and keeps its place.
-/

namespace TypedTree

/-- The entries of a table, in the order in which their keys were first written. -/
structure Table (κ α : Type) where
  entries : List (κ × α)
  distinct : (entries.map Prod.fst).Nodup
deriving DecidableEq

namespace Table

variable {κ α β : Type}

def empty : Table κ α := ⟨[], by simp⟩

instance : EmptyCollection (Table κ α) := ⟨empty⟩
instance : Inhabited (Table κ α) := ⟨empty⟩

def keys (table : Table κ α) : List κ := table.entries.map Prod.fst

def size (table : Table κ α) : Nat := table.entries.length

def isEmpty (table : Table κ α) : Bool := table.entries.isEmpty

def mapValues (f : κ → α → β) (table : Table κ α) : Table κ β where
  entries := table.entries.map fun entry => (entry.1, f entry.1 entry.2)
  distinct := by simpa [List.map_map, Function.comp_def] using table.distinct

variable [DecidableEq κ]

def find (key : κ) : List (κ × α) → Option α
  | [] => none
  | (other, value) :: rest => if other = key then some value else find key rest

/-- Replaces the value of an entry, or adds the entry at the end. -/
def put (key : κ) (value : α) : List (κ × α) → List (κ × α)
  | [] => [(key, value)]
  | (other, previous) :: rest =>
    if other = key then (key, value) :: rest else (other, previous) :: put key value rest

theorem keys_put (key : κ) (value : α) (entries : List (κ × α)) :
    (put key value entries).map Prod.fst =
      if key ∈ entries.map Prod.fst then entries.map Prod.fst else entries.map Prod.fst ++ [key] := by
  induction entries with
  | nil => simp [put]
  | cons entry rest ih =>
    obtain ⟨other, previous⟩ := entry
    by_cases same : other = key
    · simp [put, same]
    · have different : ¬ key = other := fun equal => same equal.symm
      by_cases present : key ∈ rest.map Prod.fst
      · simp only [put, same, if_false, List.map_cons, ih, present, if_true, List.mem_cons,
          different, false_or]
      · simp only [put, same, if_false, List.map_cons, ih, present, List.mem_cons, different,
          false_or, List.cons_append]

theorem find_put (key other : κ) (value : α) (entries : List (κ × α)) :
    find other (put key value entries) = if key = other then some value else find other entries := by
  induction entries with
  | nil => simp [put, find]
  | cons entry rest ih =>
    obtain ⟨first, previous⟩ := entry
    by_cases same : first = key
    · subst same
      by_cases equal : first = other <;> simp [put, find, equal]
    · by_cases equal : first = other
      · have different : ¬ key = other := fun h => same (equal.trans h.symm)
        subst equal
        simp [put, find, same, different]
      · simp [put, find, same, equal, ih]

def get? (table : Table κ α) (key : κ) : Option α := find key table.entries

def contains (table : Table κ α) (key : κ) : Bool := (table.get? key).isSome

def insert (table : Table κ α) (key : κ) (value : α) : Table κ α where
  entries := put key value table.entries
  distinct := by
    rw [keys_put]
    split
    · exact table.distinct
    next absent =>
      rw [List.nodup_append]
      refine ⟨table.distinct, by simp, ?_⟩
      intro other member last present
      simp only [List.mem_singleton] at present
      subst present
      intro equal
      exact absent (equal ▸ member)

/-- The value at a key changed by `f`, which sees `none` if the key is new. -/
def update (table : Table κ α) (key : κ) (f : Option α → α) : Table κ α :=
  table.insert key (f (table.get? key))

def ofList (entries : List (κ × α)) : Table κ α :=
  entries.foldl (fun table entry => table.insert entry.1 entry.2) empty

def append (table other : Table κ α) : Table κ α :=
  other.entries.foldl (fun table entry => table.insert entry.1 entry.2) table

@[simp] theorem get?_empty (key : κ) : (empty : Table κ α).get? key = none := rfl

theorem find_eq_none {key : κ} {entries : List (κ × α)} (absent : key ∉ entries.map Prod.fst) :
    find key entries = none := by
  induction entries with
  | nil => rfl
  | cons entry rest ih =>
    simp only [List.map_cons, List.mem_cons, not_or] at absent
    simp [find, Ne.symm absent.1, ih absent.2]

theorem get?_eq_none {table : Table κ α} {key : κ} (absent : key ∉ table.keys) :
    table.get? key = none :=
  find_eq_none absent

theorem get?_insert (table : Table κ α) (key other : κ) (value : α) :
    (table.insert key value).get? other = if key = other then some value else table.get? other :=
  find_put key other value table.entries

theorem keys_insert (table : Table κ α) (key : κ) (value : α) :
    (table.insert key value).keys = if key ∈ table.keys then table.keys else table.keys ++ [key] :=
  keys_put key value table.entries

end Table

end TypedTree
