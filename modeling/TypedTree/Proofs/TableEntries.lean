import Mathlib.Data.List.Nodup
import TypedTree.Table

/-! Tables as lists of entries. A look-up finds the one entry with its key. -/

namespace TypedTree.Table

variable {κ α β : Type} {table other : Table κ α} {key : κ} {value : α}

theorem ext_entries (same : table.entries = other.entries) : table = other := by
  cases table
  cases other
  cases same
  rfl

@[simp] theorem entries_mapValues (f : κ → α → β) (table : Table κ α) :
    (table.mapValues f).entries = table.entries.map fun entry => (entry.1, f entry.1 entry.2) := rfl

variable [DecidableEq κ]

private theorem find_eq_some {entries : List (κ × α)} (distinct : (entries.map Prod.fst).Nodup) :
    find key entries = some value ↔ (key, value) ∈ entries := by
  induction entries with
  | nil => simp [find]
  | cons entry entries ih =>
    obtain ⟨other, present⟩ := entry
    obtain ⟨absent, distinct⟩ := List.nodup_cons.mp distinct
    rw [find]
    by_cases same : other = key
    · subst same
      have elsewhere : (other, value) ∉ entries :=
        fun member => absent (List.mem_map.mpr ⟨_, member, rfl⟩)
      simp [elsewhere, eq_comm]
    · simp [same, Ne.symm same, ih distinct]

theorem get?_eq_some : table.get? key = some value ↔ (key, value) ∈ table.entries := find_eq_some table.distinct

theorem get?_isSome : (table.get? key).isSome = true ↔ key ∈ table.keys := by
  simp only [Option.isSome_iff_exists, get?_eq_some, keys, List.mem_map, Prod.exists, exists_and_right,
    exists_eq_right]

theorem get?_eq_none_iff : table.get? key = none ↔ key ∉ table.keys := by
  rw [← get?_isSome, Bool.not_eq_true, Option.isSome_eq_false_iff, Option.isNone_iff_eq_none]

theorem contains_iff : table.contains key = true ↔ key ∈ table.keys := get?_isSome

/-- The entries with a key are the one that a look-up finds. -/
theorem filter_entries (table : Table κ α) (key : κ) :
    (table.entries.filter (·.1 = key)).map Prod.snd = (table.get? key).toList := by
  obtain ⟨entries, distinct⟩ := table
  rw [get?]
  induction entries with
  | nil => rfl
  | cons entry entries ih =>
    obtain ⟨other, value⟩ := entry
    obtain ⟨absent, distinct⟩ := List.nodup_cons.mp distinct
    by_cases same : other = key
    · subst same
      have none : entries.filter (·.1 = other) = [] := by
        rw [List.filter_eq_nil_iff]
        exact fun entry member equal => absent (List.mem_map.mpr ⟨entry, member, of_decide_eq_true equal⟩)
      simp [find, none]
    · simpa [find, same] using ih distinct

theorem entries_insert_of_absent (absent : key ∉ table.keys) :
    (table.insert key value).entries = table.entries ++ [(key, value)] := by
  obtain ⟨entries, distinct⟩ := table
  induction entries with
  | nil => rfl
  | cons entry entries ih =>
    obtain ⟨here, elsewhere⟩ := not_or.mp (mt List.mem_cons.mpr absent)
    have rest := ih (List.nodup_cons.mp distinct).2 elsewhere
    simp only [insert] at rest ⊢
    rw [put, if_neg (Ne.symm here), rest, List.cons_append]

theorem get?_mapValues (f : κ → α → β) (table : Table κ α) (key : κ) :
    (table.mapValues f).get? key = (table.get? key).map (f key) := by
  ext value
  simp only [get?_eq_some, entries_mapValues, List.mem_map, Prod.mk.injEq, Option.map_eq_some_iff]
  constructor
  · rintro ⟨entry, member, rfl, same⟩
    exact ⟨entry.2, member, same⟩
  · rintro ⟨old, member, same⟩
    exact ⟨(key, old), member, rfl, same⟩

theorem mem_of_get?_ofList {entries : List (κ × α)} (found : (ofList entries).get? key = some value) :
    (key, value) ∈ entries := by
  have general : ∀ (entries : List (κ × α)) (table : Table κ α),
      (entries.foldl (fun table entry => table.insert entry.1 entry.2) table).get? key = some value →
        (key, value) ∈ entries ∨ table.get? key = some value := by
    intro entries
    induction entries with
    | nil => exact fun table found => Or.inr found
    | cons entry entries ih =>
      intro table found
      rcases ih (table.insert entry.1 entry.2) found with later | here
      · exact Or.inl (List.mem_cons_of_mem _ later)
      · rw [get?_insert] at here
        split at here
        next same =>
          cases here
          exact Or.inl (same ▸ List.mem_cons_self)
        next => exact Or.inr here
  rcases general entries empty found with written | blank
  · exact written
  · cases blank

/-- Entries with keys of their own are all kept. -/
theorem entries_ofList {entries : List (κ × α)} (distinct : (entries.map Prod.fst).Nodup) :
    (ofList entries).entries = entries := by
  have general : ∀ (entries : List (κ × α)) (table : Table κ α), (table.keys ++ entries.map Prod.fst).Nodup →
      (entries.foldl (fun table entry => table.insert entry.1 entry.2) table).entries = table.entries ++ entries := by
    intro entries
    induction entries with
    | nil => exact fun table _ => (List.append_nil table.entries).symm
    | cons entry entries ih =>
      intro table distinct
      rw [List.map_cons, List.append_cons] at distinct
      have absent : entry.1 ∉ table.keys := fun present =>
        (List.nodup_append.mp distinct.of_append_left).2.2 _ present _ (List.mem_singleton_self _) rfl
      have keys : (table.insert entry.1 entry.2).keys = table.keys ++ [entry.1] := by
        rw [keys_insert, if_neg absent]
      rw [List.foldl_cons, ih _ (keys ▸ distinct), entries_insert_of_absent absent, ← List.append_cons]
  exact general entries empty (by simpa [keys, empty] using distinct)

theorem get?_ofList {entries : List (κ × α)} (distinct : (entries.map Prod.fst).Nodup) :
    (ofList entries).get? key = some value ↔ (key, value) ∈ entries := by
  rw [get?_eq_some, entries_ofList distinct]

/-- Entries that are taken in one by one change what was there under their keys. -/
theorem get?_foldl_update (change : β → Option α → α) (table : Table κ α) (other : Table κ β) (key : κ) :
    (other.entries.foldl (fun table entry => table.update entry.1 (change entry.2)) table).get? key =
      ((other.get? key).map fun value => change value (table.get? key)).or (table.get? key) := by
  obtain ⟨entries, distinct⟩ := other
  change _ = ((find key entries).map _).or _
  dsimp only
  induction entries generalizing table with
  | nil => rfl
  | cons entry entries ih =>
    obtain ⟨absent, distinct⟩ := List.nodup_cons.mp distinct
    rw [List.foldl_cons, ih _ distinct, find, update, get?_insert]
    by_cases same : entry.1 = key
    · subst same
      simp [find_eq_none absent]
    · simp [same]

theorem get?_append (table other : Table κ α) (key : κ) :
    (table.append other).get? key = (other.get? key).or (table.get? key) := by
  have each := get?_foldl_update (fun value (_ : Option α) => value) table other key
  rwa [Option.map_id'] at each

theorem append_empty (table : Table κ α) : table.append empty = table := rfl

end TypedTree.Table
