/-! Lists in which nothing occurs twice, in the order of first occurrence. -/

namespace TypedTree.Distinct

variable {α : Type} [DecidableEq α]

/-- Adds an element at the end unless it is present. -/
def add (known : List α) (x : α) : List α := if x ∈ known then known else known ++ [x]

def addAll (known xs : List α) : List α := xs.foldl add known

/-- The elements of a list, each at its first occurrence. -/
def ofList (xs : List α) : List α := addAll [] xs

theorem mem_add {known : List α} {x y : α} : y ∈ add known x ↔ y ∈ known ∨ y = x := by
  unfold add
  split
  next present => exact ⟨Or.inl, fun either => either.elim id fun equal => equal ▸ present⟩
  next => simp

theorem mem_addAll {known xs : List α} {y : α} : y ∈ addAll known xs ↔ y ∈ known ∨ y ∈ xs := by
  induction xs generalizing known with
  | nil => simp [addAll]
  | cons x xs ih =>
    show y ∈ addAll (add known x) xs ↔ _
    rw [ih, mem_add, List.mem_cons, or_assoc]

theorem add_add {known : List α} {x : α} : add (add known x) x = add known x :=
  if_pos (mem_add.mpr (Or.inr rfl))

theorem nodup_add {known : List α} {x : α} (valid : known.Nodup) : (add known x).Nodup := by
  unfold add
  split
  · exact valid
  next absent =>
    rw [List.nodup_append]
    refine ⟨valid, by simp, ?_⟩
    intro y member z last
    simp only [List.mem_singleton] at last
    subst last
    intro equal
    exact absent (equal ▸ member)

theorem nodup_addAll {known xs : List α} (valid : known.Nodup) : (addAll known xs).Nodup := by
  induction xs generalizing known with
  | nil => simpa [addAll] using valid
  | cons x xs ih => exact ih (nodup_add valid)

omit [DecidableEq α] in
/-- A new key may come last. -/
theorem nodup_map_concat {β : Type} {key : β → α} {known : List β} {last : β} (distinct : (known.map key).Nodup)
    (new : ∀ x ∈ known, key x ≠ key last) : ((known ++ [last]).map key).Nodup := by
  rw [List.map_append, List.map_singleton, List.nodup_append]
  refine ⟨distinct, by simp, fun first known other last same => ?_⟩
  obtain ⟨x, member, rfl⟩ := List.mem_map.mp known
  exact new x member (same.trans (List.mem_singleton.mp last))

/-- What has a key of its own is all that is found under it. -/
theorem filter_eq_singleton {β : Type} {key : β → α} {xs : List β} {x : β} (distinct : (xs.map key).Nodup)
    (member : x ∈ xs) : xs.filter (key · = key x) = [x] := by
  induction xs with
  | nil => cases member
  | cons first rest ih =>
    obtain ⟨absent, distinct⟩ := List.nodup_cons.mp distinct
    rcases List.mem_cons.mp member with rfl | later
    · have none : rest.filter (key · = key x) = [] := by
        rw [List.filter_eq_nil_iff]
        exact fun other inside same => absent (List.mem_map.mpr ⟨other, inside, of_decide_eq_true same⟩)
      simp [none]
    · have different : key first ≠ key x := fun same => absent (List.mem_map.mpr ⟨x, later, same.symm⟩)
      simp [different, ih distinct later]

end TypedTree.Distinct
