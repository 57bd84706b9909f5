import Mathlib.Data.List.Basic
import Mathlib.Data.List.Induction
import TypedTree.Distinct

/-! Lists of first occurrences. Taking only some of the elements, or all of them by other names, can come first or
last. -/

namespace TypedTree.Distinct

variable {α β : Type} [DecidableEq α] [DecidableEq β]

theorem mem_ofList {xs : List α} {x : α} : x ∈ ofList xs ↔ x ∈ xs := by simp [ofList, mem_addAll]

theorem nodup_ofList (xs : List α) : (ofList xs).Nodup := nodup_addAll List.nodup_nil

theorem addAll_append (known xs ys : List α) : addAll known (xs ++ ys) = addAll (addAll known xs) ys :=
  List.foldl_append

theorem ofList_concat (xs : List α) (x : α) : ofList (xs ++ [x]) = add (ofList xs) x := addAll_append [] xs [x]

theorem addAll_of_nodup {known xs : List α} (distinct : (known ++ xs).Nodup) : addAll known xs = known ++ xs := by
  induction xs generalizing known with
  | nil => simp [addAll]
  | cons x xs ih =>
    have new : x ∉ known := fun present =>
      (List.nodup_append.mp distinct).2.2 x present x List.mem_cons_self rfl
    rw [List.append_cons] at distinct ⊢
    change addAll (add known x) xs = _
    rw [add, if_neg new, ih distinct]

theorem ofList_of_nodup {xs : List α} (distinct : xs.Nodup) : ofList xs = xs := addAll_of_nodup distinct

theorem exists_addAll (known xs : List α) : ∃ more, addAll known xs = known ++ more := by
  induction xs generalizing known with
  | nil => exact ⟨[], (List.append_nil known).symm⟩
  | cons x xs ih =>
    obtain ⟨more, same⟩ := ih (add known x)
    change ∃ more, addAll (add known x) xs = known ++ more
    rw [same, add]
    split
    · exact ⟨more, rfl⟩
    · exact ⟨x :: more, by simp⟩

/-- A beginning without repetitions stays. -/
theorem exists_ofList {start : List α} (distinct : start.Nodup) (rest : List α) :
    ∃ more, ofList (start ++ rest) = start ++ more := by
  obtain ⟨more, same⟩ := exists_addAll start rest
  refine ⟨more, ?_⟩
  rw [← same, ofList, addAll_append]
  exact congrArg (addAll · rest) (ofList_of_nodup distinct)

theorem ofList_filter (p : α → Bool) (xs : List α) : ofList (xs.filter p) = (ofList xs).filter p := by
  induction xs using List.reverseRecOn with
  | nil => rfl
  | append_singleton xs x ih =>
    rw [List.filter_append, ofList_concat]
    by_cases kept : p x = true
    · have last : [x].filter p = [x] := by simp [kept]
      rw [last, ofList_concat, ih, add, add]
      by_cases present : x ∈ ofList xs
      · rw [if_pos present, if_pos (List.mem_filter.mpr ⟨present, kept⟩)]
      · rw [if_neg present, if_neg fun member => present (List.mem_of_mem_filter member)]
        simp [kept]
    · rw [add]
      split
      · simp [kept, ih]
      · simp [kept, ih]

theorem ofList_map {f : α → β} (injective : Function.Injective f) (xs : List α) :
    ofList (xs.map f) = (ofList xs).map f := by
  induction xs using List.reverseRecOn with
  | nil => rfl
  | append_singleton xs x ih =>
    rw [List.map_append, List.map_singleton, ofList_concat, ofList_concat, ih, add, add]
    by_cases present : x ∈ ofList xs
    · rw [if_pos present, if_pos (List.mem_map_of_mem present)]
    · have absent : f x ∉ (ofList xs).map f := by simpa [injective.eq_iff] using present
      rw [if_neg present, if_neg absent, List.map_append, List.map_singleton]

/-- The elements come in the order in which they are met first. -/
theorem pairwise_ofList (xs : List α) : (ofList xs).Pairwise fun first later => xs.idxOf first < xs.idxOf later := by
  induction xs using List.reverseRecOn with
  | nil => exact List.Pairwise.nil
  | append_singleton xs x ih =>
    have old : (ofList xs).Pairwise fun first later => (xs ++ [x]).idxOf first < (xs ++ [x]).idxOf later := by
      apply ih.imp_of_mem
      intro first later firstInside laterInside less
      rwa [List.idxOf_append_of_mem (mem_ofList.mp firstInside), List.idxOf_append_of_mem (mem_ofList.mp laterInside)]
    rw [ofList_concat, add]
    split
    next => exact old
    next absent =>
      apply List.pairwise_append.mpr
      refine ⟨old, List.pairwise_singleton _ _, fun first inside last same => ?_⟩
      obtain rfl := List.mem_singleton.mp same
      rw [mem_ofList] at inside absent
      rw [List.idxOf_append_of_mem inside, List.idxOf_append_of_notMem absent]
      have less := List.idxOf_lt_length_of_mem inside
      omega

end TypedTree.Distinct
