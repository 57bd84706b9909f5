import TypedTree.Proofs.DepthFirst

/-! What comes before what in a dependency order, whatever the references are, as long as only finitely many elements
are reached. -/

namespace TypedTree.Order

variable {α : Type}

/-- A reference that leads from one element to another and is followed. -/
def Follows (targets : α → List α) (strangers : Strangers) (known : List α) (x y : α) : Prop :=
  y ∈ targets x ∧ (strangers = .add ∨ y ∈ known)

/-- How sorted elements stand to each other. That one comes before another says that the two are a sublist. -/
structure Arranged (targets : α → List α) (strangers : Strangers) (elements sorted : List α) : Prop where
  distinct : sorted.Nodup
  ahead : ∀ x ∈ sorted, ∀ y ∈ sorted, y ∈ targets x →
    ¬ Relation.TransGen (Follows targets strangers elements) y x → [x, y].Sublist sorted
  ahead_of_path : (∀ x ∈ sorted, ¬ Relation.TransGen (Follows targets strangers elements) x x) →
    ∀ x ∈ sorted, ∀ y, Relation.TransGen (Follows targets strangers elements) x y → [x, y].Sublist sorted
  reversed : strangers ≠ .add → elements.Nodup →
    (∀ x ∈ elements, ∀ y ∈ targets x, y ∈ elements → y ≠ x → [y, x].Sublist elements) → sorted = elements.reverse

private theorem mem_before_of_sublist {before after : List α} {x y : α} (distinct : (before ++ x :: after).Nodup)
    (earlier : [y, x].Sublist (before ++ x :: after)) : y ∈ before := by
  obtain ⟨_, alone, apart⟩ := List.nodup_append.mp distinct
  have absent : x ∉ after := (List.nodup_cons.mp alone).1
  obtain ⟨first, last, split, firstSub, lastSub⟩ := List.sublist_append_iff.mp earlier
  cases first with
  | nil =>
    -- Then both stand in the second half, which has its only `x` at its head.
    rw [List.nil_append] at split
    subst split
    have tail : [x].Sublist after := by
      cases lastSub with
      | cons _ rest => exact (List.sublist_cons_self y [x]).trans rest
      | cons_cons _ rest => exact rest
    exact absurd (List.singleton_sublist.mp tail) absent
  | cons head rest =>
    obtain ⟨rfl, _⟩ := List.cons.inj split
    exact firstSub.subset List.mem_cons_self

/-- What holds the roots and all that its elements reference holds all that is reached. -/
theorem mem_of_closed {targets : α → List α} {strangers : Strangers} {elements closed : List α}
    (roots : ∀ x ∈ elements, x ∈ closed) (inside : ∀ x ∈ closed, ∀ y ∈ targets x, y ∈ closed) :
    ∀ x ∈ elements, ∀ y, Relation.ReflTransGen (Follows targets strangers elements) x y → y ∈ closed := by
  intro x root y path
  induction path with
  | refl => exact roots x root
  | tail _ edge ih => exact inside _ ih _ edge.1

variable [DecidableEq α]

/-- The references of a function, as far as they start in a list. -/
def References.within (domain : List α) (targets : α → List α) : References α where
  domain
  targets x := if x ∈ domain then targets x else []
  outside _ absent := if_neg absent

/-- All references are those of a function within a list. -/
theorem References.within_domain (references : References α) :
    within references.domain references.targets = references := by
  obtain ⟨domain, targets, outside⟩ := references
  have same : (fun x => if x ∈ domain then targets x else []) = targets := by
    funext x
    split
    next => rfl
    next absent => exact (outside x absent).symm
  simp only [within, same]

variable {targets : α → List α} {strangers : Strangers} {reachable elements sorted : List α}

theorem mem_followed_within {x y : α} : y ∈ followed (.within reachable targets) strangers elements x ↔
    x ∈ reachable ∧ Follows targets strangers elements x y := by
  rw [mem_followed, References.within, Follows]
  by_cases inside : x ∈ reachable <;> simp [inside]

theorem follows_of_reaches {x y : α} (path : Reaches (followed (.within reachable targets) strangers elements) x y) :
    Relation.ReflTransGen (Follows targets strangers elements) x y :=
  Relation.ReflTransGen.mono (fun _ _ edge => (mem_followed_within.mp edge).2) _ _ path

/-- What all elements reach is sorted by all references that are followed. -/
structure Covers (targets : α → List α) (strangers : Strangers) (elements reachable sorted : List α) : Prop where
  sorted_by : Sorted (followed (.within reachable targets) strangers elements) elements sorted
  reached : ∀ x ∈ sorted, x ∈ reachable

theorem covers_of_sort
    (finite : ∀ x ∈ elements, ∀ y, Relation.ReflTransGen (Follows targets strangers elements) x y → y ∈ reachable)
    (run : sort (.within reachable targets) strangers elements = .ok sorted) :
    Covers targets strangers elements reachable sorted := by
  have order := sorted_of_sort run
  refine ⟨order, fun x member => ?_⟩
  obtain ⟨root, given, path⟩ := (order.complete x).mp member
  exact finite root given x (follows_of_reaches path)

namespace Covers

variable (covers : Covers targets strangers elements reachable sorted)

include covers

theorem target {x y : α} (member : x ∈ sorted) :
    Follows targets strangers elements x y ↔ y ∈ followed (.within reachable targets) strangers elements x :=
  ⟨fun edge => mem_followed_within.mpr ⟨covers.reached x member, edge⟩, fun edge => (mem_followed_within.mp edge).2⟩

theorem follows {x y : α} (later : y ∈ sorted) (referenced : y ∈ targets x) :
    Follows targets strangers elements x y := by
  refine ⟨referenced, ?_⟩
  by_cases adding : strangers = .add
  · exact Or.inl adding
  · exact Or.inr ((covers.sorted_by.mem_iff adding).mp later)

/-- The references that are followed stay among the sorted elements. -/
theorem closed {x y : α} (member : x ∈ sorted) (edge : Follows targets strangers elements x y) : y ∈ sorted := by
  obtain ⟨root, given, path⟩ := (covers.sorted_by.complete x).mp member
  exact (covers.sorted_by.complete y).mpr ⟨root, given, path.tail ((covers.target member).mp edge)⟩

theorem path {x y : α} (member : x ∈ sorted) (path : Relation.TransGen (Follows targets strangers elements) x y) :
    y ∈ sorted ∧
      Relation.TransGen (fun x y => y ∈ followed (.within reachable targets) strangers elements x) x y := by
  induction path with
  | single edge => exact ⟨covers.closed member edge, .single ((covers.target member).mp edge)⟩
  | tail _ edge ih => exact ⟨covers.closed ih.1 edge, ih.2.tail ((covers.target ih.1).mp edge)⟩

theorem sublist {x y : α} (member : x ∈ sorted) (edge : Follows targets strangers elements x y)
    (apart : ¬ Relation.TransGen (Follows targets strangers elements) y x) : [x, y].Sublist sorted := by
  obtain ⟨before, after, rfl⟩ := List.append_of_mem member
  refine sublist_of_mem_after (covers.sorted_by.settled.mem_after ((covers.target member).mp edge) fun back => ?_)
  rcases Relation.reflTransGen_iff_eq_or_transGen.mp (follows_of_reaches back) with same | back
  · exact apart (.single (same ▸ edge))
  · exact apart back

theorem sublist_of_path (acyclic : ∀ x ∈ sorted, ¬ Relation.TransGen (Follows targets strangers elements) x x) {x y : α}
    (member : x ∈ sorted) (path : Relation.TransGen (Follows targets strangers elements) x y) : [x, y].Sublist sorted := by
  have onward := (covers.path member path).2
  refine covers.sorted_by.settled.sublist_of_path (fun z inside cycle => ?_) member onward
  exact acyclic z inside (Relation.TransGen.mono (fun _ _ edge => (mem_followed_within.mp edge).2) _ _ cycle)

end Covers

/-- Where references lead backward only, each element is finished at once. -/
theorem reverse_of_sort {references : References α} (known : strangers ≠ .add) (distinct : elements.Nodup)
    (backward : ∀ x ∈ elements, ∀ y ∈ references.targets x, y ∈ elements → y ≠ x → [y, x].Sublist elements)
    (run : sort references strangers elements = .ok sorted) : sorted = elements.reverse := by
  obtain ⟨walk, walks, done⟩ := ListEffects.bind_eq_ok.mp run
  cases done
  suffices finished : walk = ⟨elements.reverse, elements.reverse⟩ by rw [finished]
  refine ListEffects.foldlM_invariant_of_split (fun done walk => walk = ⟨done.reverse, done.reverse⟩) rfl ?_ walks
  rintro done x rest state next split rfl step
  rw [split] at distinct backward
  have new : x ∉ done.reverse := by
    rw [List.mem_reverse]
    exact fun old => (List.nodup_append.mp distinct).2.2 x old x List.mem_cons_self rfl
  obtain ⟨_, walked, walks, rfl⟩ := (Walk.visit_new new).mp step
  have entered : ∀ y ∈ followed references strangers elements x, y ∈ x :: done.reverse := by
    intro y edge
    obtain ⟨referenced, inside⟩ := mem_followed.mp edge
    have inside := inside.resolve_left known
    rw [split] at inside
    by_cases same : y = x
    · exact same ▸ List.mem_cons_self
    · have earlier := backward x (by simp) y referenced inside same
      exact List.mem_cons_of_mem _ (List.mem_reverse.mpr (mem_before_of_sublist distinct earlier))
  have still : walked = ⟨x :: done.reverse, done.reverse⟩ :=
    ListEffects.foldlM_invariant (fun _ walk => walk = ⟨x :: done.reverse, done.reverse⟩) rfl
      (by
        rintro _ y state next edge rfl step
        rw [Walk.visit_entered (entered y edge)] at step
        exact (Except.ok.inj step).symm) walks
  rw [still, List.reverse_append]
  rfl

/-- Every element comes before what it references, unless that leads back to it. This is so for all references of which
finitely many elements are reached, and strangers that are ignored never stop the order. -/
theorem sort_arranged
    (finite : ∀ x ∈ elements, ∀ y, Relation.ReflTransGen (Follows targets strangers elements) x y → y ∈ reachable) :
    (∀ sorted, sort (.within reachable targets) strangers elements = .ok sorted →
      Arranged targets strangers elements sorted) ∧
    (strangers = .ignore → ∃ sorted, sort (.within reachable targets) strangers elements = .ok sorted) := by
  refine ⟨fun sorted run => ?_, fun ignoring => exists_sort fun refusing => ?_⟩
  · have covers := covers_of_sort finite run
    constructor
    · exact covers.sorted_by.distinct
    · exact fun x member y later referenced apart => covers.sublist member (covers.follows later referenced) apart
    · exact fun acyclic x member y path => covers.sublist_of_path acyclic member path
    · intro known distinct backward
      refine reverse_of_sort known distinct (fun x member y referenced => backward x member y ?_) run
      have bounded : y ∈ if x ∈ reachable then targets x else [] := referenced
      split at bounded
      · exact bounded
      · cases bounded
  · rw [ignoring] at refusing
    cases refusing

/-- Two elements on a cycle, which are reached from outside of it. -/
def detour : Nat → List Nat
  | 1 => [2, 5]
  | 2 => [3]
  | 3 => [2]
  | 4 => [1, 4]
  | _ => []

theorem arranged_detour :
    sort (.within [1, 2, 3, 4, 5] detour) .add [3, 1, 4] = .ok [4, 1, 5, 3, 2] ∧
      Arranged detour .add [3, 1, 4] [4, 1, 5, 3, 2] := by
  have run : sort (.within [1, 2, 3, 4, 5] detour) .add [3, 1, 4] = .ok [4, 1, 5, 3, 2] := by rfl
  exact ⟨run, (sort_arranged (mem_of_closed (by decide) (by decide))).1 _ run⟩

end TypedTree.Order
