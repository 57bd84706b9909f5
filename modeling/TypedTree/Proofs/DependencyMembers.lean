import TypedTree.Proofs.DependencyOrder

/-! What a dependency order holds, and what keeps elements from being ordered: nothing but a reference that leads
outside of them where that is refused. -/

namespace TypedTree.Order

open ListEffects (Avoids avoids_ok avoids_error)

variable {α : Type}

/-- A reference that leads from an element to be ordered to one that is not. -/
structure Strays (targets : α → List α) (elements : List α) (reference : StrangeReference α) : Prop where
  source : reference.source ∈ elements
  target : reference.target ∈ targets reference.source
  outside : reference.target ∉ elements

/-- A reference that gives no reason to refuse an order. -/
def Harmless (targets : α → List α) (strangers : Strangers) (elements : List α) (reference : StrangeReference α) : Prop :=
  ¬ (strangers = .refuse ∧ Strays targets elements reference)

variable [DecidableEq α]

namespace Walk

variable {references : References α} {strangers : Strangers} {known : List α} {walk after : Walk α}

/-- A walk that starts among the known elements stops only where one of them references a stranger. -/
theorem avoids_visit {depth : Nat} {x : α} (start : strangers = .refuse → x ∈ known) :
    Avoids (Harmless references.targets strangers known)
      (walk.visit references strangers known depth x) := by
  induction depth generalizing walk x with
  | zero => exact avoids_ok walk
  | succ depth ih =>
    rw [visit]
    split
    next => exact avoids_ok walk
    next =>
      refine .bind (.foldlM (fun y target state => ?_) _) fun _ _ => avoids_ok _
      cases strangers with
      | add =>
        refine ih fun refused => ?_
        cases refused
      | ignore =>
        dsimp only
        split
        · refine ih fun refused => ?_
          cases refused
        · exact avoids_ok state
      | refuse =>
        dsimp only
        split
        next inside => exact ih fun _ => inside
        next outside => exact avoids_error (not_not_intro ⟨rfl, start rfl, target, outside⟩)

/-- Where strangers are refused, what is finished references known elements only. -/
theorem known_of_visit {depth : Nat} {x : α} (clean : ∀ y ∈ walk.finished, ∀ z ∈ references.targets y, z ∈ known)
    (run : walk.visit references .refuse known depth x = .ok after) :
    ∀ y ∈ after.finished, ∀ z ∈ references.targets y, z ∈ known := by
  induction depth generalizing walk after x with
  | zero =>
    cases run
    exact clean
  | succ depth ih =>
    by_cases old : x ∈ walk.entered
    · rw [visit_entered old] at run
      cases run
      exact clean
    · obtain ⟨allowed, walked, walks, rfl⟩ := (visit_new old).mp run
      refine List.forall_mem_cons.mpr ⟨allowed rfl, ?_⟩
      exact ListEffects.foldlM_invariant
        (fun _ state => ∀ y ∈ state.finished, ∀ z ∈ references.targets y, z ∈ known) clean
        (fun _ _ _ _ _ clean step => ih clean step) walks

end Walk

variable {references : References α} {targets : α → List α} {strangers : Strangers} {reachable elements sorted : List α}

theorem avoids_sort :
    Avoids (Harmless references.targets strangers elements) (sort references strangers elements) :=
  .bind (.foldlM (fun _ member _ => Walk.avoids_visit fun _ => member) _) fun _ _ => avoids_ok _

theorem known_of_sort (run : sort references .refuse elements = .ok sorted) :
    ∀ x ∈ sorted, ∀ y ∈ references.targets x, y ∈ elements := by
  obtain ⟨walk, walks, done⟩ := ListEffects.bind_eq_ok.mp run
  cases done
  exact ListEffects.foldlM_invariant
    (fun _ (state : Walk α) => ∀ x ∈ state.finished, ∀ y ∈ references.targets x, y ∈ elements) (List.forall_mem_nil _)
    (fun _ _ _ _ _ clean step => Walk.known_of_visit clean step) walks

/-- Where strangers are added, what is sorted is what the elements reach. -/
theorem Covers.mem_iff_of_add (covers : Covers targets .add elements reachable sorted) {y : α} :
    y ∈ sorted ↔ ∃ x ∈ elements, Reaches targets x y := by
  constructor
  · intro member
    obtain ⟨root, given, path⟩ := (covers.sorted_by.complete y).mp member
    exact ⟨root, given, Relation.ReflTransGen.mono (fun _ _ edge => edge.1) _ _ (follows_of_reaches path)⟩
  · rintro ⟨root, given, path⟩
    induction path with
    | refl => exact (covers.sorted_by.complete root).mpr ⟨root, given, .refl⟩
    | tail _ referenced ih => exact covers.closed ih ⟨referenced, Or.inl rfl⟩

theorem targets_within {x : α} (inside : x ∈ reachable) : (References.within reachable targets).targets x = targets x :=
  if_pos inside

/-- Every element is ordered once, and strangers only where they are added: then all that is reached is ordered too.
Elements are refused an order exactly if one of them references a stranger, and then such a reference is named. -/
theorem sort_members
    (finite : ∀ x ∈ elements, ∀ y, Relation.ReflTransGen (Follows targets strangers elements) x y → y ∈ reachable) :
    (strangers = .add → ∃ sorted, sort (.within reachable targets) strangers elements = .ok sorted ∧
      sorted.Nodup ∧ ∀ y, y ∈ sorted ↔ ∃ x ∈ elements, Reaches targets x y) ∧
    (strangers = .ignore → ∃ sorted, sort (.within reachable targets) strangers elements = .ok sorted ∧
      sorted.Nodup ∧ ∀ y, y ∈ sorted ↔ y ∈ elements) ∧
    (strangers = .refuse →
      ((∃ reference, sort (.within reachable targets) strangers elements = .error reference) ↔
        ∃ reference, Strays targets elements reference) ∧
      (∀ reference, sort (.within reachable targets) strangers elements = .error reference →
        Strays targets elements reference) ∧
      ∀ sorted, sort (.within reachable targets) strangers elements = .ok sorted →
        sorted.Nodup ∧ ∀ y, y ∈ sorted ↔ y ∈ elements) := by
  have roots : ∀ x ∈ elements, x ∈ reachable := fun x member => finite x member x .refl
  refine ⟨fun adding => ?_, fun ignoring => ?_, fun refusing => ?_⟩
  · subst adding
    obtain ⟨sorted, run⟩ : ∃ sorted, sort (.within reachable targets) .add elements = .ok sorted := exists_sort nofun
    have covers := covers_of_sort finite run
    exact ⟨sorted, run, covers.sorted_by.distinct, fun _ => covers.mem_iff_of_add⟩
  · subst ignoring
    obtain ⟨sorted, run⟩ : ∃ sorted, sort (.within reachable targets) .ignore elements = .ok sorted := exists_sort nofun
    have order := (covers_of_sort finite run).sorted_by
    exact ⟨sorted, run, order.distinct, fun _ => order.mem_iff nofun⟩
  · subst refusing
    have named : ∀ reference, sort (.within reachable targets) .refuse elements = .error reference →
        Strays targets elements reference := by
      intro reference failed
      obtain ⟨_, source, target, outside⟩ := Classical.not_not.mp (avoids_sort reference failed)
      rw [targets_within (roots _ source)] at target
      exact ⟨source, target, outside⟩
    refine ⟨⟨fun ⟨reference, failed⟩ => ⟨reference, named reference failed⟩, ?_⟩, named, fun sorted run => ?_⟩
    · rintro ⟨stray, source, target, outside⟩
      cases outcome : sort (.within reachable targets) .refuse elements with
      | error reference => exact ⟨reference, rfl⟩
      | ok sorted =>
        have ordered := ((covers_of_sort finite outcome).sorted_by.mem_iff nofun).mpr source
        refine absurd (known_of_sort outcome _ ordered _ ?_) outside
        rwa [targets_within (roots _ source)]
    · have order := (covers_of_sort finite run).sorted_by
      exact ⟨order.distinct, fun _ => order.mem_iff nofun⟩

/-- The elements of `detour` that are given lead to two others. -/
theorem sort_members_detour :
    sort (.within [1, 2, 3, 4, 5] detour) .add [3, 1, 4] = .ok [4, 1, 5, 3, 2] ∧
      sort (.within [1, 2, 3, 4, 5] detour) .ignore [3, 1, 4] = .ok [4, 1, 3] ∧
      sort (.within [1, 2, 3, 4, 5] detour) .refuse [3, 1, 4] = .error ⟨3, 2⟩ ∧
      (∀ y, y ∈ [4, 1, 5, 3, 2] ↔ ∃ x ∈ [3, 1, 4], Reaches detour x y) ∧
      (∀ y, y ∈ [4, 1, 3] ↔ y ∈ [3, 1, 4]) ∧ Strays detour [3, 1, 4] ⟨3, 2⟩ := by
  have finite : ∀ strangers, ∀ x ∈ [3, 1, 4], ∀ y,
      Relation.ReflTransGen (Follows detour strangers [3, 1, 4]) x y → y ∈ [1, 2, 3, 4, 5] :=
    fun strangers => mem_of_closed (by decide) (by decide)
  have added : sort (.within [1, 2, 3, 4, 5] detour) .add [3, 1, 4] = .ok [4, 1, 5, 3, 2] := by rfl
  have ignored : sort (.within [1, 2, 3, 4, 5] detour) .ignore [3, 1, 4] = .ok [4, 1, 3] := by rfl
  have refused : sort (.within [1, 2, 3, 4, 5] detour) .refuse [3, 1, 4] = .error ⟨3, 2⟩ := by rfl
  refine ⟨added, ignored, refused, ?_, ?_, ((sort_members (finite .refuse)).2.2 rfl).2.1 _ refused⟩
  · obtain ⟨sorted, run, _, members⟩ := (sort_members (finite .add)).1 rfl
    cases added.symm.trans run
    exact members
  · obtain ⟨sorted, run, _, members⟩ := (sort_members (finite .ignore)).2.1 rfl
    cases ignored.symm.trans run
    exact members

end TypedTree.Order
