import TypedTree.Proofs.CommonTypeLevels

/-! Common types as a matter of sets. Where classes have one line of supertypes each, it only matters which types there
are, not in which order they come and how often. -/

namespace TypedTree

open Java (ClassName JavaType Ancestry)

namespace Java.Ancestry

variable {ancestry : Ancestry}

theorem Chained.ordered (chained : ancestry.Chained) : ancestry.Ordered := by
  refine ⟨chained.distinct, chained.proper, fun name middle top lower upper => ?_⟩
  obtain ⟨before, after, split⟩ := List.append_of_mem lower
  rw [chained.above_split split] at upper
  rw [split]
  exact ((List.singleton_sublist.mpr upper).cons_cons middle).trans (List.sublist_append_right _ _)

/-- Of two choices for one type, one is a choice for the other. -/
theorem Chained.mem_choices_or (chained : ancestry.Chained) {base one other : JavaType} (plain : base.annotations = [])
    (first : one ∈ ancestry.choices base) (second : other ∈ ancestry.choices base) :
    one ∈ ancestry.choices other ∨ other ∈ ancestry.choices one := by
  obtain ⟨before, after, split⟩ := List.append_of_mem first
  rw [split] at second
  rcases List.mem_append.mp second with earlier | later
  · obtain ⟨start, middle, rfl⟩ := List.append_of_mem earlier
    rw [List.append_assoc, List.cons_append] at split
    rw [chained.choices_split plain split]
    exact Or.inl (List.mem_cons_of_mem _ (List.mem_append_right _ List.mem_cons_self))
  · rw [chained.choices_split plain split]
    exact Or.inr later

end Java.Ancestry

namespace Choices

variable {ancestry : Ancestry} {types others : List JavaType} {type bound otherBound : JavaType}
  {rest otherRest : List JavaType} {annotations otherAnnotations : List ClassName}

theorem ne_nil_of_members (same : ∀ type, type ∈ types ↔ type ∈ others) (present : types ≠ []) : others ≠ [] := by
  obtain ⟨type, member⟩ := List.exists_mem_of_ne_nil _ present
  exact List.ne_nil_of_mem ((same type).mp member)

theorem Opposed.congr (same : ∀ type, type ∈ types ↔ type ∈ others) (opposed : Opposed ancestry types) :
    Opposed ancestry others := by
  have kept : ∀ {differ : JavaType → JavaType → Prop}, (∃ one ∈ types, ∃ other ∈ types, differ one other) →
      ∃ one ∈ others, ∃ other ∈ others, differ one other := by
    rintro _ ⟨one, here, other, there, differ⟩
    exact ⟨one, (same one).mp here, other, (same other).mp there, differ⟩
  obtain ⟨differ, conflict⟩ := opposed
  refine ⟨kept differ, conflict.imp kept fun nothing choice common => nothing choice fun type member => ?_⟩
  exact common type ((same type).mp member)

/-- Two columns of the same types are narrowed to the same choices: their first choices are on one line of supertypes,
and neither is above the other. -/
private theorem narrowed_congr (chained : ancestry.Chained) (same : ∀ type, type ∈ types ↔ type ∈ others)
    (found : ofCandidates (shared ancestry types) = some (narrowed (bound :: rest) annotations))
    (otherFound : ofCandidates (shared ancestry others) = some (narrowed (otherBound :: otherRest) otherAnnotations)) :
    narrowed (bound :: rest) annotations = narrowed (otherBound :: otherRest) otherAnnotations := by
  obtain ⟨all, first, member, allowed⟩ := narrowed_eq_choices chained found
  obtain ⟨otherAll, _⟩ := narrowed_eq_choices chained otherFound
  have least := mostSpecific_of_narrowed chained.ordered found
  have otherLeast := mostSpecific_of_narrowed chained.ordered otherFound
  have labeled : annotations = otherAnnotations := by
    have inside : (first, ancestry) ∈ shared ancestry types := List.mem_map_of_mem member
    have otherInside : (first, ancestry) ∈ shared ancestry others := List.mem_map_of_mem ((same first).mp member)
    exact ((fits_ofCandidates found).2.2 _ inside).1.symm.trans ((fits_ofCandidates otherFound).2.2 _ otherInside).1
  have bounds : bound = otherBound := by
    refine Decidable.byContradiction fun differ => ?_
    have common : Common ancestry types otherBound := fun type inside => otherLeast.common type ((same type).mp inside)
    have otherCommon : Common ancestry others bound := fun type inside => least.common type ((same type).mpr inside)
    rcases chained.mem_choices_or (JavaType.annotations_bare _) allowed (common first member) with above | above
    · exact least.least otherBound common (Ne.symm differ) above
    · exact otherLeast.least bound otherCommon differ above
  rw [all, otherAll, labeled, bounds]

theorem ofCandidates_shared_of_equal (present : types ≠ []) (equal : ∀ one ∈ types, one = type) :
    ofCandidates (shared ancestry types) = some (same type ancestry) := by
  obtain ⟨first, rest, rfl⟩ := List.exists_cons_of_ne_nil present
  obtain ⟨rfl, later⟩ := List.forall_mem_cons.mp equal
  rw [ofCandidates_shared_cons, if_pos later]

theorem exists_narrowed {choices : Choices} (differ : ¬ ∃ type, ∀ one ∈ types, one = type)
    (found : ofCandidates (shared ancestry types) = some choices) :
    ∃ bound rest annotations, choices = narrowed (bound :: rest) annotations := by
  have fits := fits_ofCandidates found
  cases choices with
  | same type known => exact absurd ⟨type, fun one inside => fits (one, ancestry) (List.mem_map_of_mem inside)⟩ differ
  | narrowed left annotations =>
    obtain ⟨bound, rest, rfl⟩ := List.exists_cons_of_ne_nil fits.1
    exact ⟨bound, rest, annotations, rfl⟩

theorem ofCandidates_shared_congr (chained : ancestry.Chained) (same : ∀ type, type ∈ types ↔ type ∈ others) :
    ofCandidates (shared ancestry types) = ofCandidates (shared ancestry others) := by
  by_cases present : types = []
  · have otherNone : others = [] :=
      Decidable.byContradiction fun left => ne_nil_of_members (fun type => (same type).symm) left present
    rw [present, otherNone]
  have otherPresent : others ≠ [] := ne_nil_of_members same present
  by_cases equal : ∃ type, ∀ one ∈ types, one = type
  · obtain ⟨type, equal⟩ := equal
    rw [ofCandidates_shared_of_equal present equal,
      ofCandidates_shared_of_equal otherPresent fun one member => equal one ((same one).mpr member)]
  · have otherDiffer : ¬ ∃ type, ∀ one ∈ others, one = type := fun ⟨type, all⟩ =>
      equal ⟨type, fun one member => all one ((same one).mp member)⟩
    have either : ofCandidates (shared ancestry types) = none ↔ ofCandidates (shared ancestry others) = none := by
      rw [ofCandidates_shared_eq_none present, ofCandidates_shared_eq_none otherPresent]
      exact ⟨.congr same, .congr fun type => (same type).symm⟩
    cases found : ofCandidates (shared ancestry types) with
    | none => exact (either.mp found).symm
    | some choices =>
      obtain ⟨otherChoices, otherFound⟩ :=
        Option.ne_none_iff_exists'.mp (mt either.mpr (by rw [found]; exact Option.some_ne_none choices))
      obtain ⟨bound, rest, annotations, rfl⟩ := exists_narrowed equal found
      obtain ⟨otherBound, otherRest, otherAnnotations, rfl⟩ := exists_narrowed otherDiffer otherFound
      rw [otherFound, narrowed_congr chained same found otherFound]

end Choices

namespace ReturnType

variable {ancestry : Ancestry} {types others : List JavaType}

/-- The common type of types that know the same supertypes depends on which types there are. -/
theorem commonType?_of_members (chained : ancestry.Chained) (present : types ≠ [])
    (same : ∀ type, type ∈ types ↔ type ∈ others) :
    commonType? (together ancestry types) = commonType? (together ancestry others) := by
  have all : ∀ {holds : JavaType → Prop}, (∀ type ∈ types, holds type) ↔ ∀ type ∈ others, holds type :=
    forall_congr' fun type => imp_congr_left (same type)
  refine commonType?_congr present (Choices.ne_nil_of_members same present) (fun _ _ => all) (fun _ _ => all) ?_
    fun position => ?_
  · rw [columnClass?, columnClass?, classColumn_together, classColumn_together,
      Choices.ofCandidates_shared_congr chained fun entry => ?_]
    simp only [mem_classTypes, same]
  · rw [columnArgument?, columnArgument?, argumentColumn_together, argumentColumn_together,
      Choices.ofCandidates_shared_congr chained fun argument => ?_]
    simp only [mem_argumentsAt, same]

end ReturnType

end TypedTree
