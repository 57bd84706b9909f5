import TypedTree.Proofs.CommonTypeBound
import TypedTree.Proofs.SharedAncestry

/-! When candidates that know the same supertypes have a common type, and how specific it is. The order of
the candidates decides neither whether there is one nor that no common choice lies below the one taken. -/

namespace TypedTree

open Java (ClassName JavaType Ancestry Shape)

namespace Choices

theorem Fits.exists_best {column : List (JavaType × Ancestry)} {choices : Choices} (fits : choices.Fits column) :
    (∃ type, choices.best? = some type) ∧ ∃ argument, choices.bestArgument? = some argument := by
  cases choices with
  | same type ancestry => exact ⟨⟨_, rfl⟩, _, rfl⟩
  | narrowed types annotations =>
    cases types with
    | nil => exact absurd rfl fits.1
    | cons first rest => exact ⟨⟨_, rfl⟩, _, rfl⟩

end Choices

namespace ReturnType

def together (ancestry : Ancestry) (types : List JavaType) : List ReturnType := types.map (⟨·, ancestry⟩)

def classTypes (types : List JavaType) : List JavaType :=
  types.filterMap fun type => type.className?.map (.classType type.annotations)

def argumentsAt (position : Nat) (types : List JavaType) : List JavaType := types.filterMap (·.arguments[position]?)

/-- A class that is the class of every type or above it. -/
def CommonClass (ancestry : Ancestry) (types : List JavaType) (name : ClassName) : Prop :=
  ∀ type ∈ types, ∀ own, type.className? = some own → name ∈ own :: ancestry.above own

/-- What keeps types from having a common one. -/
inductive Conflict (ancestry : Ancestry) (types : List JavaType) : Prop
  | shapes (differ : ∃ one ∈ types, ∃ other ∈ types, one.shape ≠ other.shape)
  | others (differ : ∃ one ∈ types, ∃ other ∈ types, one.shape = .other ∧ other.shape = .other ∧ one ≠ other)
  | annotations (differ : ∃ one ∈ types, ∃ other ∈ types, one.annotations ≠ other.annotations)
  | counts (differ : ∃ one ∈ types, ∃ other ∈ types, one.arguments.length ≠ other.arguments.length)
  | classes (none : ∀ name, ¬ CommonClass ancestry types name)
  | arguments (position : Nat) (opposed : Choices.Opposed ancestry (argumentsAt position types))

theorem classColumn_together (ancestry : Ancestry) (types : List JavaType) :
    classColumn (together ancestry types) = Choices.shared ancestry (classTypes types) := by
  rw [classColumn, together, List.filterMap_map, Choices.shared, classTypes, List.map_filterMap]
  apply List.filterMap_congr
  intro type _
  rw [Option.map_map]
  rfl

theorem argumentColumn_together (ancestry : Ancestry) (types : List JavaType) (position : Nat) :
    argumentColumn (together ancestry types) position = Choices.shared ancestry (argumentsAt position types) := by
  rw [argumentColumn, together, List.filterMap_map, Choices.shared, argumentsAt, List.map_filterMap]
  rfl

theorem mem_classTypes {types : List JavaType} {entry : JavaType} :
    entry ∈ classTypes types ↔ ∃ type ∈ types, ∃ name, type.className? = some name ∧
      .classType type.annotations name = entry := by
  simp only [classTypes, List.mem_filterMap, Option.map_eq_some_iff]

theorem mem_argumentsAt {types : List JavaType} {position : Nat} {argument : JavaType} :
    argument ∈ argumentsAt position types ↔ ∃ type ∈ types, type.arguments[position]? = some argument := by
  simp only [argumentsAt, List.mem_filterMap]

theorem forall_mem_together {ancestry : Ancestry} {types : List JavaType} {holds : JavaType → Prop} :
    (∀ candidate ∈ together ancestry types, holds candidate.type) ↔ ∀ type ∈ types, holds type := by
  simp only [together, List.forall_mem_map]

theorem commonClass_iff {ancestry : Ancestry} {types : List JavaType} {name : ClassName} :
    CommonClass ancestry types name ↔ Choices.Common ancestry (classTypes types) (.ofClass name) := by
  constructor
  · intro common entry member
    obtain ⟨type, inside, own, named, rfl⟩ := mem_classTypes.mp member
    exact Ancestry.ofClass_mem_choices.mpr (common type inside own named)
  · intro common type member own named
    exact Ancestry.ofClass_mem_choices.mp (common _ (mem_classTypes.mpr ⟨type, member, own, named, rfl⟩))

theorem classTypes_ne_nil {types : List JavaType} (present : types ≠ [])
    (named : ∀ type ∈ types, type.shape ≠ .other) : classTypes types ≠ [] := by
  obtain ⟨type, member⟩ := List.exists_mem_of_ne_nil _ present
  obtain ⟨name, found⟩ := JavaType.exists_className (named type member)
  exact List.ne_nil_of_mem (mem_classTypes.mpr ⟨type, member, name, found, rfl⟩)

/-- Classes are opposed by their annotations or for want of a common class. -/
theorem opposed_classTypes {ancestry : Ancestry} {types : List JavaType} (present : types ≠ [])
    (named : ∀ type ∈ types, type.shape ≠ .other) :
    Choices.Opposed ancestry (classTypes types) ↔
      (∃ one ∈ types, ∃ other ∈ types, one.annotations ≠ other.annotations) ∨
        ∀ name, ¬ CommonClass ancestry types name := by
  have entries : ∀ type ∈ types, ∃ name, type.className? = some name ∧
      .classType type.annotations name ∈ classTypes types := by
    intro type member
    obtain ⟨name, found⟩ := JavaType.exists_className (named type member)
    exact ⟨name, found, mem_classTypes.mpr ⟨type, member, name, found, rfl⟩⟩
  constructor
  · rintro ⟨_, ⟨_, here, _, there, differ⟩ | nothing⟩
    · obtain ⟨one, inside, _, _, rfl⟩ := mem_classTypes.mp here
      obtain ⟨other, outside, _, _, rfl⟩ := mem_classTypes.mp there
      exact Or.inl ⟨one, inside, other, outside, differ⟩
    · exact Or.inr fun name common => nothing _ (commonClass_iff.mp common)
  · rintro (⟨one, here, other, there, differ⟩ | nothing)
    · obtain ⟨_, _, first⟩ := entries one here
      obtain ⟨_, _, second⟩ := entries other there
      exact ⟨⟨_, first, _, second, fun same => differ (JavaType.classType.inj same).1⟩,
        Or.inl ⟨_, first, _, second, differ⟩⟩
    · obtain ⟨first, here⟩ := List.exists_mem_of_ne_nil _ present
      obtain ⟨name, _, entry⟩ := entries first here
      constructor
      · -- Were all equal, their class would be common.
        refine Decidable.byContradiction fun equal => nothing name ?_
        rw [commonClass_iff]
        intro other member
        have same : other = .classType first.annotations name :=
          Decidable.byContradiction fun differ => equal ⟨other, member, _, entry, differ⟩
        rw [same]
        exact List.mem_cons_self
      · refine Or.inr fun choice common => ?_
        obtain ⟨above, _, rfl⟩ := Ancestry.mem_choices_ofClass.mp (common _ entry)
        exact nothing above (commonClass_iff.mpr common)

theorem commonType?_of_other {ancestry : Ancestry} {first : JavaType} {rest : List JavaType}
    (shape : first.shape = .other) :
    commonType? (together ancestry (first :: rest)) = none ↔ ∃ type ∈ rest, type ≠ first := by
  have tested : commonType? (together ancestry (first :: rest)) =
      if (together ancestry rest).all (·.type = first) then some first else none := by
    cases first <;> first | rfl | cases shape
  rw [tested]
  simp [together]

theorem commonClass?_eq_none {ancestry : Ancestry} {types : List JavaType} (present : types ≠ [])
    (plain : ∀ type ∈ types, type.shape = .plainClass) :
    commonClass? (together ancestry types) = none ↔
      (∃ one ∈ types, ∃ other ∈ types, one.annotations ≠ other.annotations) ∨
        ∀ name, ¬ CommonClass ancestry types name := by
  have named : ∀ type ∈ types, type.shape ≠ .other := by
    intro type member
    rw [plain type member]
    exact nofun
  rw [commonClass?_of_plain (forall_mem_together.mpr plain), classColumn_together,
    ← opposed_classTypes present named, ← Choices.ofCandidates_shared_eq_none (classTypes_ne_nil present named)]
  cases found : Choices.ofCandidates (Choices.shared ancestry (classTypes types)) with
  | none => simp
  | some choices =>
    obtain ⟨⟨type, best⟩, _⟩ := (Choices.fits_ofCandidates found).exists_best
    simp [best]

theorem columnArgument?_eq_none {ancestry : Ancestry} {types : List JavaType} {position : Nat}
    (present : argumentsAt position types ≠ []) :
    columnArgument? (together ancestry types) position = none ↔
      Choices.Opposed ancestry (argumentsAt position types) := by
  rw [columnArgument?, argumentColumn_together, ← Choices.ofCandidates_shared_eq_none present]
  cases found : Choices.ofCandidates (Choices.shared ancestry (argumentsAt position types)) with
  | none => simp
  | some choices =>
    obtain ⟨_, argument, best⟩ := (Choices.fits_ofCandidates found).exists_best
    simp [best]

theorem commonParameterized?_eq_none {ancestry : Ancestry} {types : List JavaType} {count : Nat}
    (present : types ≠ []) (generic : ∀ type ∈ types, type.shape = .parameterized ∧ type.arguments.length = count) :
    commonParameterized? count (together ancestry types) = none ↔
      ((∃ one ∈ types, ∃ other ∈ types, one.annotations ≠ other.annotations) ∨
        ∀ name, ¬ CommonClass ancestry types name) ∨
      ∃ position, Choices.Opposed ancestry (argumentsAt position types) := by
  have named : ∀ type ∈ types, type.shape ≠ .other := by
    intro type member
    rw [(generic type member).1]
    exact nofun
  have filled : ∀ position < count, argumentsAt position types ≠ [] := by
    intro position inside
    obtain ⟨type, member⟩ := List.exists_mem_of_ne_nil _ present
    have argument := List.getElem?_eq_getElem ((generic type member).2 ▸ inside)
    exact List.ne_nil_of_mem (mem_argumentsAt.mpr ⟨type, member, argument⟩)
  have bounded : ∀ position, Choices.Opposed ancestry (argumentsAt position types) → position < count := by
    rintro position ⟨⟨argument, here, _⟩, _⟩
    obtain ⟨type, member, found⟩ := mem_argumentsAt.mp here
    exact (generic type member).2 ▸ (List.getElem?_eq_some_iff.mp found).1
  rw [commonParameterized?_of_generic (forall_mem_together.mpr generic), ← opposed_classTypes present named,
    ← Choices.ofCandidates_shared_eq_none (classTypes_ne_nil present named), ← classColumn_together]
  cases found : Choices.ofCandidates (classColumn (together ancestry types)) with
  | none => simp
  | some choices =>
    obtain ⟨⟨type, best⟩, _⟩ := (Choices.fits_ofCandidates found).exists_best
    obtain ⟨annotations, name, rfl, _⟩ := class_bound found best
    simp only [Option.bind_some, best, withArguments, reduceCtorEq, false_or]
    cases columns : (List.range count).mapM (columnArgument? (together ancestry types)) with
    | none =>
      obtain ⟨position, inside, missing⟩ := ListEffects.mapM_eq_none.mp columns
      have opposed := (columnArgument?_eq_none (filled position (List.mem_range.mp inside))).mp missing
      exact iff_of_true rfl ⟨position, opposed⟩
    | some arguments =>
      refine iff_of_false nofun ?_
      rintro ⟨position, opposed⟩
      have inside := bounded position opposed
      have missing := (columnArgument?_eq_none (filled position inside)).mpr opposed
      have failed := ListEffects.mapM_eq_none.mpr ⟨position, List.mem_range.mpr inside, missing⟩
      rw [columns] at failed
      cases failed

private theorem not_conflict_of_equal {ancestry : Ancestry} {types : List JavaType} {first : JavaType}
    (shape : first.shape = .other) (equal : ∀ type ∈ types, type = first) : ¬ Conflict ancestry types := by
  intro conflict
  cases conflict with
  | shapes differ =>
    obtain ⟨one, here, other, there, differ⟩ := differ
    exact differ (by rw [equal one here, equal other there])
  | others differ =>
    obtain ⟨one, here, other, there, _, _, differ⟩ := differ
    exact differ (by rw [equal one here, equal other there])
  | annotations differ =>
    obtain ⟨one, here, other, there, differ⟩ := differ
    exact differ (by rw [equal one here, equal other there])
  | counts differ =>
    obtain ⟨one, here, other, there, differ⟩ := differ
    exact differ (by rw [equal one here, equal other there])
  | classes none =>
    refine none default fun type member own named => ?_
    rw [equal type member, JavaType.className?_of_other shape] at named
    cases named
  | arguments position opposed =>
    obtain ⟨⟨one, here, other, there, differ⟩, _⟩ := opposed
    obtain ⟨type, member, found⟩ := mem_argumentsAt.mp here
    obtain ⟨second, inside, also⟩ := mem_argumentsAt.mp there
    rw [equal type member] at found
    rw [equal second inside, found] at also
    exact differ (Option.some.inj also)

private theorem conflict_of_classes {ancestry : Ancestry} {types : List JavaType}
    (opposed : (∃ one ∈ types, ∃ other ∈ types, one.annotations ≠ other.annotations) ∨
      ∀ name, ¬ CommonClass ancestry types name) : Conflict ancestry types :=
  opposed.elim .annotations .classes

private theorem classes_of_conflict {ancestry : Ancestry} {types : List JavaType} {shape : Shape} {count : Nat}
    (alike : ∀ type ∈ types, type.shape = shape ∧ type.arguments.length = count) (named : shape ≠ .other)
    (conflict : Conflict ancestry types) :
    ((∃ one ∈ types, ∃ other ∈ types, one.annotations ≠ other.annotations) ∨
        ∀ name, ¬ CommonClass ancestry types name) ∨
      ∃ position, Choices.Opposed ancestry (argumentsAt position types) := by
  cases conflict with
  | shapes differ =>
    obtain ⟨one, here, other, there, differ⟩ := differ
    exact absurd ((alike one here).1.trans (alike other there).1.symm) differ
  | others differ =>
    obtain ⟨one, here, _, _, other, _⟩ := differ
    exact absurd ((alike one here).1.symm.trans other) named
  | annotations differ => exact Or.inl (Or.inl differ)
  | counts differ =>
    obtain ⟨one, here, other, there, differ⟩ := differ
    exact absurd ((alike one here).2.trans (alike other there).2.symm) differ
  | classes none => exact Or.inl (Or.inr none)
  | arguments position opposed => exact Or.inr ⟨position, opposed⟩

private theorem plain_eq_none {ancestry : Ancestry} {first : JavaType} {rest : List JavaType}
    (shape : first.shape = .plainClass) :
    commonType? (together ancestry (first :: rest)) = none ↔ Conflict ancestry (first :: rest) := by
  have tested : commonType? (together ancestry (first :: rest)) =
      commonClass? (together ancestry (first :: rest)) := by
    cases first <;> first | rfl | cases shape
  rw [tested]
  by_cases plain : ∀ type ∈ first :: rest, type.shape = .plainClass
  · rw [commonClass?_eq_none (List.cons_ne_nil _ _) plain]
    refine ⟨conflict_of_classes, fun conflict => ?_⟩
    have alike : ∀ type ∈ first :: rest, type.shape = .plainClass ∧ type.arguments.length = 0 := by
      intro type member
      obtain ⟨name, same⟩ := JavaType.eq_classType (plain type member)
      exact ⟨plain type member, by rw [same]; rfl⟩
    rcases classes_of_conflict alike nofun conflict with classes | ⟨position, ⟨argument, here, _⟩, _⟩
    · exact classes
    · obtain ⟨type, member, found⟩ := mem_argumentsAt.mp here
      have inside := (List.getElem?_eq_some_iff.mp found).1
      rw [(alike type member).2] at inside
      exact absurd inside (Nat.not_lt_zero position)
  · have mixed : ∃ type ∈ first :: rest, type.shape ≠ .plainClass :=
      Classical.byContradiction fun none_other => plain fun type member =>
        Decidable.byContradiction fun other => none_other ⟨type, member, other⟩
    rw [commonClass?_of_mixed (fun all => plain (forall_mem_together.mp all))]
    obtain ⟨type, member, other⟩ := mixed
    exact iff_of_true rfl (.shapes ⟨type, member, first, List.mem_cons_self, shape ▸ other⟩)

private theorem parameterized_eq_none {ancestry : Ancestry} {first : JavaType} {rest : List JavaType}
    (shape : first.shape = .parameterized) :
    commonType? (together ancestry (first :: rest)) = none ↔ Conflict ancestry (first :: rest) := by
  have tested : commonType? (together ancestry (first :: rest)) =
      commonParameterized? first.arguments.length (together ancestry (first :: rest)) := by
    cases first <;> first | rfl | cases shape
  rw [tested]
  by_cases generic : ∀ type ∈ first :: rest, type.shape = .parameterized ∧
      type.arguments.length = first.arguments.length
  · rw [commonParameterized?_eq_none (List.cons_ne_nil _ _) generic]
    refine ⟨?_, classes_of_conflict generic nofun⟩
    rintro (classes | ⟨position, opposed⟩)
    · exact conflict_of_classes classes
    · exact .arguments position opposed
  · have mixed : ∃ type ∈ first :: rest, ¬ (type.shape = .parameterized ∧
        type.arguments.length = first.arguments.length) :=
      Classical.byContradiction fun none_other => generic fun type member =>
        Decidable.byContradiction fun other => none_other ⟨type, member, other⟩
    rw [commonParameterized?_of_mixed (fun all => generic (forall_mem_together.mp all))]
    obtain ⟨type, member, other⟩ := mixed
    refine iff_of_true rfl ?_
    by_cases alike : type.shape = .parameterized
    · exact .counts ⟨type, member, first, List.mem_cons_self, fun same => other ⟨alike, same⟩⟩
    · exact .shapes ⟨type, member, first, List.mem_cons_self, shape ▸ alike⟩

/-- There is no common type exactly if something keeps the types from having one. -/
theorem commonType?_eq_none {ancestry : Ancestry} {types : List JavaType} (present : types ≠ []) :
    commonType? (together ancestry types) = none ↔ Conflict ancestry types := by
  cases types with
  | nil => exact absurd rfl present
  | cons first rest =>
    cases shape : first.shape with
    | other =>
      rw [commonType?_of_other shape]
      constructor
      · rintro ⟨type, member, differ⟩
        by_cases alike : type.shape = .other
        · exact .others ⟨type, List.mem_cons_of_mem _ member, first, List.mem_cons_self, alike, shape, differ⟩
        · exact .shapes ⟨type, List.mem_cons_of_mem _ member, first, List.mem_cons_self, shape ▸ alike⟩
      · intro conflict
        refine Decidable.byContradiction fun equal => not_conflict_of_equal shape ?_ conflict
        refine List.forall_mem_cons.mpr ⟨rfl, fun type member => ?_⟩
        exact Decidable.byContradiction fun differ => equal ⟨type, member, differ⟩
    | plainClass => exact plain_eq_none shape
    | parameterized => exact parameterized_eq_none shape

/-- What keeps types from having a common one is not undone by further types. -/
theorem Conflict.mono {ancestry : Ancestry} {types others : List JavaType} (wider : ∀ type ∈ types, type ∈ others)
    (conflict : Conflict ancestry types) : Conflict ancestry others := by
  have kept : ∀ {some more : List JavaType} {differ : JavaType → JavaType → Prop}, (∀ type ∈ some, type ∈ more) →
      (∃ one ∈ some, ∃ other ∈ some, differ one other) → ∃ one ∈ more, ∃ other ∈ more, differ one other := by
    rintro _ _ _ wider ⟨one, here, other, there, differ⟩
    exact ⟨one, wider one here, other, wider other there, differ⟩
  cases conflict with
  | shapes differ => exact .shapes (kept wider differ)
  | others differ => exact .others (kept wider differ)
  | annotations differ => exact .annotations (kept wider differ)
  | counts differ => exact .counts (kept wider differ)
  | classes none => exact .classes fun name common => none name fun type member => common type (wider type member)
  | arguments position opposed =>
    have arguments : ∀ argument ∈ argumentsAt position types, argument ∈ argumentsAt position others := by
      intro argument member
      obtain ⟨type, inside, found⟩ := mem_argumentsAt.mp member
      exact mem_argumentsAt.mpr ⟨type, wider type inside, found⟩
    obtain ⟨differ, conflict⟩ := opposed
    refine .arguments position ⟨kept arguments differ, conflict.imp (kept arguments) fun nothing choice common => ?_⟩
    exact nothing choice fun argument member => common argument (arguments argument member)

theorem Conflict.congr {ancestry : Ancestry} {types others : List JavaType}
    (same : ∀ type, type ∈ types ↔ type ∈ others) (conflict : Conflict ancestry types) :
    Conflict ancestry others := conflict.mono fun type => (same type).mp

/-- A common class that stands above no other common class. -/
def LeastClass (ancestry : Ancestry) (types : List JavaType) (name : ClassName) : Prop :=
  CommonClass ancestry types name ∧
    ∀ other, CommonClass ancestry types other → other ≠ name → name ∉ ancestry.above other

private theorem leastClass_of_equal {ancestry : Ancestry} (ordered : ancestry.Ordered) {types : List JavaType}
    {name : ClassName} (present : ∃ type ∈ types, ∃ own, type.className? = some own)
    (equal : ∀ type ∈ types, ∀ own, type.className? = some own → own = name) : LeastClass ancestry types name := by
  obtain ⟨first, member, own, named⟩ := present
  refine ⟨fun type member own named => equal type member own named ▸ List.mem_cons_self, ?_⟩
  intro other common different above
  have below := common first member own named
  rw [equal first member own named] at below
  rcases List.mem_cons.mp below with same | listed
  · exact different same
  · exact ordered.proper name (ordered.transitive listed above)

theorem leastClass_of_best {ancestry : Ancestry} (ordered : ancestry.Ordered) {types : List JavaType}
    {choices : Choices} {annotations : List ClassName} {name : ClassName}
    (found : Choices.ofCandidates (Choices.shared ancestry (classTypes types)) = some choices)
    (best : choices.best? = some (.classType annotations name)) : LeastClass ancestry types name := by
  have fits := Choices.fits_ofCandidates found
  have column : ∀ type ∈ types, ∀ own, type.className? = some own →
      (JavaType.classType type.annotations own, ancestry) ∈ Choices.shared ancestry (classTypes types) :=
    fun type member own named => List.mem_map_of_mem (mem_classTypes.mpr ⟨type, member, own, named, rfl⟩)
  cases choices with
  | same seen known =>
    cases best
    refine leastClass_of_equal ordered ?_ fun type member own named =>
      (JavaType.classType.inj (fits _ (column type member own named))).2
    obtain ⟨_, inside⟩ := Choices.exists_mem_of_found found
    obtain ⟨_, entry, rfl⟩ := List.mem_map.mp inside
    obtain ⟨type, member, own, named, _⟩ := mem_classTypes.mp entry
    exact ⟨type, member, own, named⟩
  | narrowed left labels =>
    cases left with
    | nil => cases best
    | cons first rest =>
      obtain ⟨common, least⟩ := Choices.mostSpecific_of_narrowed ordered found
      obtain ⟨entry, member, _⟩ := fits.2.1
      obtain ⟨_, inside, rfl⟩ := List.mem_map.mp member
      obtain ⟨type, here, own, named, rfl⟩ := mem_classTypes.mp inside
      obtain ⟨only, _, rfl⟩ := Ancestry.mem_choices_ofClass.mp (common _ inside)
      have same : only = name := (JavaType.classType.inj (Option.some.inj best)).2
      subst same
      refine ⟨commonClass_iff.mpr common, fun other shared different above => ?_⟩
      refine least (.ofClass other) (commonClass_iff.mp shared) ?_ ?_
      · exact fun same => different (JavaType.classType.inj same).2
      · exact Ancestry.ofClass_mem_choices.mpr (List.mem_cons_of_mem _ above)

/-- A narrowed argument is a wildcard, and its bound is a common choice that stands above no other one. -/
def LeastArgument (ancestry : Ancestry) (arguments : List JavaType) (argument : JavaType) : Prop :=
  ∃ bound, argument = .wildcardExtends [] bound ∧ Choices.MostSpecific ancestry arguments bound.bare

theorem leastArgument_of_best {ancestry : Ancestry} (ordered : ancestry.Ordered) {types : List JavaType}
    {position : Nat} {argument : JavaType}
    (found : columnArgument? (together ancestry types) position = some argument)
    (differ : ∃ one ∈ argumentsAt position types, ∃ other ∈ argumentsAt position types, one ≠ other) :
    LeastArgument ancestry (argumentsAt position types) argument := by
  rw [columnArgument?, argumentColumn_together] at found
  obtain ⟨choices, left, best⟩ := Option.bind_eq_some_iff.mp found
  have fits := Choices.fits_ofCandidates left
  cases choices with
  | same seen known =>
    obtain ⟨one, here, other, there, differ⟩ := differ
    have equal : ∀ argument ∈ argumentsAt position types, argument = seen :=
      fun argument member => fits (argument, ancestry) (List.mem_map_of_mem member)
    exact absurd ((equal one here).trans (equal other there).symm) differ
  | narrowed types labels =>
    cases types with
    | nil => cases best
    | cons first rest =>
      have least := Choices.mostSpecific_of_narrowed ordered left
      obtain ⟨entry, member, _⟩ := fits.2.1
      obtain ⟨known, inside, rfl⟩ := List.mem_map.mp member
      have plain := Ancestry.annotations_of_mem_choices (JavaType.annotations_bare _) (least.common _ inside)
      cases best
      refine ⟨_, rfl, ?_⟩
      rw [JavaType.bare_annotate, JavaType.bare_eq_self plain]
      exact least

/-- The chosen class and the bound of every narrowed argument stand above no other common choice. -/
structure IsMostSpecific (ancestry : Ancestry) (types : List JavaType) (type : JavaType) : Prop where
  classes : ∀ name, type.className? = some name → LeastClass ancestry types name
  arguments : ∀ position argument, type.arguments[position]? = some argument →
    (∃ one ∈ argumentsAt position types, ∃ other ∈ argumentsAt position types, one ≠ other) →
    LeastArgument ancestry (argumentsAt position types) argument

theorem isMostSpecific_of_commonType? {ancestry : Ancestry} (ordered : ancestry.Ordered) {types : List JavaType}
    {type : JavaType} (found : commonType? (together ancestry types) = some type) :
    IsMostSpecific ancestry types type := by
  cases bound_of_commonType? found with
  | other shape equal =>
    refine ⟨fun name named => ?_, fun position argument here => ?_⟩
    · rw [JavaType.className?_of_other shape] at named
      cases named
    · have none : type.arguments = [] := by cases type <;> first | rfl | exact nomatch shape
      simp [none] at here
  | plainClass plain bound =>
    obtain ⟨annotations, name, rfl, _⟩ := bound
    rw [commonType?_of_plain plain, commonClass?_of_plain plain, classColumn_together] at found
    obtain ⟨choices, left, best⟩ := Option.bind_eq_some_iff.mp found
    refine ⟨fun _ named => ?_, fun position argument here => nomatch here⟩
    cases named
    exact leastClass_of_best ordered left best
  | parameterized count generic bound =>
    rw [commonType?_of_generic generic] at found
    obtain ⟨choices, arguments, annotations, raw, left, columns, best, rfl⟩ := exists_columns generic found
    rw [classColumn_together] at left
    refine ⟨fun _ named => ?_, fun position argument here differ => ?_⟩
    · cases named
      exact leastClass_of_best ordered left best
    · obtain ⟨_, column⟩ := ListEffects.getElem?_of_mapM_range columns here
      exact leastArgument_of_best ordered column differ

/-- Over ordered supertypes there is a common type unless types conflict, in whatever order they come, and
nothing that it chooses stands above another common choice. -/
theorem common?_isMostSpecific (ancestry : Ancestry) (ordered : ancestry.Ordered) (types : List JavaType)
    (present : types ≠ []) :
    (common? (together ancestry types) = none ↔ Conflict ancestry types) ∧
      (∀ permuted, permuted.Perm types →
        (common? (together ancestry permuted)).isSome = (common? (together ancestry types)).isSome) ∧
      ∀ result, common? (together ancestry types) = some result → IsMostSpecific ancestry types result.type := by
  have undefined : ∀ types, types ≠ [] →
      (common? (together ancestry types) = none ↔ Conflict ancestry types) := by
    intro types present
    rw [common?, Option.map_eq_none_iff, commonType?_eq_none present]
  refine ⟨undefined types present, fun permuted same => ?_, fun result found => ?_⟩
  · have others : permuted ≠ [] := fun empty => present (List.nil_perm.mp (empty ▸ same))
    have either : common? (together ancestry permuted) = none ↔ common? (together ancestry types) = none := by
      rw [undefined permuted others, undefined types present]
      exact ⟨.congr fun type => same.mem_iff, .congr fun type => same.mem_iff.symm⟩
    rw [Bool.eq_iff_iff, Option.isSome_iff_ne_none, Option.isSome_iff_ne_none]
    exact not_congr either
  · obtain ⟨type, common, rfl⟩ := Option.map_eq_some_iff.mp found
    exact isMostSpecific_of_commonType? ordered common

/-- Cats and dogs are pets, and pets are animals. -/
def animals : Ancestry :=
  let name := ClassName.topLevel "zoo"
  .ofTable <| .ofList [(name "Cat", [name "Pet", name "Animal"]), (name "Dog", [name "Pet", name "Animal"]),
    (name "Pet", [name "Animal"])]

def catAndDog : List JavaType := [.ofClass (.topLevel "zoo" "Cat"), .ofClass (.topLevel "zoo" "Dog")]

theorem isMostSpecific_catAndDog :
    animals.Ordered ∧ catAndDog ≠ [] ∧
      (common? (together animals catAndDog)).map (·.type) = some (.ofClass (.topLevel "zoo" "Pet")) ∧
      (common? (together animals catAndDog) = none ↔ Conflict animals catAndDog) ∧
      (∀ permuted, permuted.Perm catAndDog →
        (common? (together animals permuted)).isSome = (common? (together animals catAndDog)).isSome) ∧
      ∀ result, common? (together animals catAndDog) = some result →
        IsMostSpecific animals catAndDog result.type :=
  have ordered : animals.Ordered := Ancestry.ordered_ofTable (by decide)
  have present : catAndDog ≠ [] := by decide
  ⟨ordered, present, rfl, common?_isMostSpecific animals ordered catAndDog present⟩

end ReturnType

end TypedTree
