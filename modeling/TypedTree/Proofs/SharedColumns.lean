import TypedTree.Proofs.CommonTypeExact

/-! Common types of candidates that know the same supertypes, column by column. Lists whose columns come to the
same have the same common type. -/

namespace TypedTree

open Java (JavaType Ancestry Shape)

namespace Choices

variable {ancestry : Ancestry}

/-- Candidates equal to the first one allow all that it allows, so it does not matter that they are passed over. -/
private theorem leftOver_later (first : JavaType) (rest : List JavaType) :
    leftOver (later (first, ancestry) (shared ancestry rest)) (allowed (first, ancestry)) (labels (first, ancestry)) =
      leftOver (shared ancestry rest) (allowed (first, ancestry)) (labels (first, ancestry)) := by
  have passed : ∀ candidate ∈ shared ancestry rest,
      candidate ∉ later (first, ancestry) (shared ancestry rest) → candidate = (first, ancestry) := by
    intro candidate member skipped
    obtain ⟨type, _, rfl⟩ := List.mem_map.mp member
    rw [show type = first from same_of_not_later member skipped]
  have everywhere : ∀ {holds : JavaType × Ancestry → Prop}, holds (first, ancestry) →
      ((∀ candidate ∈ later (first, ancestry) (shared ancestry rest), holds candidate) ↔
        ∀ candidate ∈ shared ancestry rest, holds candidate) := by
    intro holds here
    constructor
    · intro each candidate member
      by_cases asked : candidate ∈ later (first, ancestry) (shared ancestry rest)
      · exact each candidate asked
      · exact passed candidate member asked ▸ here
    · exact fun each candidate asked => each candidate (mem_of_mem_later asked)
  have kept : sharedBy (later (first, ancestry) (shared ancestry rest)) (allowed (first, ancestry)) =
      sharedBy (shared ancestry rest) (allowed (first, ancestry)) := by
    apply List.filter_congr
    intro type member
    rw [decide_eq_decide]
    exact everywhere member
  have agree : Agree (later (first, ancestry) (shared ancestry rest)) (allowed (first, ancestry))
      (labels (first, ancestry)) ↔
        Agree (shared ancestry rest) (allowed (first, ancestry)) (labels (first, ancestry)) :=
    and_congr (everywhere rfl) (by rw [kept])
  simp only [leftOver, agree, kept]

theorem ofCandidates_shared_cons (first : JavaType) (rest : List JavaType) :
    ofCandidates (shared ancestry (first :: rest)) =
      if ∀ type ∈ rest, type = first then some (same first ancestry)
      else leftOver (shared ancestry rest) (allowed (first, ancestry)) (labels (first, ancestry)) := by
  have all : later (first, ancestry) (shared ancestry rest) = [] ↔ ∀ type ∈ rest, type = first := by
    simp only [later, shared, List.dropWhile_eq_nil_iff, List.forall_mem_map, decide_eq_true_eq]
  rw [shared_cons, ofCandidates_cons, leftOver_later]
  simp only [all]

end Choices

namespace ReturnType

variable {ancestry : Ancestry} {types others : List JavaType}

/-- What the raw classes of all candidates come to. -/
def columnClass? (candidates : List ReturnType) : Option JavaType :=
  (Choices.ofCandidates (classColumn candidates)).bind Choices.best?

/-- Types of one shape, with the same number of arguments. -/
def Uniform (shape : Shape) (count : Nat) (types : List JavaType) : Prop :=
  ∀ type ∈ types, type.shape = shape ∧ type.arguments.length = count

theorem commonType?_of_classes {candidates : List ReturnType}
    (plain : ∀ candidate ∈ candidates, candidate.type.shape = .plainClass) :
    commonType? candidates = columnClass? candidates := by
  rw [commonType?_of_plain plain, commonClass?_of_plain plain, columnClass?]

theorem commonType?_of_columns {count : Nat} {candidates : List ReturnType} (generic : Generic count candidates) :
    commonType? candidates = ((List.range count).mapM (columnArgument? candidates)).bind fun arguments =>
      (columnClass? candidates).bind (withArguments arguments) := by
  rw [commonType?_of_generic generic, commonParameterized?_of_generic generic, columnClass?]
  cases Choices.ofCandidates (classColumn candidates) with
  | none => simp
  | some choices => rfl

theorem commonType?_eq_some_of_other {first : ReturnType} {rest : List ReturnType} (shape : first.type.shape = .other)
    {type : JavaType} : commonType? (first :: rest) = some type ↔ ∀ other ∈ first :: rest, other.type = type := by
  have tested : commonType? (first :: rest) = if rest.all (·.type = first.type) then some first.type else none := by
    obtain ⟨first, ancestry⟩ := first
    cases first <;> first | rfl | cases shape
  rw [tested, Option.ite_none_right_eq_some, List.all_eq_true, List.forall_mem_cons]
  simp only [decide_eq_true_eq, Option.some.injEq]
  constructor
  · rintro ⟨equal, rfl⟩
    exact ⟨rfl, equal⟩
  · rintro ⟨rfl, equal⟩
    exact ⟨equal, rfl⟩

/-- Candidates that differ in shape or in the number of their arguments have no common type. -/
theorem commonType?_of_mixed {candidates : List ReturnType}
    (mixed : ∀ shape count, ¬ Uniform shape count (candidates.map (·.type))) : commonType? candidates = none := by
  refine Option.eq_none_iff_forall_ne_some.mpr fun type found => ?_
  cases bound_of_commonType? found with
  | other shape equal =>
    refine mixed type.shape type.arguments.length (List.forall_mem_map.mpr fun candidate member => ?_)
    rw [equal candidate member]
    exact ⟨rfl, rfl⟩
  | plainClass plain bound =>
    refine mixed .plainClass 0 (List.forall_mem_map.mpr fun candidate member => ?_)
    obtain ⟨name, same⟩ := JavaType.eq_classType (plain candidate member)
    rw [same]
    exact ⟨rfl, rfl⟩
  | parameterized count generic => exact mixed .parameterized count (List.forall_mem_map.mpr generic)

/-- Candidates that are alike have the same common type if their columns come to the same. -/
theorem commonType?_of_alike {candidates others : List ReturnType} (present : candidates ≠ [])
    (otherPresent : others ≠ [])
    (alike : ∀ shape count, Uniform shape count (candidates.map (·.type)) ↔ Uniform shape count (others.map (·.type)))
    (equal : ∀ type, type.shape = .other →
      ((∀ one ∈ candidates, one.type = type) ↔ ∀ one ∈ others, one.type = type))
    (classes : ∀ shape count, Uniform shape count (candidates.map (·.type)) →
      columnClass? candidates = columnClass? others)
    (arguments : ∀ position, columnArgument? candidates position = columnArgument? others position) :
    commonType? candidates = commonType? others := by
  by_cases uniform : ∃ shape count, Uniform shape count (candidates.map (·.type))
  · obtain ⟨shape, count, uniform⟩ := uniform
    have classes := classes shape count uniform
    have otherUniform := List.forall_mem_map.mp ((alike shape count).mp uniform)
    have uniform := List.forall_mem_map.mp uniform
    cases shape with
    | plainClass =>
      rw [commonType?_of_classes fun one member => (uniform one member).1,
        commonType?_of_classes fun one member => (otherUniform one member).1, classes]
    | parameterized =>
      rw [commonType?_of_columns uniform, commonType?_of_columns otherUniform, classes, funext arguments]
    | other =>
      obtain ⟨first, rest, rfl⟩ := List.exists_cons_of_ne_nil present
      obtain ⟨otherFirst, otherRest, rfl⟩ := List.exists_cons_of_ne_nil otherPresent
      have shape := (uniform first List.mem_cons_self).1
      have otherShape := (otherUniform otherFirst List.mem_cons_self).1
      refine Option.ext fun type => ?_
      rw [commonType?_eq_some_of_other shape, commonType?_eq_some_of_other otherShape]
      by_cases same : type.shape = .other
      · exact equal type same
      · refine iff_of_false (fun all => same ?_) fun all => same ?_
        · exact all first List.mem_cons_self ▸ shape
        · exact all otherFirst List.mem_cons_self ▸ otherShape
  · have mixed : ∀ shape count, ¬ Uniform shape count (candidates.map (·.type)) :=
      fun shape count all => uniform ⟨shape, count, all⟩
    have otherMixed := fun shape count => mt (alike shape count).mpr (mixed shape count)
    rw [commonType?_of_mixed mixed, commonType?_of_mixed otherMixed]

theorem types_together (ancestry : Ancestry) (types : List JavaType) :
    (together ancestry types).map (·.type) = types := by
  rw [together, List.map_map]
  exact List.map_id' types

/-- Only the columns count, and whether the types are alike. -/
theorem commonType?_congr (present : types ≠ []) (otherPresent : others ≠ [])
    (alike : ∀ shape count, Uniform shape count types ↔ Uniform shape count others)
    (equal : ∀ type, type.shape = .other → ((∀ one ∈ types, one = type) ↔ ∀ one ∈ others, one = type))
    (classes : columnClass? (together ancestry types) = columnClass? (together ancestry others))
    (arguments : ∀ position,
      columnArgument? (together ancestry types) position = columnArgument? (together ancestry others) position) :
    commonType? (together ancestry types) = commonType? (together ancestry others) := by
  refine commonType?_of_alike (by simpa [together] using present) (by simpa [together] using otherPresent) ?_
    (fun type shape => ?_) (fun _ _ _ => classes) arguments
  · simpa only [types_together] using alike
  · simp only [together, List.forall_mem_map]
    exact equal type shape

/-- What a common type says of the columns that it was put together from. -/
structure Joins (ancestry : Ancestry) (types : List JavaType) (type : JavaType) : Prop where
  uniform : Uniform type.shape type.arguments.length types
  other : type.shape = .other → ∀ one ∈ types, one = type
  classes : ∀ name, type.className? = some name →
    columnClass? (together ancestry types) = some (.classType type.annotations name)
  arguments : ∀ position argument, type.arguments[position]? = some argument →
    columnArgument? (together ancestry types) position = some argument

theorem joins_of_commonType? {type : JavaType} (found : commonType? (together ancestry types) = some type) :
    Joins ancestry types type := by
  cases bound_of_commonType? found with
  | other shape equal =>
    have equal : ∀ one ∈ types, one = type := forall_mem_together.mp equal
    refine ⟨fun one member => ?_, fun _ => equal, fun name named => ?_, fun position argument here => ?_⟩
    · rw [equal one member]
      exact ⟨rfl, rfl⟩
    · rw [JavaType.className?_of_other shape] at named
      cases named
    · have none : type.arguments = [] := by cases type <;> first | rfl | exact nomatch shape
      simp [none] at here
  | plainClass plain bound =>
    obtain ⟨annotations, name, rfl, _⟩ := bound
    rw [commonType?_of_plain plain, commonClass?_of_plain plain] at found
    have plain : ∀ one ∈ types, one.shape = .plainClass := forall_mem_together.mp plain
    refine ⟨fun one member => ?_, nofun, fun _ named => ?_, fun position argument here => nomatch here⟩
    · obtain ⟨own, same⟩ := JavaType.eq_classType (plain one member)
      rw [same]
      exact ⟨rfl, rfl⟩
    · cases named
      exact found
  | parameterized count generic bound =>
    rw [commonType?_of_generic generic] at found
    obtain ⟨choices, arguments, annotations, raw, left, columns, best, rfl⟩ := exists_columns generic found
    have generic : Uniform .parameterized count types := forall_mem_together.mp generic
    have length : arguments.length = count := by
      simpa using (congrArg List.length (ListEffects.mapM_eq_some.mp columns)).symm
    refine ⟨fun one member => ?_, nofun, fun _ named => ?_, fun position argument here => ?_⟩
    · exact ⟨(generic one member).1, (generic one member).2.trans length.symm⟩
    · cases named
      rw [columnClass?, left]
      exact best
    · exact (ListEffects.getElem?_of_mapM_range columns here).2

end ReturnType

end TypedTree
