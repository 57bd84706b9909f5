import TypedTree.Proofs.CommonTypeColumns

/-! A common type is an upper bound: every candidate can be returned as it. What the candidates know of
supertypes may differ, so every narrowed part names a candidate that lists the supertype. -/

namespace TypedTree

open Java (ClassName JavaType Ancestry Shape)

namespace Choices

/-- A type bounds a column if every entry, its wildcard and annotations aside, is this type or a class
below it. An entry of the same type must list the supertype. -/
def BoundedBy (column : List (JavaType × Ancestry)) (bound : JavaType) : Prop :=
  ∀ entry ∈ column, labels entry = bound.annotations ∧
    (entry.1.unwrapped.bare = bound.bare ∨
      ∃ below above, entry.1.unwrapped = .classType bound.annotations below ∧
        bound = .classType bound.annotations above ∧
        ∃ other ∈ column, other.1 = entry.1 ∧ other.2.Lists below above)

private theorem boundedBy_of_fits {column : List (JavaType × Ancestry)} {type : JavaType}
    {rest : List JavaType} {annotations : List ClassName}
    (fits : (narrowed (type :: rest) annotations).Fits column) : BoundedBy column (type.annotate annotations) := by
  obtain ⟨_, ⟨one, inside, _⟩, each⟩ := fits
  have plain : type.annotations = [] := by
    obtain ⟨other, _, _, allowed⟩ := (each one inside).2 type List.mem_cons_self
    exact Ancestry.annotations_of_mem_choices (JavaType.annotations_bare _) allowed
  intro entry member
  obtain ⟨labeled, others⟩ := each entry member
  obtain ⟨other, inside, same, allowed⟩ := others type List.mem_cons_self
  rw [JavaType.annotations_annotate plain, JavaType.bare_annotate, JavaType.bare_eq_self plain]
  refine ⟨labeled, ?_⟩
  rw [Choices.allowed, same] at allowed
  rcases Ancestry.mem_choices.mp allowed with equal | ⟨_, below, above, base, listed, rfl⟩
  · exact Or.inl equal.symm
  · refine Or.inr ⟨below, above, ?_, rfl, other, inside, same, listed⟩
    rw [JavaType.eq_classType_of_bare base]
    exact congrArg (JavaType.classType · below) labeled

theorem Fits.best {column : List (JavaType × Ancestry)} {choices : Choices} {type : JavaType}
    (fits : choices.Fits column) (best : choices.best? = some type) :
    (∀ entry ∈ column, entry.1 = type) ∨ BoundedBy column type := by
  cases choices with
  | same seen ancestry =>
    cases best
    exact Or.inl fits
  | narrowed types annotations =>
    cases types with
    | nil => cases best
    | cons first rest =>
      cases best
      exact Or.inr (boundedBy_of_fits fits)

theorem Fits.bestArgument {column : List (JavaType × Ancestry)} {choices : Choices} {argument : JavaType}
    (fits : choices.Fits column) (best : choices.bestArgument? = some argument) :
    (∀ entry ∈ column, entry.1 = argument) ∨
      ∃ bound, argument = .wildcardExtends [] bound ∧ BoundedBy column bound := by
  cases choices with
  | same seen ancestry =>
    cases best
    exact Or.inl fits
  | narrowed types annotations =>
    cases types with
    | nil => cases best
    | cons first rest =>
      cases best
      exact Or.inr ⟨_, rfl, boundedBy_of_fits fits⟩

end Choices

namespace ReturnType

theorem mem_classColumn {candidates : List ReturnType} {entry : JavaType × Ancestry} :
    entry ∈ classColumn candidates ↔ ∃ candidate ∈ candidates, ∃ name,
      candidate.type.className? = some name ∧
        (.classType candidate.type.annotations name, candidate.ancestry) = entry := by
  simp only [classColumn, List.mem_filterMap, Option.map_eq_some_iff]

theorem mem_argumentColumn {candidates : List ReturnType} {position : Nat} {entry : JavaType × Ancestry} :
    entry ∈ argumentColumn candidates position ↔ ∃ candidate ∈ candidates, ∃ argument,
      candidate.type.arguments[position]? = some argument ∧ (argument, candidate.ancestry) = entry := by
  simp only [argumentColumn, List.mem_filterMap, Option.map_eq_some_iff]

/-- A class is the other one, or a candidate like the one in question lists the other one above it. -/
def Below (candidates : List ReturnType) (alike : ReturnType → Prop) (below above : ClassName) : Prop :=
  above = below ∨ ∃ other ∈ candidates, alike other ∧ other.ancestry.Lists below above

/-- A class that every candidate's class is or has above it. -/
def PlainBound (candidates : List ReturnType) (type : JavaType) : Prop :=
  ∃ annotations name, type = .classType annotations name ∧
    ∀ candidate ∈ candidates, ∃ own, candidate.type = .classType annotations own ∧
      Below candidates (·.type = candidate.type) own name

/-- An argument that all candidates have at a position, or a wildcard whose bound every candidate's
argument there is or has above it. -/
inductive ArgumentBound (candidates : List ReturnType) (position : Nat) : JavaType → Prop
  | unchanged {argument : JavaType}
      (equal : ∀ candidate ∈ candidates, candidate.type.arguments[position]? = some argument) :
      ArgumentBound candidates position argument
  | narrowed {bound : JavaType}
      (above : ∀ candidate ∈ candidates, ∃ argument, candidate.type.arguments[position]? = some argument ∧
        argument.unwrapped.annotations = bound.annotations ∧
        (argument.unwrapped.bare = bound.bare ∨
          ∃ below above, argument.unwrapped = .classType bound.annotations below ∧
            bound = .classType bound.annotations above ∧
            ∃ other ∈ candidates, other.type.arguments[position]? = some argument ∧
              other.ancestry.Lists below above)) :
      ArgumentBound candidates position (.wildcardExtends [] bound)

/-- A parameterized type whose raw class and arguments bound those of every candidate. -/
def GenericBound (candidates : List ReturnType) (type : JavaType) : Prop :=
  ∃ annotations raw arguments, type = .parameterized annotations raw arguments ∧
    (∀ candidate ∈ candidates, ∃ own ownArguments,
      candidate.type = .parameterized annotations own ownArguments ∧ ownArguments.length = arguments.length ∧
      Below candidates (·.type.className? = some own) own raw) ∧
    ∀ position argument, arguments[position]? = some argument → ArgumentBound candidates position argument

/-- The class that is left of a column of classes bounds each of them. -/
theorem class_bound {candidates : List ReturnType} {choices : Choices} {type : JavaType}
    (found : Choices.ofCandidates (classColumn candidates) = some choices) (best : choices.best? = some type) :
    ∃ annotations name, type = .classType annotations name ∧
      ∀ candidate ∈ candidates, ∀ own, candidate.type.className? = some own →
        candidate.type.annotations = annotations ∧
        Below candidates (fun other => other.type.className? = some own ∧ other.type.annotations = annotations)
          own name := by
  have classes : ∀ candidate ∈ candidates, ∀ own, candidate.type.className? = some own →
      (JavaType.classType candidate.type.annotations own, candidate.ancestry) ∈ classColumn candidates :=
    fun candidate member own named => mem_classColumn.mpr ⟨candidate, member, own, named, rfl⟩
  obtain ⟨entry, inside⟩ := Choices.exists_mem_of_found found
  obtain ⟨first, _, firstName, _, rfl⟩ := mem_classColumn.mp inside
  rcases (Choices.fits_ofCandidates found).best best with equal | bounded
  · refine ⟨_, _, (equal _ inside).symm, fun candidate member own named => ?_⟩
    have same := (equal _ (classes candidate member own named)).trans (equal _ inside).symm
    simp only [JavaType.classType.injEq] at same
    exact ⟨same.1, Or.inl same.2.symm⟩
  · obtain ⟨name, named⟩ : ∃ name, type = .classType type.annotations name := by
      rcases (bounded _ inside).2 with same | ⟨_, above, _, same, _⟩
      · exact ⟨firstName, JavaType.eq_classType_of_bare same.symm⟩
      · exact ⟨above, same⟩
    refine ⟨_, _, named, fun candidate member own class_name => ?_⟩
    obtain ⟨labeled, below⟩ := bounded _ (classes candidate member own class_name)
    refine ⟨labeled, ?_⟩
    rw [named] at below
    rcases below with same | ⟨below, above, first, last, _, included, equal, listed⟩
    · cases same
      exact Or.inl rfl
    · obtain ⟨_, rfl⟩ := JavaType.classType.inj first
      obtain ⟨_, rfl⟩ := JavaType.classType.inj last
      obtain ⟨other, present, otherName, otherNamed, rfl⟩ := mem_classColumn.mp included
      obtain ⟨alike, rfl⟩ := JavaType.classType.inj equal
      exact Or.inr ⟨other, present, ⟨otherNamed, alike.trans labeled⟩, listed⟩

theorem argument_bound {candidates : List ReturnType} {position : Nat} {argument : JavaType}
    (present : ∀ candidate ∈ candidates, position < candidate.type.arguments.length)
    (found : columnArgument? candidates position = some argument) :
    ArgumentBound candidates position argument := by
  obtain ⟨choices, left, best⟩ := Option.bind_eq_some_iff.mp found
  have entries : ∀ candidate ∈ candidates, ∃ own, candidate.type.arguments[position]? = some own ∧
      (own, candidate.ancestry) ∈ argumentColumn candidates position := by
    intro candidate member
    have own := List.getElem?_eq_getElem (present candidate member)
    exact ⟨_, own, mem_argumentColumn.mpr ⟨candidate, member, _, own, rfl⟩⟩
  rcases (Choices.fits_ofCandidates left).bestArgument best with equal | ⟨bound, rfl, bounded⟩
  · refine .unchanged fun candidate member => ?_
    obtain ⟨own, here, inside⟩ := entries candidate member
    exact (equal _ inside) ▸ here
  · refine .narrowed fun candidate member => ?_
    obtain ⟨own, here, inside⟩ := entries candidate member
    obtain ⟨labeled, below⟩ := bounded _ inside
    refine ⟨own, here, labeled, ?_⟩
    rcases below with same | ⟨below, above, first, last, entry, included, equal, listed⟩
    · exact Or.inl same
    · obtain ⟨other, member, argument, there, rfl⟩ := mem_argumentColumn.mp included
      cases equal
      exact Or.inr ⟨below, above, first, last, other, member, there, listed⟩

theorem plainBound_of_commonClass? {candidates : List ReturnType} {type : JavaType}
    (found : commonClass? candidates = some type) :
    (∀ candidate ∈ candidates, candidate.type.shape = .plainClass) ∧ PlainBound candidates type := by
  by_cases plain : ∀ candidate ∈ candidates, candidate.type.shape = .plainClass
  · rw [commonClass?_of_plain plain] at found
    obtain ⟨choices, left, best⟩ := Option.bind_eq_some_iff.mp found
    obtain ⟨annotations, name, rfl, bound⟩ := class_bound left best
    refine ⟨plain, annotations, name, rfl, fun candidate member => ?_⟩
    obtain ⟨own, same⟩ := JavaType.eq_classType (plain candidate member)
    obtain ⟨labeled, below⟩ := bound candidate member own (by rw [same]; rfl)
    rw [labeled] at same
    refine ⟨own, same, below.imp id ?_⟩
    rintro ⟨other, present, ⟨class_name, labeled⟩, listed⟩
    obtain ⟨otherName, otherSame⟩ := JavaType.eq_classType (plain other present)
    rw [otherSame] at class_name
    cases class_name
    have equal : other.type = candidate.type := by rw [same, otherSame, labeled]
    exact ⟨other, present, equal, listed⟩
  · rw [commonClass?_of_mixed plain] at found
    cases found

theorem genericBound_of_commonParameterized? {count : Nat} {candidates : List ReturnType} {type : JavaType}
    (found : commonParameterized? count candidates = some type) :
    Generic count candidates ∧ GenericBound candidates type := by
  by_cases generic : Generic count candidates
  · obtain ⟨choices, arguments, annotations, raw, left, columns, best, rfl⟩ := exists_columns generic found
    obtain ⟨_, _, same, bound⟩ := class_bound left best
    cases same
    have length : arguments.length = count := by
      simpa using (congrArg List.length (ListEffects.mapM_eq_some.mp columns)).symm
    refine ⟨generic, annotations, raw, arguments, rfl, fun candidate member => ?_, ?_⟩
    · obtain ⟨own, same⟩ := JavaType.eq_parameterized (generic candidate member).1
      obtain ⟨labeled, below⟩ := bound candidate member own (by rw [same]; rfl)
      rw [labeled] at same
      refine ⟨own, _, same, (generic candidate member).2.trans length.symm, below.imp id ?_⟩
      rintro ⟨other, present, ⟨class_name, _⟩, listed⟩
      exact ⟨other, present, class_name, listed⟩
    · intro position argument here
      obtain ⟨inside, column⟩ := ListEffects.getElem?_of_mapM_range columns here
      exact argument_bound (fun candidate member => (generic candidate member).2 ▸ inside) column
  · rw [commonParameterized?_of_mixed generic] at found
    cases found

/-- A common type bounds its candidates in the way that their shape asks for. -/
inductive Bound (candidates : List ReturnType) (type : JavaType) : Prop
  | other (shape : type.shape = .other) (equal : ∀ candidate ∈ candidates, candidate.type = type)
  | plainClass (plain : ∀ candidate ∈ candidates, candidate.type.shape = .plainClass)
      (bound : PlainBound candidates type)
  | parameterized (count : Nat) (generic : Generic count candidates) (bound : GenericBound candidates type)

theorem bound_of_commonType? {candidates : List ReturnType} {type : JavaType}
    (found : commonType? candidates = some type) : Bound candidates type := by
  cases candidates with
  | nil => cases found
  | cons first rest =>
    obtain ⟨firstType, ancestry⟩ := first
    cases firstType
    case classType =>
      obtain ⟨plain, bound⟩ := plainBound_of_commonClass? found
      exact .plainClass plain bound
    case parameterized =>
      obtain ⟨generic, bound⟩ := genericBound_of_commonParameterized? found
      exact .parameterized _ generic bound
    all_goals
      simp only [commonType?, Option.ite_none_right_eq_some, List.all_eq_true, decide_eq_true_eq,
        Option.some.injEq] at found
      obtain ⟨equal, rfl⟩ := found
      exact .other rfl (List.forall_mem_cons.mpr ⟨rfl, equal⟩)

/-- What a type must be to be returned for all candidates. -/
structure IsUpperBound (candidates : List ReturnType) (type : JavaType) : Prop where
  other : (∃ candidate ∈ candidates, candidate.type.shape = .other) →
    ∀ candidate ∈ candidates, candidate.type = type
  plainClass : (∃ candidate ∈ candidates, candidate.type.shape = .plainClass) → PlainBound candidates type
  parameterized : (∃ candidate ∈ candidates, candidate.type.shape = .parameterized) →
    GenericBound candidates type

/-- Whatever the candidates are and know, their common type is an upper bound of them. -/
theorem common?_isUpperBound (candidates : List ReturnType) (result : ReturnType)
    (found : common? candidates = some result) : IsUpperBound candidates result.type := by
  obtain ⟨type, common, rfl⟩ := Option.map_eq_some_iff.mp found
  cases bound_of_commonType? common with
  | other shape equal =>
    have only : ∀ wanted, (∃ candidate ∈ candidates, candidate.type.shape = wanted) → wanted = .other := by
      rintro _ ⟨candidate, member, rfl⟩
      rw [equal candidate member, shape]
    exact ⟨fun _ => equal, fun some => (nomatch only _ some), fun some => (nomatch only _ some)⟩
  | plainClass plain bound =>
    have only : ∀ wanted, (∃ candidate ∈ candidates, candidate.type.shape = wanted) → wanted = .plainClass := by
      rintro _ ⟨candidate, member, rfl⟩
      exact plain candidate member
    exact ⟨fun some => (nomatch only _ some), fun _ => bound, fun some => (nomatch only _ some)⟩
  | parameterized count generic bound =>
    have only : ∀ wanted, (∃ candidate ∈ candidates, candidate.type.shape = wanted) → wanted = .parameterized := by
      rintro _ ⟨candidate, member, rfl⟩
      exact (generic candidate member).1
    exact ⟨fun some => (nomatch only _ some), fun some => (nomatch only _ some), fun _ => bound⟩

/-- Lists of `A` twice, and a list of what extends `D`. The second one knows no supertypes, which are not
asked for since its type was seen before. -/
def mixedLists : List ReturnType :=
  let name := ClassName.topLevel "p"
  let list (argument : JavaType) : JavaType := .parameterized [] (.topLevel "java.util" "List") [argument]
  [⟨list (.ofClass (name "A")), .ofTable (.ofList [(name "A", [name "B", name "C"])])⟩,
    ⟨list (.ofClass (name "A")), .empty⟩,
    ⟨list (.wildcardExtends [] (.ofClass (name "D"))), .ofTable (.ofList [(name "D", [name "C"])])⟩]

theorem isUpperBound_mixedLists :
    ∃ result, common? mixedLists = some result ∧
      result.type = .parameterized [] (.topLevel "java.util" "List")
        [.wildcardExtends [] (.ofClass (.topLevel "p" "C"))] ∧
      IsUpperBound mixedLists result.type :=
  ⟨_, rfl, rfl, common?_isUpperBound mixedLists _ rfl⟩

end ReturnType

end TypedTree
