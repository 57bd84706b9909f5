import TypedTree.CommonType

/-! The parts of a type that its common types with others depend on. -/

namespace TypedTree.Java

inductive Shape where
  | plainClass
  | parameterized
  /-- Primitives, arrays, wildcards and type variables. -/
  | other
deriving DecidableEq, Repr

namespace JavaType

def shape : JavaType → Shape
  | classType _ _ => .plainClass
  | parameterized _ _ _ => .parameterized
  | _ => .other

def className? : JavaType → Option ClassName
  | classType _ name => some name
  | parameterized _ raw _ => some raw
  | _ => none

def arguments : JavaType → List JavaType
  | parameterized _ _ arguments => arguments
  | _ => []

/-- The classes by which types are compared: that of a plain class, and those of the arguments. -/
def openings : JavaType → List JavaType
  | classType _ name => [.ofClass name]
  | parameterized _ _ arguments => arguments.map fun argument => argument.unwrapped.bare
  | _ => []

theorem eq_classType {type : JavaType} (plain : type.shape = .plainClass) :
    ∃ name, type = .classType type.annotations name := by
  cases type <;> simp [shape] at plain
  exact ⟨_, rfl⟩

theorem eq_parameterized {type : JavaType} (generic : type.shape = .parameterized) :
    ∃ raw, type = .parameterized type.annotations raw type.arguments := by
  cases type <;> simp [shape] at generic
  exact ⟨_, rfl⟩

theorem className?_of_other {type : JavaType} (other : type.shape = .other) : type.className? = none := by
  cases type <;> first | rfl | exact nomatch other

theorem exists_className {type : JavaType} (named : type.shape ≠ .other) : ∃ name, type.className? = some name := by
  cases type <;> first | exact ⟨_, rfl⟩ | exact absurd rfl named

@[simp] theorem annotations_bare (type : JavaType) : type.bare.annotations = [] := by
  cases type <;> rfl

theorem bare_eq_self {type : JavaType} (plain : type.annotations = []) : type.bare = type := by
  cases type <;> simp_all [bare, mapAnnotations, annotations]

theorem annotations_annotate {type : JavaType} (plain : type.annotations = []) (labels : List ClassName) :
    (type.annotate labels).annotations = labels := by
  cases type <;> simp_all [annotate, mapAnnotations, annotations]

theorem bare_annotate (type : JavaType) (labels : List ClassName) : (type.annotate labels).bare = type.bare := by
  cases type <;> rfl

theorem eq_classType_of_bare {type : JavaType} {labels : List ClassName} {name : ClassName}
    (same : type.bare = .classType labels name) : type = .classType type.annotations name := by
  cases type <;> simp_all [bare, mapAnnotations, annotations]

end JavaType

namespace Ancestry

/-- An ancestry lists a class among the supertypes of another one. -/
def Lists (ancestry : Ancestry) (below above : ClassName) : Prop :=
  ∃ supertypes, ancestry.supertypes? below = some supertypes ∧ above ∈ supertypes

/-- The listed supertypes of a class; none if the class is not known. -/
def above (ancestry : Ancestry) (name : ClassName) : List ClassName := (ancestry.supertypes? name).getD []

theorem mem_above {ancestry : Ancestry} {below name : ClassName} :
    name ∈ ancestry.above below ↔ ancestry.Lists below name := by
  unfold above Lists
  cases ancestry.supertypes? below <;> simp

theorem choices_classType (ancestry : Ancestry) (labels : List ClassName) (name : ClassName) :
    ancestry.choices (.classType labels name) =
      .classType labels name :: (ancestry.above name).map JavaType.ofClass := rfl

/-- A type may be replaced with itself and, if it is a class, with the supertypes of that class. -/
theorem mem_choices {ancestry : Ancestry} {base type : JavaType} :
    type ∈ ancestry.choices base ↔
      type = base ∨ ∃ labels below above, base = .classType labels below ∧ ancestry.Lists below above ∧
        type = .ofClass above := by
  cases base with
  | classType labels below =>
    simp only [choices_classType, List.mem_cons, List.mem_map, mem_above, JavaType.classType.injEq]
    constructor
    · rintro (same | ⟨name, listed, same⟩)
      · exact Or.inl same
      · exact Or.inr ⟨labels, below, name, ⟨rfl, rfl⟩, listed, same.symm⟩
    · rintro (same | ⟨_, _, name, ⟨rfl, rfl⟩, listed, same⟩)
      · exact Or.inl same
      · exact Or.inr ⟨name, listed, same.symm⟩
  | _ => simp [choices]

theorem annotations_of_mem_choices {ancestry : Ancestry} {base type : JavaType}
    (plain : base.annotations = []) (allowed : type ∈ ancestry.choices base) : type.annotations = [] := by
  rcases mem_choices.mp allowed with rfl | ⟨_, _, _, _, _, rfl⟩
  · exact plain
  · rfl

end Ancestry

end TypedTree.Java
