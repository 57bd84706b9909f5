import TypedTree.Method

/-!
The most specific type that several return types have in common. Classes narrow to a shared ancestor,
type arguments narrow one by one to a wildcard, and types of other shapes must be equal.
-/

namespace TypedTree

open Java (ClassName JavaType Ancestry)

/-- Drops a wildcard that only bounds its type from above. -/
def Java.JavaType.unwrapped : JavaType → JavaType
  | .wildcardExtends [] bound => bound
  | type => type

/-- What a type without annotations may be replaced with: itself, and for a class its supertypes. -/
def Java.Ancestry.choices (ancestry : Ancestry) (type : JavaType) : List JavaType :=
  type ::
    match type with
    | .classType _ name => ((ancestry.supertypes? name).getD []).map JavaType.ofClass
    | _ => []

/-- The types that remain possible after some candidates. -/
inductive Choices where
  /-- All candidates were this type. -/
  | same (type : JavaType) (ancestry : Ancestry)
  /-- Common ancestors, the most specific ones first; the annotations belong to each of them. -/
  | narrowed (types : List JavaType) (annotations : List ClassName)

namespace Choices

/-- The choices for one type, without wildcard and annotations, and its annotations. -/
def opened : Choices → List JavaType × List ClassName
  | same type ancestry => (ancestry.choices type.unwrapped.bare, type.unwrapped.annotations)
  | narrowed types annotations => (types, annotations)

/-- Whether a candidate changes nothing because all candidates before it were the same type. -/
def isSame (choices : Choices) (type : JavaType) : Bool :=
  match choices with
  | same seen _ => seen = type
  | narrowed _ _ => false

/-- Takes in one more candidate. Annotations have to be equal. -/
def narrow (choices : Choices) (type : JavaType) (ancestry : Ancestry) : Option Choices :=
  if choices.isSame type then some choices
  else
    let (types, annotations) := choices.opened
    let allowed := ancestry.choices type.unwrapped.bare
    let common := types.filter (· ∈ allowed)
    if annotations ≠ type.unwrapped.annotations ∨ common.isEmpty then none
    else some (narrowed common annotations)

/-- The choices that several candidates leave. -/
def ofCandidates : List (JavaType × Ancestry) → Option Choices
  | [] => none
  | (type, ancestry) :: rest =>
    rest.foldlM (fun choices (type, ancestry) => choices.narrow type ancestry) (same type ancestry)

def best? : Choices → Option JavaType
  | same type _ => some type
  | narrowed types annotations => types.head?.map (·.annotate annotations)

/-- The best choice as a type argument. A narrowed argument is a bound only. -/
def bestArgument? : Choices → Option JavaType
  | same type _ => some type
  | narrowed types annotations =>
    types.head?.map fun type => .wildcardExtends [] (type.annotate annotations)

end Choices

namespace ReturnType

def isClass (candidate : ReturnType) : Bool :=
  match candidate.type with
  | .classType _ _ => true
  | _ => false

/-- A parameterized candidate in parts. The annotations belong to the raw type. -/
structure Parts where
  raw : JavaType
  arguments : List JavaType
  ancestry : Ancestry

def parts? (candidate : ReturnType) : Option Parts :=
  match candidate.type with
  | .parameterized annotations raw arguments =>
    some ⟨.classType annotations raw, arguments, candidate.ancestry⟩
  | _ => none

def commonClass? (candidates : List ReturnType) : Option JavaType := do
  guard (candidates.all isClass)
  let choices ← Choices.ofCandidates (candidates.map fun candidate => (candidate.type, candidate.ancestry))
  choices.best?

def commonArgument? (rows : List Parts) (position : Nat) : Option JavaType := do
  let column ← rows.mapM fun row => (row.arguments[position]?).map (·, row.ancestry)
  let choices ← Choices.ofCandidates column
  choices.bestArgument?

/-- The common type of candidates that all have the same number of type arguments. -/
def commonParameterized? (count : Nat) (candidates : List ReturnType) : Option JavaType := do
  let rows ← candidates.mapM parts?
  guard (rows.all (·.arguments.length = count))
  let raw ← Choices.ofCandidates (rows.map fun row => (row.raw, row.ancestry))
  let arguments ← (List.range count).mapM (commonArgument? rows)
  match ← raw.best? with
  | .classType annotations name => return .parameterized annotations name arguments
  | _ => none

/-- The shape of the first candidate decides what is looked for. -/
def commonType? : List ReturnType → Option JavaType
  | [] => none
  | first :: rest =>
    match first.type with
    | .classType _ _ => commonClass? (first :: rest)
    | .parameterized _ _ arguments => commonParameterized? arguments.length (first :: rest)
    | other => if rest.all (·.type = other) then some other else none

/-- The most specific type that every candidate can be returned as. What the candidates know of
supertypes goes with it, so that it can be a candidate itself. -/
def common? (candidates : List ReturnType) : Option ReturnType :=
  (commonType? candidates).map (⟨·, Ancestry.collect (candidates.map (·.ancestry))⟩)

end ReturnType

end TypedTree
