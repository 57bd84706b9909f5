import Mathlib.Data.List.Basic
import TypedTree.Proofs.ChoiceNarrowing
import TypedTree.Proofs.ListEffects

/-! Common types by columns: the raw classes of all candidates are one column, and the arguments at each
position are another one. Each column is narrowed by itself. -/

namespace TypedTree.ReturnType

open Java (ClassName JavaType Ancestry Shape)

def classColumn (candidates : List ReturnType) : List (JavaType × Ancestry) :=
  candidates.filterMap fun candidate =>
    candidate.type.className?.map fun name => (.classType candidate.type.annotations name, candidate.ancestry)

def argumentColumn (candidates : List ReturnType) (position : Nat) : List (JavaType × Ancestry) :=
  candidates.filterMap fun candidate =>
    candidate.type.arguments[position]?.map fun argument => (argument, candidate.ancestry)

/-- The common argument at a position of candidates that all have one there. -/
def columnArgument? (candidates : List ReturnType) (position : Nat) : Option JavaType :=
  (Choices.ofCandidates (argumentColumn candidates position)).bind Choices.bestArgument?

/-- Candidates that are all parameterized, with the same number of arguments. -/
def Generic (count : Nat) (candidates : List ReturnType) : Prop :=
  ∀ candidate ∈ candidates, candidate.type.shape = .parameterized ∧ candidate.type.arguments.length = count

theorem isClass_iff {candidate : ReturnType} : candidate.isClass = true ↔ candidate.type.shape = .plainClass := by
  obtain ⟨type, ancestry⟩ := candidate
  cases type <;> simp [isClass, JavaType.shape]

theorem commonClass?_of_plain {candidates : List ReturnType}
    (plain : ∀ candidate ∈ candidates, candidate.type.shape = .plainClass) :
    commonClass? candidates = (Choices.ofCandidates (classColumn candidates)).bind Choices.best? := by
  have all : candidates.all isClass = true :=
    List.all_eq_true.mpr fun candidate member => isClass_iff.mpr (plain candidate member)
  have column : candidates.map (fun candidate => (candidate.type, candidate.ancestry)) = classColumn candidates := by
    rw [classColumn, ← List.filterMap_eq_map]
    apply List.filterMap_congr
    intro candidate member
    obtain ⟨name, same⟩ := JavaType.eq_classType (plain candidate member)
    rw [Function.comp_apply, same]
    rfl
  rw [commonClass?, ListEffects.guard_bind all, column]
  rfl

theorem commonClass?_of_mixed {candidates : List ReturnType}
    (mixed : ¬ ∀ candidate ∈ candidates, candidate.type.shape = .plainClass) : commonClass? candidates = none := by
  have failed : ¬ candidates.all isClass = true := fun all =>
    mixed fun candidate member => isClass_iff.mp (List.all_eq_true.mp all candidate member)
  exact ListEffects.not_guard_bind failed _

theorem parts?_of_parameterized {candidate : ReturnType} (generic : candidate.type.shape = .parameterized) :
    ∃ name, candidate.type.className? = some name ∧
      candidate.parts? =
        some ⟨.classType candidate.type.annotations name, candidate.type.arguments, candidate.ancestry⟩ := by
  obtain ⟨type, ancestry⟩ := candidate
  cases type <;> simp [JavaType.shape] at generic
  exact ⟨_, rfl, rfl⟩

theorem parts?_eq_some {candidate : ReturnType} {row : Parts} (parts : candidate.parts? = some row) :
    candidate.type.shape = .parameterized ∧ row.arguments = candidate.type.arguments := by
  obtain ⟨type, ancestry⟩ := candidate
  cases type <;> simp [parts?] at parts
  subst parts
  exact ⟨rfl, rfl⟩

variable {count : Nat} {candidates : List ReturnType}

private theorem mapM_parts? (generic : Generic count candidates) :
    candidates.mapM parts? = some (candidates.filterMap parts?) := by
  apply ListEffects.mapM_of_defined
  intro candidate member absent
  obtain ⟨name, _, parts⟩ := parts?_of_parameterized (generic candidate member).1
  rw [absent] at parts
  cases parts

private theorem raw_column (generic : Generic count candidates) :
    (candidates.filterMap parts?).map (fun row => (row.raw, row.ancestry)) = classColumn candidates := by
  rw [List.map_filterMap, classColumn]
  apply List.filterMap_congr
  intro candidate member
  obtain ⟨name, class_name, parts⟩ := parts?_of_parameterized (generic candidate member).1
  rw [parts, class_name]
  rfl

private theorem length_of_mem_parts (generic : Generic count candidates) {row : Parts}
    (member : row ∈ candidates.filterMap parts?) : row.arguments.length = count := by
  obtain ⟨candidate, inside, parts⟩ := List.mem_filterMap.mp member
  rw [(parts?_eq_some parts).2, (generic candidate inside).2]

private theorem commonArgument?_of_generic (generic : Generic count candidates) {position : Nat}
    (inside : position < count) :
    commonArgument? (candidates.filterMap parts?) position = columnArgument? candidates position := by
  have defined : (candidates.filterMap parts?).mapM (fun row => row.arguments[position]?.map (·, row.ancestry)) =
      some (argumentColumn candidates position) := by
    rw [ListEffects.mapM_of_defined, List.filterMap_filterMap, argumentColumn]
    · congr 1
      apply List.filterMap_congr
      intro candidate member
      obtain ⟨name, _, parts⟩ := parts?_of_parameterized (generic candidate member).1
      rw [parts]
      rfl
    · intro row member
      have bound : position < row.arguments.length := (length_of_mem_parts generic member).symm ▸ inside
      simp [bound]
  simp only [commonArgument?, defined]
  rfl

/-- The arguments that go with a raw class. -/
def withArguments (arguments : List JavaType) : JavaType → Option JavaType
  | .classType annotations name => some (.parameterized annotations name arguments)
  | _ => none

theorem commonParameterized?_of_generic (generic : Generic count candidates) :
    commonParameterized? count candidates =
      (Choices.ofCandidates (classColumn candidates)).bind fun raw =>
        ((List.range count).mapM (columnArgument? candidates)).bind fun arguments =>
          raw.best?.bind (withArguments arguments) := by
  have lengths : (candidates.filterMap parts?).all (fun row => row.arguments.length = count) = true :=
    List.all_eq_true.mpr fun row member => decide_eq_true (length_of_mem_parts generic member)
  have columns : (List.range count).mapM (commonArgument? (candidates.filterMap parts?)) =
      (List.range count).mapM (columnArgument? candidates) :=
    ListEffects.mapM_congr fun position inside => commonArgument?_of_generic generic (List.mem_range.mp inside)
  rw [commonParameterized?, mapM_parts? generic, Option.bind_eq_bind, Option.bind_some,
    ListEffects.guard_bind lengths, raw_column generic, columns]
  rfl

theorem exists_columns {type : JavaType} (generic : Generic count candidates)
    (found : commonParameterized? count candidates = some type) :
    ∃ choices arguments annotations raw,
      Choices.ofCandidates (classColumn candidates) = some choices ∧
      (List.range count).mapM (columnArgument? candidates) = some arguments ∧
      choices.best? = some (.classType annotations raw) ∧ type = .parameterized annotations raw arguments := by
  rw [commonParameterized?_of_generic generic] at found
  obtain ⟨choices, left, rest⟩ := Option.bind_eq_some_iff.mp found
  obtain ⟨arguments, columns, rest⟩ := Option.bind_eq_some_iff.mp rest
  obtain ⟨class_type, best, joined⟩ := Option.bind_eq_some_iff.mp rest
  cases class_type with
  | classType annotations raw =>
    cases joined
    exact ⟨choices, arguments, annotations, raw, left, columns, best, rfl⟩
  | _ => cases joined

theorem commonParameterized?_of_mixed (mixed : ¬ Generic count candidates) :
    commonParameterized? count candidates = none := by
  cases found : candidates.mapM parts? with
  | none =>
    rw [commonParameterized?, found]
    rfl
  | some rows =>
    have failed : ¬ rows.all (fun row => row.arguments.length = count) = true := by
      intro lengths
      apply mixed
      intro candidate member
      have present : candidate.parts? ∈ rows.map some := by
        rw [← ListEffects.mapM_eq_some.mp found]
        exact List.mem_map_of_mem member
      obtain ⟨row, inside, parts⟩ := List.mem_map.mp present
      obtain ⟨generic, same⟩ := parts?_eq_some parts.symm
      exact ⟨generic, same ▸ of_decide_eq_true (List.all_eq_true.mp lengths row inside)⟩
    rw [commonParameterized?, found, Option.bind_eq_bind, Option.bind_some]
    exact ListEffects.not_guard_bind failed _

theorem commonType?_of_plain {candidates : List ReturnType}
    (plain : ∀ candidate ∈ candidates, candidate.type.shape = .plainClass) :
    commonType? candidates = commonClass? candidates := by
  cases candidates with
  | nil => rfl
  | cons first rest =>
    obtain ⟨name, same⟩ := JavaType.eq_classType (plain first List.mem_cons_self)
    rw [commonType?, same]

theorem commonType?_of_generic (generic : Generic count candidates) :
    commonType? candidates = commonParameterized? count candidates := by
  cases candidates with
  | nil => rfl
  | cons first rest =>
    obtain ⟨shape, length⟩ := generic first List.mem_cons_self
    obtain ⟨raw, same⟩ := JavaType.eq_parameterized shape
    rw [commonType?, same, ← length]

end TypedTree.ReturnType
