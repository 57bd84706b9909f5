import TypedTree.Table

/-!
Dependency order: every element comes before the elements that it references. The elements are walked
depth first, and each is put in front of those that were finished before it.
-/

namespace TypedTree.Order

/-- What becomes of references to elements that are not to be ordered. -/
inductive Strangers where
  /-- They are ordered too, and their own references are followed. -/
  | add
  | ignore
  | refuse
deriving DecidableEq, Repr

/-- A reference that leads outside the elements to be ordered. -/
structure StrangeReference (α : Type) where
  source : α
  target : α
deriving DecidableEq, Repr

variable {α : Type} [DecidableEq α]

/-- What references what. Elements outside `domain` reference nothing. -/
structure References (α : Type) where
  domain : List α
  targets : α → List α
  outside : ∀ x, x ∉ domain → targets x = []

/-- The references that a table lists. -/
def References.ofTable (table : Table α (List α)) : References α where
  domain := table.keys
  targets x := (table.get? x).getD []
  outside x absent := by rw [Table.get?_eq_none absent]; rfl

structure Walk (α : Type) where
  entered : List α
  /-- Elements whose references were all walked, the last one first. -/
  finished : List α

/-- Walks an element, unless it was entered before. The number bounds the depth of the walk; it never
runs out if it exceeds the number of elements of the domain that were not entered. -/
def Walk.visit (references : References α) (strangers : Strangers) (known : List α) :
    Nat → Walk α → α → Except (StrangeReference α) (Walk α)
  | 0, walk, _ => .ok walk
  | depth + 1, walk, x =>
    if x ∈ walk.entered then .ok walk
    else do
      let walked ← (references.targets x).foldlM (fun (walk : Walk α) (y : α) =>
          match strangers with
          | .add => walk.visit references strangers known depth y
          | .ignore =>
            if y ∈ known then walk.visit references strangers known depth y else .ok walk
          | .refuse =>
            if y ∈ known then walk.visit references strangers known depth y else .error ⟨x, y⟩)
        { walk with entered := x :: walk.entered }
      return { walked with finished := x :: walked.finished }

/-- Orders `elements`. Elements that do not depend on each other come out in reverse, and elements of
a cycle in the order in which they were entered. -/
def sort (references : References α) (strangers : Strangers) (elements : List α) :
    Except (StrangeReference α) (List α) := do
  let depth := references.domain.length + 1
  let walk ← elements.foldlM
    (fun (walk : Walk α) (x : α) => walk.visit references strangers elements depth x) ⟨[], []⟩
  return walk.finished

end TypedTree.Order
