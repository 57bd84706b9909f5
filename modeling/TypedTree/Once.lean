/-!
Values that are computed when they are first asked for. The computation runs on a state, such as a count
of its runs, and its value is kept.
-/

namespace TypedTree

structure Once (α : Type) where
  value : Option α
deriving DecidableEq, Repr

namespace Once

def pending : Once α := ⟨none⟩

def isComputed (once : Once α) : Bool := once.value.isSome

/-- The value, and what is kept for the next time. -/
def get {σ α : Type} (once : Once α) (compute : σ → α × σ) (state : σ) : α × Once α × σ :=
  match once.value with
  | some value => (value, once, state)
  | none =>
    let (value, state) := compute state
    (value, ⟨some value⟩, state)

/-- Nothing is computed any more, and the kept value does not depend on later computations. -/
theorem get_of_isComputed {σ α : Type} {once : Once α} (computed : once.isComputed = true) :
    ∃ value, ∀ (compute : σ → α × σ) (state : σ), once.get compute state = (value, once, state) := by
  obtain ⟨value, kept⟩ := Option.isSome_iff_exists.mp computed
  exact ⟨value, fun compute state => by simp only [get, kept]⟩

end Once

end TypedTree
