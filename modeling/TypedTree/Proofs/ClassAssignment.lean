import TypedTree.Naming.Names
import TypedTree.Proofs.ListEffects

/-! No two node types share a class. -/

namespace TypedTree.Naming

variable {scheme : Scheme} {types : List String}

private theorem exists_owners {owners classes result : ClassTable}
    (owned : ∀ type name, classes.get? type = some name → owners.get? name = some type)
    (run : assignClasses scheme owners classes types = .ok result) :
    ∃ owners : ClassTable, ∀ type name, result.get? type = some name → owners.get? name = some type := by
  induction types generalizing owners classes with
  | nil =>
    cases run
    exact ⟨owners, owned⟩
  | cons first types ih =>
    rw [assignClasses] at run
    split at run
    next => cases run
    next free =>
      refine ih ?_ run
      intro type name found
      rw [Table.get?_insert] at found ⊢
      split at found
      next same =>
        cases found
        rw [if_pos rfl, same]
      next =>
        have other : scheme.className first ≠ name := by
          intro same
          rw [same, owned type name found] at free
          cases free
        rw [if_neg other, owned type name found]

theorem className_eq_ok {names : Names} {type name : String} (run : names.className type = .ok name) :
    ∃ classes, names.classes = .ok classes ∧ classes.get? type = some name := by
  rw [Names.className] at run
  split at run
  next => cases run
  next classes assigned =>
    split at run
    next => cases run
    next found =>
      rw [Names.typeName] at run
      split at run
      next => cases run
      next =>
        cases run
        exact ⟨classes, assigned, found⟩

theorem className_injective {name one other : String} (first : (Names.forTypes scheme types).className one = .ok name)
    (second : (Names.forTypes scheme types).className other = .ok name) : one = other := by
  obtain ⟨classes, assigned, found⟩ := className_eq_ok first
  obtain ⟨again, assignedAgain, foundAgain⟩ := className_eq_ok second
  cases assigned.symm.trans assignedAgain
  have none : ∀ type name, (Table.empty : ClassTable).get? type = some name →
      (Table.empty : ClassTable).get? name = some type := by
    intro type name found
    cases found
  obtain ⟨owners, owned⟩ := exists_owners none assigned
  exact Option.some.inj ((owned one name found).symm.trans (owned other name foundAgain))

end TypedTree.Naming
