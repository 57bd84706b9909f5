import Mathlib.Logic.Equiv.Defs
import TypedTree.Proofs.HoistingRuns

/-! Hoisting does not depend on how the types are numbered. Nor does it matter at which time the results of
an interface are looked at, as long as those of the interfaces below it are known. -/

namespace TypedTree.Hoisting

/-- The same types under other numbers. The supertypes may come in another order. -/
structure Renumbered (rename : TypeId ≃ TypeId) (graph other : TypeGraph) : Prop where
  kind : ∀ id, (other.node (rename id)).kind = (graph.node id).kind
  methods : ∀ id, (other.node (rename id)).methods = (graph.node id).methods
  common : ∀ id, (other.node (rename id)).common = (graph.node id).common
  subtypes : ∀ id, (other.node (rename id)).subtypes = (graph.node id).subtypes.map rename
  supertypes : ∀ id above, rename above ∈ (other.node (rename id)).supertypes ↔ above ∈ (graph.node id).supertypes

variable {rename : TypeId ≃ TypeId} {graph other : TypeGraph} {hoisted renamed final : Hoisted}

theorem Renumbered.refl (graph : TypeGraph) : Renumbered (Equiv.refl TypeId) graph graph :=
  ⟨fun _ => rfl, fun _ => rfl, fun _ => rfl, fun _ => (List.map_id _).symm, fun _ _ => Iff.rfl⟩

theorem Renumbered.mem_interfaces (same : Renumbered rename graph other) {id : TypeId} :
    rename id ∈ other.interfaces ↔ id ∈ graph.interfaces := by
  rw [TypeGraph.mem_interfaces, TypeGraph.mem_interfaces, same.kind]

theorem Renumbered.interfaceBelow (same : Renumbered rename graph other) {above below : TypeId} :
    other.InterfaceBelow (rename above) (rename below) ↔ graph.InterfaceBelow above below := by
  rw [TypeGraph.InterfaceBelow, TypeGraph.InterfaceBelow, TypeGraph.mem_subInterfaces, TypeGraph.mem_subInterfaces,
    same.mem_interfaces, same.subtypes, List.mem_map_of_injective rename.injective]

theorem Renumbered.acyclic (same : Renumbered rename graph other) (acyclic : Acyclic graph) : Acyclic other := by
  intro interface inside cycle
  obtain ⟨id, rfl⟩ := rename.surjective interface
  refine acyclic id (same.mem_interfaces.mp inside) ?_
  have back : ∀ above below, other.InterfaceBelow above below →
      graph.InterfaceBelow (rename.symm above) (rename.symm below) := by
    intro above below step
    refine same.interfaceBelow.mp ?_
    simpa using step
  simpa [Function.onFun] using cycle.lift rename.symm back

theorem Renumbered.atOrAbove (same : Renumbered rename graph other) {id type : TypeId} :
    Relation.ReflTransGen other.Above (rename id) (rename type) ↔ Relation.ReflTransGen graph.Above id type := by
  constructor
  · intro path
    have back : ∀ below above, other.Above below above → graph.Above (rename.symm below) (rename.symm above) := by
      intro below above step
      refine (same.supertypes _ _).mp ?_
      simpa [TypeGraph.Above] using step
    simpa [Function.onFun] using path.lift rename.symm back
  · exact fun path => path.lift rename fun below above step => (same.supertypes below above).mpr step

private theorem offeredBy_renumbered (same : Renumbered rename graph other) {type : TypeId}
    (known : renamed.get? (rename type) = hoisted.get? type) :
    offeredBy other renamed (rename type) = offeredBy graph hoisted type := by
  rw [offeredBy, offeredBy, same.methods, known]

private theorem candidatesFrom_renumbered (same : Renumbered rename graph other) {candidates result : Option Candidates}
    {subtypes : List TypeId} (known : ∀ type ∈ subtypes, renamed.get? (rename type) = hoisted.get? type)
    (run : candidatesFrom graph hoisted candidates subtypes = .ok result) :
    candidatesFrom other renamed candidates (subtypes.map rename) = .ok result := by
  induction subtypes generalizing candidates with
  | nil => exact run
  | cons subtype subtypes ih =>
    obtain ⟨here, others⟩ := List.forall_mem_cons.mp known
    obtain ⟨offers, distinct, entries, run⟩ := candidatesFrom_cons_eq_ok.mp run
    rw [List.map_cons, candidatesFrom_cons_eq_ok, offeredBy_renumbered same here]
    exact ⟨offers, distinct, entries, run.imp_right (And.imp_right (ih others))⟩

theorem commonMethods_renumbered (same : Renumbered rename graph other) {interface : TypeId} {methods : List Method}
    (known : ∀ type ∈ (graph.node interface).subtypes, renamed.get? (rename type) = hoisted.get? type)
    (run : commonMethods graph hoisted interface = .ok methods) :
    commonMethods other renamed (rename interface) = .ok methods := by
  obtain ⟨declared, found, declares⟩ := exists_declaredKeys graph interface
  obtain ⟨otherDeclared, otherFound, otherDeclares⟩ := exists_declaredKeys other (rename interface)
  have declaresSame : ∀ key, key ∈ otherDeclared ↔ key ∈ declared := by
    intro key
    rw [declares, otherDeclares, rename.surjective.exists]
    simp only [same.atOrAbove, same.methods]
  have hoistSame : hoist otherDeclared = hoist declared := by
    funext candidate
    simp only [hoist, declaresSame]
  obtain ⟨_, foundAgain, run⟩ := ListEffects.bind_eq_ok.mp run
  cases foundAgain.symm.trans found
  obtain ⟨candidates, left, run⟩ := ListEffects.bind_eq_ok.mp run
  refine ListEffects.bind_eq_ok.mpr ⟨otherDeclared, otherFound, ListEffects.bind_eq_ok.mpr ⟨candidates, ?_, ?_⟩⟩
  · rw [same.subtypes]
    exact candidatesFrom_renumbered same known left
  · rw [hoistSame]
    exact run

/-- Without cycles, what is hoisted into an interface follows from what is hoisted below it. -/
theorem commonMethods_final (acyclic : Acyclic graph) (run : hoistAll graph = .ok final) {interface : TypeId}
    (inside : interface ∈ graph.interfaces) :
    ∃ methods, final.get? interface = some methods ∧ commonMethods graph final interface = .ok methods := by
  obtain ⟨upward, order, outside, turns⟩ := upward_of_hoistAll run
  obtain ⟨before, after, split⟩ := List.append_of_mem ((order.complete interface).mpr inside)
  obtain ⟨table, methods, turn⟩ := turns before interface after split
  refine ⟨methods, turn.kept, commonMethods_renumbered (.refl graph) (fun type subtype => ?_) turn.run⟩
  rw [turn.known]
  split
  · rfl
  next absent =>
    refine outside type fun isInterface => absent ?_
    have target : graph.InterfaceBelow interface type := TypeGraph.mem_subInterfaces.mpr ⟨subtype, isInterface⟩
    exact order.behind before interface after split type target (acyclic.apart inside target)

/-- A run under other numbers succeeds too, with the same results. -/
theorem hoistAll_renumbered (same : Renumbered rename graph other) (acyclic : Acyclic graph)
    (run : hoistAll graph = .ok final) :
    ∃ otherFinal, hoistAll other = .ok otherFinal ∧ ∀ id, otherFinal.get? (rename id) = final.get? id := by
  obtain ⟨_, _, outside, _⟩ := upward_of_hoistAll run
  obtain ⟨upward, found⟩ := other.exists_interfacesUpward
  have order := TypeGraph.upward_of_interfacesUpward found
  obtain ⟨otherFinal, otherRun, known⟩ : ∃ otherFinal, upward.foldlM (hoistInto other) .empty = .ok otherFinal ∧
      ∀ id, otherFinal.get? (rename id) = if rename id ∈ upward then final.get? id else none := by
    refine ListEffects.exists_foldlM
      (fun done (table : Hoisted) => ∀ id, table.get? (rename id) = if rename id ∈ done then final.get? id else none)
      (fun id => rfl) fun before interface after table split known => ?_
    obtain ⟨id, rfl⟩ := rename.surjective interface
    have otherInside : rename id ∈ other.interfaces :=
      (order.complete _).mp (split ▸ List.mem_append_right before List.mem_cons_self)
    obtain ⟨methods, kept, here⟩ := commonMethods_final acyclic run (same.mem_interfaces.mp otherInside)
    refine ⟨table.insert (rename id) methods, hoistInto_eq_ok.mpr ⟨methods, ?_, rfl⟩, fun type => ?_⟩
    · refine commonMethods_renumbered same (fun type subtype => ?_) here
      rw [known]
      split
      · rfl
      next absent =>
        refine (outside type fun isInterface => absent ?_).symm
        have target : other.InterfaceBelow (rename id) (rename type) :=
          same.interfaceBelow.mpr (TypeGraph.mem_subInterfaces.mpr ⟨subtype, isInterface⟩)
        exact order.behind before _ after split _ target ((same.acyclic acyclic).apart otherInside target)
    · rw [Table.get?_insert]
      by_cases equal : id = type
      · subst equal
        simp [kept]
      · have different : rename id ≠ rename type := fun both => equal (rename.injective both)
        simp [different, Ne.symm different, known]
  refine ⟨otherFinal, hoistAll_eq_ok.mpr ⟨upward, found, otherRun⟩, fun id => ?_⟩
  rw [known]
  split
  · rfl
  next absent => exact (outside id fun inside => absent ((order.complete _).mpr (same.mem_interfaces.mpr inside))).symm

end TypedTree.Hoisting
