import TypedTree.Proofs.HoistingNumbers

/-! Hoisting is exact: without cycles each interface gets the methods that its subtypes share in the end, and
no others. -/

namespace TypedTree.Hoisting

open Java (ClassName Ancestry)

variable {graph : TypeGraph} {final : Hoisted} {interface : TypeId}

/-- What a type offers in the end: its methods, and for an interface those that were hoisted into it. -/
def offered (graph resolved : TypeGraph) (type : TypeId) : List Method :=
  (graph.node type).methods ++ if type ∈ graph.interfaces then (resolved.node type).commonMethods else []

theorem Hoists.congr {offered others : TypeId → List Method} {methods : List Method}
    (same : ∀ subtype ∈ (graph.node interface).subtypes, offered subtype = others subtype)
    (hoists : Hoists graph offered interface methods) : Hoists graph others interface methods := by
  have rows : (graph.node interface).subtypes.map offered = (graph.node interface).subtypes.map others :=
    List.map_congr_left same
  refine ⟨fun method => ?_, hoists.distinct, fun first rest subtypes => ?_, fun some subtype member => ?_⟩
  · rw [hoists.exact]
    constructor
    · intro ⟨present, shared, fresh, common⟩
      exact ⟨present, fun subtype member => same subtype member ▸ shared subtype member, fresh, rows ▸ common⟩
    · intro ⟨present, shared, fresh, common⟩
      exact ⟨present, fun subtype member => same subtype member ▸ shared subtype member, fresh, rows ▸ common⟩
  · rw [← same first (by simp [subtypes])]
    exact hoists.inOrder first rest subtypes
  · rw [← same subtype member]
    exact hoists.single some subtype member

theorem Resolves.offered {resolved : TypeGraph} (resolves : Resolves graph resolved final) (type : TypeId) :
    offeredBy graph final type = offered graph resolved type := by
  obtain ⟨upward, order, outside, turns⟩ := upward_of_hoistAll resolves.hoists
  rw [offeredBy, Hoisting.offered]
  split
  next inside =>
    obtain ⟨before, after, split⟩ := List.append_of_mem ((order.complete type).mpr inside)
    obtain ⟨_, methods, turn⟩ := turns before type after split
    rw [resolves.commonMethods turn.kept, turn.kept, Option.getD_some]
  next absent => rw [outside type absent, Option.getD_none]

/-- Where no interface stands below itself, a successful resolution hoists exactly what is to be hoisted, and
would do so under any other numbers of the types. -/
theorem resolve_exact (graph resolved : TypeGraph) (acyclic : Acyclic graph)
    (pending : ∀ interface ∈ graph.interfaces, (graph.node interface).common = none)
    (run : resolve graph = (resolved, .ok ())) :
    (∀ interface ∈ graph.interfaces,
      Hoists graph (offered graph resolved) interface (resolved.node interface).commonMethods) ∧
    ∀ rename other, Renumbered rename graph other → ∃ otherResolved, resolve other = (otherResolved, .ok ()) ∧
      ∀ interface ∈ graph.interfaces,
        (otherResolved.node (rename interface)).commonMethods = (resolved.node interface).commonMethods := by
  obtain ⟨final, resolves⟩ := exists_resolves run
  refine ⟨fun interface inside => ?_, fun rename other same => ?_⟩
  · obtain ⟨methods, kept, here⟩ := commonMethods_final acyclic resolves.hoists inside
    rw [resolves.commonMethods kept]
    exact (hoists_of_commonMethods here).congr fun subtype _ => resolves.offered subtype
  · obtain ⟨otherFinal, otherHoists, equal⟩ := hoistAll_renumbered same acyclic resolves.hoists
    obtain ⟨_, _, outside, _⟩ := upward_of_hoistAll otherHoists
    obtain ⟨otherResolved, records⟩ : ∃ otherResolved, record other otherFinal.entries = (otherResolved, .ok ()) := by
      refine exists_record otherFinal.distinct fun id member => ?_
      obtain ⟨id, rfl⟩ := rename.surjective id
      rw [same.common]
      refine pending id (same.mem_interfaces.mp (Decidable.byContradiction fun absent => ?_))
      exact Table.get?_eq_none_iff.mp (outside _ absent) member
    have otherRun := resolve_eq_ok.mpr ⟨otherFinal, otherHoists, records⟩
    obtain ⟨again, otherResolves⟩ := exists_resolves otherRun
    cases otherHoists.symm.trans otherResolves.hoists
    refine ⟨otherResolved, otherRun, fun interface inside => ?_⟩
    obtain ⟨methods, kept, _⟩ := commonMethods_final acyclic resolves.hoists inside
    rw [resolves.commonMethods kept, otherResolves.commonMethods ((equal interface).trans kept)]

/-- Numbers that grow upward rule out cycles. -/
theorem acyclic_of_numbers
    (grow : ∀ above ∈ graph.interfaces, ∀ below ∈ graph.subInterfaces above, below < above) : Acyclic graph := by
  intro interface inside cycle
  have less : ∀ above below, above ∈ graph.interfaces → Relation.TransGen graph.InterfaceBelow above below →
      below < above ∧ below ∈ graph.interfaces := by
    intro above below start path
    induction path with
    | single target => exact ⟨grow above start _ target, (TypeGraph.mem_subInterfaces.mp target).2⟩
    | tail _ target ih =>
      obtain ⟨lower, middle⟩ := ih
      exact ⟨Nat.lt_trans (grow _ middle _ target) lower, (TypeGraph.mem_subInterfaces.mp target).2⟩
  exact Nat.lt_irrefl _ (less interface interface inside cycle).1

/-- Cats and dogs have a voice and food of their own. They are pets, and pets are animals. -/
def zoo : TypeGraph :=
  let name := ClassName.topLevel "zoo"
  let known := Ancestry.ofTable (.ofList [(name "Fish", [name "Food"]), (name "Bone", [name "Food"])])
  let voice : Method := ⟨.custom, .getter "voice", none⟩
  let food (type : String) : Method := ⟨.custom, .getter "food", some ⟨.ofClass (name type), known⟩⟩
  { nodes := #[
      { TypeNode.new "cat" (name "Cat") .regular with supertypes := [2], methods := [voice, food "Fish"] },
      { TypeNode.new "dog" (name "Dog") .regular with supertypes := [2], methods := [food "Bone", voice] },
      { TypeNode.new "pet" (name "Pet") .supertype with supertypes := [3], subtypes := [0, 1] },
      { TypeNode.new "animal" (name "Animal") .supertype with subtypes := [2] }]
    root := none }

theorem resolve_exact_zoo :
    Acyclic zoo ∧ (∀ interface ∈ zoo.interfaces, (zoo.node interface).common = none) ∧
      resolve zoo = ((resolve zoo).1, .ok ()) ∧
      keysOf ((resolve zoo).1.node 3).commonMethods =
        [⟨.getter "voice", .custom⟩, ⟨.getter "food", .custom⟩] ∧
      ((resolve zoo).1.node 3).commonMethods.map (fun method => typeOf method.returns) =
        [none, some (.ofClass (.topLevel "zoo" "Food"))] ∧
      (∀ interface ∈ zoo.interfaces,
        Hoists zoo (offered zoo (resolve zoo).1) interface ((resolve zoo).1.node interface).commonMethods) ∧
      ∀ rename other, Renumbered rename zoo other → ∃ otherResolved, resolve other = (otherResolved, .ok ()) ∧
        ∀ interface ∈ zoo.interfaces, (otherResolved.node (rename interface)).commonMethods =
          ((resolve zoo).1.node interface).commonMethods :=
  have acyclic : Acyclic zoo := acyclic_of_numbers (by decide)
  have pending : ∀ interface ∈ zoo.interfaces, (zoo.node interface).common = none := by
    have all : ∀ interface ∈ zoo.interfaces, (zoo.node interface).common.isNone := by decide
    exact fun interface inside => Option.isNone_iff_eq_none.mp (all interface inside)
  ⟨acyclic, pending, rfl, by decide, by decide, resolve_exact zoo _ acyclic pending rfl⟩

end TypedTree.Hoisting
