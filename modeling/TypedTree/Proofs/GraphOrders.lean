import TypedTree.Graph.Hierarchy
import TypedTree.Proofs.DepthFirst
import TypedTree.Proofs.GraphNodes

/-! The orders on the types of a graph: what they hold, and what comes before what. -/

namespace TypedTree.TypeGraph

open TypedTree.Order (References Strangers Reaches Sorted followed)

variable {graph : TypeGraph} {id : TypeId}

def InterfaceBelow (graph : TypeGraph) (above below : TypeId) : Prop := below ∈ graph.subInterfaces above

theorem mem_interfaces : id ∈ graph.interfaces ↔ (graph.node id).kind.isInterface = true := by
  rw [interfaces, List.mem_filter]
  refine and_iff_right_of_imp fun interface => Decidable.byContradiction fun absent => ?_
  rw [node_eq_default absent] at interface
  cases interface

theorem mem_subInterfaces {below : TypeId} :
    below ∈ graph.subInterfaces id ↔ below ∈ (graph.node id).subtypes ∧ below ∈ graph.interfaces := by
  rw [subInterfaces, interfacesBelow, List.mem_filter, mem_interfaces]

theorem orderIds_eq_ok {references : References TypeId} {strangers : Strangers} {ids ordered : List TypeId} :
    orderIds references strangers ids = .ok ordered ↔ Order.sort references strangers ids = .ok ordered := by
  rw [orderIds]
  cases Order.sort references strangers ids with
  | error reference => exact iff_of_false (nomatch ·) (nomatch ·)
  | ok sorted => exact ⟨fun same => congrArg _ (Except.ok.inj same), fun same => congrArg _ (Except.ok.inj same)⟩

/-- The ancestors of a type can always be told, and are what is above it. -/
theorem exists_ancestors (graph : TypeGraph) (id : TypeId) :
    ∃ ancestors, graph.ancestors id = .ok ancestors ∧
      ∀ type, type ∈ ancestors ↔ Relation.TransGen graph.Above id type := by
  obtain ⟨ancestors, run⟩ : ∃ ancestors, Order.sort (graph.edges TypeNode.supertypes rfl) .add
      (graph.node id).supertypes.reverse = .ok ancestors := Order.exists_sort (nomatch ·)
  refine ⟨ancestors, orderIds_eq_ok.mpr run, fun type => ?_⟩
  rw [(Order.sorted_of_sort run).complete, Relation.TransGen.head'_iff]
  simp only [List.mem_reverse]
  rfl

/-- The interfaces can always be ordered upward. -/
theorem exists_interfacesUpward (graph : TypeGraph) : ∃ upward, graph.interfacesUpward = .ok upward := by
  obtain ⟨sorted, run⟩ : ∃ sorted, Order.sort (graph.edges graph.interfacesBelow rfl) .refuse
      graph.interfaces = .ok sorted :=
    Order.exists_sort fun _ _ _ _ below => (mem_subInterfaces.mp below).2
  exact ⟨sorted.reverse, by rw [interfacesUpward, orderIds_eq_ok.mpr run]; rfl⟩

/-- Each interface occurs once, behind the interfaces below it that are not above it too. -/
structure Upward (graph : TypeGraph) (upward : List TypeId) : Prop where
  distinct : upward.Nodup
  complete : ∀ id, id ∈ upward ↔ id ∈ graph.interfaces
  behind : ∀ before id after, upward = before ++ id :: after → ∀ below, graph.InterfaceBelow id below →
    ¬ Relation.ReflTransGen graph.InterfaceBelow below id → below ∈ before

theorem upward_of_interfacesUpward {upward : List TypeId} (found : graph.interfacesUpward = .ok upward) :
    graph.Upward upward := by
  obtain ⟨sorted, run, rfl⟩ : ∃ sorted, Order.sort (graph.edges graph.interfacesBelow rfl) .refuse
      graph.interfaces = .ok sorted ∧ sorted.reverse = upward := by
    rw [interfacesUpward] at found
    cases run : orderIds (graph.edges graph.interfacesBelow rfl) .refuse graph.interfaces with
    | error error => rw [run] at found; cases found
    | ok sorted =>
      rw [run] at found
      exact ⟨sorted, orderIds_eq_ok.mp run, Except.ok.inj found⟩
  have order := Order.sorted_of_sort run
  have next : ∀ {below above}, below ∈ followed (graph.edges graph.interfacesBelow rfl) .refuse graph.interfaces above ↔
      graph.InterfaceBelow above below := by
    intro below above
    rw [Order.mem_followed]
    exact ⟨fun target => target.1, fun below => ⟨below, Or.inr (mem_subInterfaces.mp below).2⟩⟩
  refine ⟨List.pairwise_reverse.mpr (order.distinct.imp Ne.symm), fun id => ?_, ?_⟩
  · rw [List.mem_reverse, order.mem_iff (by decide)]
  · intro before id after split below target apart
    have split : sorted = after.reverse ++ id :: before.reverse := by
      rw [← List.reverse_reverse sorted, split]
      simp
    have settled := order.settled
    rw [split] at settled
    refine List.mem_reverse.mp (settled.mem_after (next.mpr target) fun path => apart ?_)
    exact Relation.ReflTransGen.mono (fun _ _ target => next.mp target) _ _ path

end TypedTree.TypeGraph
