import TypedTree.Graph.Basic
import TypedTree.Order

/-!
Orders on the types of a graph. Ancestors come before their own ancestors, and declarations before those
of their subtypes.
-/

namespace TypedTree.TypeGraph

open Java (ClassName Ancestry)
open TypedTree.Order (References Strangers)

def idText (id : TypeId) : String := s!"#{id}"

/-- The edges of a graph that lead to other nodes. A number without node has no edges. -/
def edges (graph : TypeGraph) (targets : TypeNode → List TypeId)
    (isolated : targets default = []) : References TypeId where
  domain := graph.ids
  targets id := targets (graph.node id)
  outside id absent := by rw [graph.node_eq_default absent, isolated]

def orderIds (references : References TypeId) (strangers : Strangers) (ids : List TypeId) :
    Except Error (List TypeId) :=
  (Order.sort references strangers ids).mapError fun reference =>
    .unknownReference (idText reference.source) (idText reference.target)

/-- All direct and indirect supertypes, each before its own supertypes. -/
def ancestors (graph : TypeGraph) (id : TypeId) : Except Error (List TypeId) :=
  orderIds (graph.edges TypeNode.supertypes rfl) .add (graph.node id).supertypes.reverse

/-- All nodes, each before its subtypes. The walk starts from the newest node on and follows subtypes in the order in
which they were added; what it finishes last is declared first. -/
def declarationOrder (graph : TypeGraph) : Except Error (List TypeId) :=
  orderIds (graph.edges TypeNode.subtypes rfl) .refuse graph.ids.reverse

/-- The interfaces, each behind the interfaces below it. -/
def interfacesUpward (graph : TypeGraph) : Except Error (List TypeId) :=
  (orderIds (graph.edges graph.interfacesBelow rfl) .refuse graph.interfaces).map List.reverse

/-- The classes of the supertypes of a node that stand for supertypes of the grammar. -/
def grammarSupertypes (graph : TypeGraph) (node : TypeNode) : List ClassName :=
  ((node.supertypes.map graph.node).filter (·.kind = .supertype)).map (·.name)

def directSupertypes (graph : TypeGraph) : Table ClassName (List ClassName) :=
  .ofList <| (graph.nodes.toList.filter (·.kind.isNodeType)).map fun node =>
    (node.name, graph.grammarSupertypes node)

/-- What the edges between node types say about the supertypes of their classes. The supertypes of a class
are ordered when they are first asked for. -/
def ancestry (graph : TypeGraph) : Ancestry :=
  let direct := graph.directSupertypes
  let references := References.ofTable direct
  let ordered := direct.mapValues fun _ supertypes =>
    Thunk.mk fun _ => ((Order.sort references .add supertypes.reverse).toOption).getD []
  ⟨some fun name => (ordered.get? name).map Thunk.get⟩

end TypedTree.TypeGraph
