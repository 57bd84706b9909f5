import TypedTree.Proofs.DepthFirst
import TypedTree.Proofs.GraphGrowth
import TypedTree.Proofs.TableEntries
import TypedTree.Proofs.TypeShapes
import TypedTree.Graph.Hierarchy

/-! What a graph knows of supertypes is true of it, and of all graphs that it grows into. -/

namespace TypedTree.TypeGraph

open Java (ClassName Ancestry)

/-- The node of a class. No other node has the same class. -/
structure Named (graph : TypeGraph) (name : ClassName) (id : TypeId) : Prop where
  inside : id ∈ graph.ids
  same : (graph.node id).name = name
  only : ∀ other ∈ graph.ids, (graph.node other).name = name → other = id

/-- The node of one class stands somewhere above the node of another one. -/
def ClassAbove (graph : TypeGraph) (below above : ClassName) : Prop :=
  ∃ lower upper, graph.Named below lower ∧ graph.Named above upper ∧ Relation.TransGen graph.Above lower upper

variable {graph : TypeGraph} {passes : Method → Prop}

theorem Valid.nameOf (valid : graph.Valid passes) {id : TypeId} (inside : id ∈ graph.ids) :
    graph.Named (graph.node id).name id :=
  ⟨inside, rfl, fun other member same => valid.named other member id inside same⟩

theorem Valid.inside_above (valid : graph.Valid passes) {below above : TypeId} (edge : graph.Above below above) :
    above ∈ graph.ids := ((valid.mirrored above below).mpr edge).inside

/-- The table of direct supertypes has the classes above some node. -/
theorem exists_above_of_directSupertypes {name above : ClassName} {supertypes : List ClassName}
    (found : graph.directSupertypes.get? name = some supertypes) (member : above ∈ supertypes) :
    ∃ lower upper, lower ∈ graph.ids ∧ (graph.node lower).name = name ∧ graph.Above lower upper ∧
      (graph.node upper).name = above ∧ (graph.node upper).kind = .supertype := by
  obtain ⟨node, inside, same⟩ := List.mem_map.mp (Table.mem_of_get?_ofList found)
  obtain ⟨rfl, rfl⟩ := Prod.mk.inj same
  obtain ⟨lower, number, rfl⟩ := mem_nodes.mp (Array.mem_toList_iff.mp (List.mem_of_mem_filter inside))
  obtain ⟨other, kept, rfl⟩ := List.mem_map.mp member
  obtain ⟨mapped, kind⟩ := List.mem_filter.mp kept
  obtain ⟨upper, edge, rfl⟩ := List.mem_map.mp mapped
  exact ⟨lower, upper, number, rfl, edge, rfl, of_decide_eq_true kind⟩

def ListedAbove (graph : TypeGraph) (below above : ClassName) : Prop :=
  ∃ supertypes, graph.directSupertypes.get? below = some supertypes ∧ above ∈ supertypes

/-- The supertypes of a class in the order in which they are told. -/
structure Told (graph : TypeGraph) (name : ClassName) (supertypes : List ClassName) : Prop where
  distinct : supertypes.Nodup
  complete : ∀ above, above ∈ supertypes ↔ Relation.TransGen graph.ListedAbove name above
  settled : Order.Settled (fun name => (graph.directSupertypes.get? name).getD []) supertypes

theorem mem_directSupertypes {below above : ClassName} :
    above ∈ (graph.directSupertypes.get? below).getD [] ↔ graph.ListedAbove below above := by
  rw [ListedAbove]
  cases graph.directSupertypes.get? below <;> simp

theorem supertypes?_ancestry (graph : TypeGraph) (name : ClassName) :
    graph.ancestry.supertypes? name = (graph.directSupertypes.get? name).map fun supertypes =>
      ((Order.sort (.ofTable graph.directSupertypes) .add supertypes.reverse).toOption).getD [] := by
  show Option.map Thunk.get (Table.get? (Table.mapValues _ graph.directSupertypes) name) = _
  rw [Table.get?_mapValues, Option.map_map]
  rfl

theorem ancestry_congr {other : TypeGraph} (same : graph.directSupertypes = other.directSupertypes) :
    graph.ancestry = other.ancestry := by
  rw [ancestry, same]
  rfl

theorem above_ancestry_of_none {name : ClassName} (none : graph.directSupertypes.get? name = none) :
    graph.ancestry.above name = [] := by
  rw [Ancestry.above, supertypes?_ancestry, none]
  rfl

theorem told_ancestry (graph : TypeGraph) (name : ClassName) : graph.Told name (graph.ancestry.above name) := by
  cases found : graph.directSupertypes.get? name with
  | none =>
    rw [above_ancestry_of_none found]
    refine ⟨List.nodup_nil, fun above => iff_of_false List.not_mem_nil fun path => ?_, trivial⟩
    obtain ⟨_, ⟨_, listed, _⟩, _⟩ := Relation.TransGen.head'_iff.mp path
    cases found.symm.trans listed
  | some supertypes =>
    obtain ⟨sorted, run⟩ : ∃ sorted, Order.sort (Order.References.ofTable graph.directSupertypes) .add
        supertypes.reverse = .ok sorted := Order.exists_sort fun refuse => by cases refuse
    have told : graph.ancestry.above name = sorted := by
      rw [Ancestry.above, supertypes?_ancestry, found, Option.map_some, Option.getD_some, run]
      rfl
    have order := Order.sorted_of_sort run
    rw [told]
    refine ⟨order.distinct, fun above => ?_, order.settled⟩
    have listed : graph.ListedAbove = fun below above => above ∈ (graph.directSupertypes.get? below).getD [] :=
      funext₂ fun _ _ => propext mem_directSupertypes.symm
    rw [order.complete, listed, Relation.TransGen.head'_iff]
    simp only [List.mem_reverse, found, Option.getD_some]
    rfl

/-- Only classes of node types are known to have supertypes. -/
theorem exists_nodeType_of_above {name : ClassName} (some : graph.ancestry.above name ≠ []) :
    ∃ id ∈ graph.ids, (graph.node id).name = name ∧ (graph.node id).kind.isNodeType = true := by
  cases found : graph.directSupertypes.get? name with
  | none => exact absurd (above_ancestry_of_none found) some
  | some supertypes =>
    obtain ⟨node, listed, same⟩ := List.mem_map.mp (Table.mem_of_get?_ofList found)
    obtain ⟨inside, kind⟩ := List.mem_filter.mp listed
    obtain ⟨id, number, rfl⟩ := mem_nodes.mp (Array.mem_toList_iff.mp inside)
    exact ⟨id, number, congrArg Prod.fst same, kind⟩

theorem transGen_of_lists {below above : ClassName} (lists : graph.ancestry.Lists below above) :
    Relation.TransGen graph.ListedAbove below above :=
  ((graph.told_ancestry below).complete above).mp (Ancestry.mem_above.mpr lists)

/-- A path along classes is a path along nodes, since classes belong to one node each. -/
theorem Valid.exists_path (valid : graph.Valid passes) {below above : ClassName}
    (path : Relation.TransGen graph.ListedAbove below above) :
    ∃ lower upper, lower ∈ graph.ids ∧ (graph.node lower).name = below ∧ upper ∈ graph.ids ∧
      (graph.node upper).name = above ∧ Relation.TransGen graph.Above lower upper := by
  induction path with
  | single step =>
    obtain ⟨_, found, member⟩ := step
    obtain ⟨lower, upper, inside, named, edge, last, _⟩ := exists_above_of_directSupertypes found member
    exact ⟨lower, upper, inside, named, valid.inside_above edge, last, .single edge⟩
  | tail _ step ih =>
    obtain ⟨lower, middle, inside, named, middleInside, middleNamed, lowerPath⟩ := ih
    obtain ⟨_, found, member⟩ := step
    obtain ⟨again, upper, againInside, againNamed, edge, last, _⟩ := exists_above_of_directSupertypes found member
    cases valid.named again againInside middle middleInside (againNamed.trans middleNamed.symm)
    exact ⟨lower, upper, inside, named, valid.inside_above edge, last, lowerPath.tail edge⟩

/-- What was known of supertypes when a graph had grown to some point remains true. -/
theorem classAbove_of_lists {snapshot : TypeGraph} {before after : Method → Prop} (start : snapshot.Valid before)
    (grows : Grows snapshot graph) (valid : graph.Valid after) {below above : ClassName}
    (lists : snapshot.ancestry.Lists below above) : graph.ClassAbove below above := by
  obtain ⟨lower, upper, lowerInside, rfl, upperInside, rfl, path⟩ := start.exists_path (transGen_of_lists lists)
  refine ⟨lower, upper, ?_, ?_, Relation.TransGen.mono grows.above _ _ path⟩
  · exact grows.name lower lowerInside ▸ valid.nameOf (grows.ids lower lowerInside)
  · exact grows.name upper upperInside ▸ valid.nameOf (grows.ids upper upperInside)

end TypedTree.TypeGraph
