import TypedTree.Graph.Basic

/-! What the changes of a graph do to its nodes. -/

namespace TypedTree.TypeGraph

variable {graph : TypeGraph} {id other : TypeId}

def Above (graph : TypeGraph) (below above : TypeId) : Prop := above ∈ (graph.node below).supertypes

def Below (graph : TypeGraph) (above below : TypeId) : Prop := below ∈ (graph.node above).subtypes

theorem mem_ids : id ∈ graph.ids ↔ id < graph.size := List.mem_range

theorem Above.inside {below above : TypeId} (edge : graph.Above below above) : below ∈ graph.ids := by
  refine Decidable.byContradiction fun absent => ?_
  rw [Above, node_eq_default absent] at edge
  cases edge

theorem Below.inside {above below : TypeId} (edge : graph.Below above below) : above ∈ graph.ids := by
  refine Decidable.byContradiction fun absent => ?_
  rw [Below, node_eq_default absent] at edge
  cases edge

theorem not_above_empty {below above : TypeId} : ¬ empty.Above below above := fun edge => nomatch edge.inside

theorem not_below_empty {above below : TypeId} : ¬ empty.Below above below := fun edge => nomatch edge.inside

theorem getElem_nodes (inside : id < graph.nodes.size) : graph.nodes[id] = graph.node id := by
  simp [node, inside]

/-- The nodes of a graph are those with its numbers. -/
theorem toList_nodes (graph : TypeGraph) : graph.nodes.toList = graph.ids.map graph.node := by
  refine List.ext_getElem (by simp [ids, size]) fun id inside _ => ?_
  have inside : id < graph.nodes.size := by simpa using inside
  simp [ids, getElem_nodes inside]

theorem mem_nodes {node : TypeNode} : node ∈ graph.nodes ↔ ∃ id ∈ graph.ids, graph.node id = node := by
  rw [← Array.mem_toList_iff, toList_nodes, List.mem_map]

theorem node_modify (f : TypeNode → TypeNode) :
    (graph.modify id f).node other =
      if other = id ∧ id ∈ graph.ids then f (graph.node other) else graph.node other := by
  simp only [node, modify, Array.getD_eq_getD_getElem?, Array.getElem?_modify, mem_ids, size]
  by_cases same : id = other
  · subst same
    by_cases inside : id < graph.nodes.size
    · simp [inside]
    · simp [inside]
  · simp [same, Ne.symm same]

@[simp] theorem size_modify (f : TypeNode → TypeNode) : (graph.modify id f).size = graph.size :=
  Array.size_modify ..

@[simp] theorem ids_modify (f : TypeNode → TypeNode) : (graph.modify id f).ids = graph.ids := by
  rw [ids, ids, size_modify]

/-- What a change of one node does not touch is the same for all nodes. -/
theorem node_modify_of_same {β : Type} {f : TypeNode → TypeNode} (field : TypeNode → β)
    (same : ∀ node, field (f node) = field node) :
    field ((graph.modify id f).node other) = field (graph.node other) := by
  rw [node_modify]
  split
  · exact same _
  · rfl

theorem subtypes_addSubtype {supertype subtype : TypeId} :
    ((graph.addSubtype supertype subtype).node other).subtypes =
      if other = supertype ∧ supertype ∈ graph.ids then Distinct.add (graph.node other).subtypes subtype
      else (graph.node other).subtypes := by
  have last : ∀ between : TypeGraph, ((between.modify subtype fun node =>
      { node with supertypes := Distinct.add node.supertypes supertype }).node other).subtypes =
        (between.node other).subtypes := fun between => node_modify_of_same TypeNode.subtypes fun _ => rfl
  rw [addSubtype, last, node_modify]
  split <;> rfl

theorem supertypes_addSubtype {supertype subtype : TypeId} :
    ((graph.addSubtype supertype subtype).node other).supertypes =
      if other = subtype ∧ subtype ∈ graph.ids then Distinct.add (graph.node other).supertypes supertype
      else (graph.node other).supertypes := by
  have first : ((graph.modify supertype fun node =>
      { node with subtypes := Distinct.add node.subtypes subtype }).node other).supertypes = (graph.node other).supertypes :=
    node_modify_of_same TypeNode.supertypes fun _ => rfl
  rw [addSubtype, node_modify, ids_modify, ← first]
  split <;> rfl

theorem mem_subtypes_addSubtype {supertype subtype above below : TypeId} (inside : supertype ∈ graph.ids) :
    (graph.addSubtype supertype subtype).Below above below ↔
      graph.Below above below ∨ above = supertype ∧ below = subtype := by
  rw [Below, subtypes_addSubtype]
  by_cases same : above = supertype
  · simp [same, inside, Below, Distinct.mem_add]
  · simp [same, Below]

theorem mem_supertypes_addSubtype {supertype subtype below above : TypeId} (inside : subtype ∈ graph.ids) :
    (graph.addSubtype supertype subtype).Above below above ↔
      graph.Above below above ∨ below = subtype ∧ above = supertype := by
  rw [Above, supertypes_addSubtype]
  by_cases same : below = subtype
  · simp [same, inside, Above, Distinct.mem_add]
  · simp [same, Above]

theorem node_addSubtype {β : Type} {supertype subtype : TypeId} (field : TypeNode → β)
    (subtypes : ∀ node list, field { node with subtypes := list } = field node)
    (supertypes : ∀ node list, field { node with supertypes := list } = field node) :
    field ((graph.addSubtype supertype subtype).node other) = field (graph.node other) := by
  rw [addSubtype, node_modify_of_same field fun _ => supertypes _ _, node_modify_of_same field fun _ => subtypes _ _]

theorem node_addToken {β : Type} {name token : String} (field : TypeNode → β)
    (tokens : ∀ node list, field { node with tokens := list } = field node) :
    field ((graph.addToken id name token).node other) = field (graph.node other) :=
  node_modify_of_same field fun _ => tokens _ _

@[simp] theorem ids_addSubtype {supertype subtype : TypeId} :
    (graph.addSubtype supertype subtype).ids = graph.ids := by
  rw [addSubtype, ids_modify, ids_modify]

/-- A new node gets the next number. -/
structure Added (graph : TypeGraph) (node : TypeNode) (after : TypeGraph) (id : TypeId) : Prop where
  number : id ∉ graph.ids
  ids : ∀ other, other ∈ after.ids ↔ other ∈ graph.ids ∨ other = id
  here : after.node id = node
  elsewhere : ∀ other, other ≠ id → after.node other = graph.node other

theorem addNode_eq_ok {identity : String} {name : Java.ClassName} {kind : TypeKind} {after : TypeGraph}
    (run : graph.addNode identity name kind = .ok (after, id)) :
    graph.id? identity = none ∧ Added graph (.new identity name kind) after id := by
  rw [addNode] at run
  cases found : graph.id? identity with
  | some _ => rw [found] at run; cases run
  | none =>
    rw [found] at run
    cases run
    refine ⟨rfl, fun member => Nat.lt_irrefl _ (mem_ids.mp member), fun other => ?_, ?_, fun other different => ?_⟩
    · rw [mem_ids, mem_ids, size, size, Array.size_push, Nat.lt_succ_iff_lt_or_eq]
    · simp [node, size]
    · have different : other ≠ graph.nodes.size := different
      simp only [node, Array.getD_eq_getD_getElem?, Array.getElem?_push, if_neg different]

theorem byIdentity_of_addNode {identity : String} {name : Java.ClassName} {kind : TypeKind} {after : TypeGraph}
    (run : graph.addNode identity name kind = .ok (after, id)) :
    after.byIdentity = graph.byIdentity.insert identity id := by
  rw [addNode] at run
  split at run
  · cases run
  · cases run
    rfl

theorem size_of_addNode {identity : String} {name : Java.ClassName} {kind : TypeKind} {after : TypeGraph}
    (run : graph.addNode identity name kind = .ok (after, id)) : id = graph.size ∧ after.size = graph.size + 1 := by
  rw [addNode] at run
  split at run
  · cases run
  · cases run
    exact ⟨rfl, Array.size_push ..⟩

theorem Added.of_reserve {parent : TypeId} {name identity : String} {node : TypeNode} {after : TypeGraph}
    (added : Added (graph.reserve parent name identity) node after id) : Added graph node after id :=
  ⟨added.number, added.ids, added.here, added.elsewhere⟩

theorem nestedNames_of_addNode {identity : String} {name : Java.ClassName} {kind : TypeKind} {after : TypeGraph}
    (run : graph.addNode identity name kind = .ok (after, id)) : after.nestedNames = graph.nestedNames := by
  rw [addNode] at run
  split at run
  · cases run
  · cases run
    rfl

theorem reservedBy?_reserve {parent : TypeId} {name text identity : String} :
    (graph.reserve parent name identity).reservedBy? other text =
      if parent = other ∧ name = text then some identity else graph.reservedBy? other text := by
  rw [reservedBy?, reserve, Table.update, Table.get?_insert, reservedBy?]
  by_cases same : parent = other
  · subst same
    rw [if_pos rfl, Option.bind_some, Table.get?_insert]
    by_cases named : name = text
    · rw [if_pos named, if_pos ⟨rfl, named⟩]
    · rw [if_neg named, if_neg fun both => named both.2]
      cases graph.nestedNames.get? parent <;> rfl
  · rw [if_neg same, if_neg fun both => same both.1]

/-- The index has the identities of the nodes, and no others. -/
def Indexed (graph : TypeGraph) : Prop :=
  ∀ identity id, graph.id? identity = some id ↔ id ∈ graph.ids ∧ (graph.node id).identity = identity

theorem indexed_empty : Indexed empty := fun _ _ => iff_of_false nofun fun node => nomatch node.1

theorem Indexed.unique (indexed : graph.Indexed) (one : TypeId) (first : one ∈ graph.ids) (other : TypeId)
    (second : other ∈ graph.ids) (same : (graph.node one).identity = (graph.node other).identity) : one = other :=
  Option.some.inj (((indexed _ one).mpr ⟨first, same⟩).symm.trans ((indexed _ other).mpr ⟨second, rfl⟩))

theorem Indexed.unchanged {after : TypeGraph} (indexed : graph.Indexed) (index : after.byIdentity = graph.byIdentity)
    (ids : after.ids = graph.ids) (identity : ∀ id ∈ graph.ids, (after.node id).identity = (graph.node id).identity) :
    after.Indexed := by
  intro text id
  rw [id?, index, ids]
  refine (indexed text id).trans (and_congr_right fun inside => ?_)
  rw [identity id inside]

/-- No node has an identity that is free. -/
theorem Indexed.identity_ne_of_free (indexed : graph.Indexed) {identity : String} (free : graph.id? identity = none)
    (inside : id ∈ graph.ids) : (graph.node id).identity ≠ identity := fun same =>
  nomatch free.symm.trans ((indexed identity id).mpr ⟨inside, same⟩)

theorem Indexed.id?_eq_none (indexed : graph.Indexed) {identity : String}
    (free : ∀ id ∈ graph.ids, (graph.node id).identity ≠ identity) : graph.id? identity = none := by
  cases found : graph.id? identity with
  | none => rfl
  | some id =>
    obtain ⟨inside, same⟩ := (indexed identity id).mp found
    exact absurd same (free id inside)

theorem Indexed.add {identity : String} {name : Java.ClassName} {kind : TypeKind} {after : TypeGraph}
    (indexed : graph.Indexed) (run : graph.addNode identity name kind = .ok (after, id)) : after.Indexed := by
  obtain ⟨free, added⟩ := addNode_eq_ok run
  intro text other
  rw [id?, byIdentity_of_addNode run, Table.get?_insert, added.ids]
  by_cases new : other = id
  · subst new
    have other : graph.byIdentity.get? text ≠ some other := fun found => added.number ((indexed text _).mp found).1
    rw [added.here]
    by_cases same : identity = text
    · simp [same, TypeNode.new]
    · simp [same, TypeNode.new, other]
  · have old : graph.byIdentity.get? text = some other ↔ other ∈ graph.ids ∧ (graph.node other).identity = text :=
      indexed text other
    rw [added.elsewhere other new]
    by_cases same : identity = text
    · subst same
      have apart : ¬ (other ∈ graph.ids ∧ (graph.node other).identity = identity) :=
        fun ⟨inside, same⟩ => indexed.identity_ne_of_free free inside same
      simp [new, Ne.symm new, apart]
    · simp [same, new, old]

end TypedTree.TypeGraph
