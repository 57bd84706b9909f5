import TypedTree.Proofs.GraphNodes

/-! What holds of a graph while it is built, and what stays as it is when the graph grows. -/

namespace TypedTree.TypeGraph

open Java (ClassName)

/-- Edges lead to nodes and have two ends, and nothing is resolved. All methods pass a test. -/
structure Coherent (passes : Method → Prop) (graph : TypeGraph) : Prop where
  inside : ∀ above below, graph.Below above below → below ∈ graph.ids
  mirrored : ∀ above below, graph.Below above below ↔ graph.Above below above
  pending : ∀ id, (graph.node id).common = none
  methods : ∀ id, ∀ method ∈ (graph.node id).methods, passes method

/-- A coherent graph whose nodes have names of their own. -/
structure Valid (passes : Method → Prop) (graph : TypeGraph) : Prop extends Coherent passes graph where
  named : ∀ one ∈ graph.ids, ∀ other ∈ graph.ids, (graph.node one).name = (graph.node other).name → one = other

/-- Nodes keep their identities and names, and edges are kept. -/
structure Grows (before after : TypeGraph) : Prop where
  ids : ∀ id ∈ before.ids, id ∈ after.ids
  identity : ∀ id ∈ before.ids, (after.node id).identity = (before.node id).identity
  name : ∀ id ∈ before.ids, (after.node id).name = (before.node id).name
  above : ∀ below above, before.Above below above → after.Above below above

theorem Grows.refl (graph : TypeGraph) : Grows graph graph :=
  ⟨fun _ inside => inside, fun _ _ => rfl, fun _ _ => rfl, fun _ _ edge => edge⟩

theorem Grows.trans {before middle after : TypeGraph} (first : Grows before middle) (last : Grows middle after) :
    Grows before after :=
  ⟨fun id inside => last.ids id (first.ids id inside),
    fun id inside => (last.identity id (first.ids id inside)).trans (first.identity id inside),
    fun id inside => (last.name id (first.ids id inside)).trans (first.name id inside),
    fun below above edge => last.above below above (first.above below above edge)⟩

/-- A change that keeps a coherent graph coherent, and only adds to it. -/
structure Develops (passes : Method → Prop) (before after : TypeGraph) : Prop where
  coherent : before.Coherent passes → after.Coherent passes
  grows : Grows before after

/-- A change of the nodes that are there. -/
structure Fills (passes : Method → Prop) (before after : TypeGraph) : Prop extends Develops passes before after where
  index : after.byIdentity = before.byIdentity

variable {passes : Method → Prop} {graph after : TypeGraph} {id : TypeId}

theorem Develops.refl (graph : TypeGraph) : Develops passes graph graph := ⟨fun coherent => coherent, .refl graph⟩

theorem Develops.trans {before middle after : TypeGraph} (first : Develops passes before middle)
    (last : Develops passes middle after) : Develops passes before after :=
  ⟨fun coherent => last.coherent (first.coherent coherent), first.grows.trans last.grows⟩

theorem Fills.refl (graph : TypeGraph) : Fills passes graph graph := ⟨.refl graph, rfl⟩

theorem Fills.trans {before middle after : TypeGraph} (first : Fills passes before middle)
    (last : Fills passes middle after) : Fills passes before after :=
  ⟨first.toDevelops.trans last.toDevelops, last.index.trans first.index⟩

theorem coherent_empty : Coherent passes empty := by
  have blank : ∀ id, empty.node id = default := fun id => node_eq_default (by simp [ids, size, empty])
  refine ⟨fun above below edge => absurd edge not_below_empty,
    fun above below => iff_of_false not_below_empty not_above_empty, fun id => ?_, fun id => ?_⟩
  · rw [blank]
    rfl
  · rw [blank]
    exact List.forall_mem_nil _

/-- A change of one node that leaves its names and edges alone and adds sound methods only. -/
theorem fills_modify {f : TypeNode → TypeNode} (identity : ∀ node, (f node).identity = node.identity)
    (name : ∀ node, (f node).name = node.name) (supertypes : ∀ node, (f node).supertypes = node.supertypes)
    (subtypes : ∀ node, (f node).subtypes = node.subtypes) (common : ∀ node, (f node).common = node.common)
    (methods : ∀ node, ∀ method ∈ (f node).methods, method ∈ node.methods ∨ passes method) :
    Fills passes graph (graph.modify id f) := by
  have sameAbove : ∀ below above, (graph.modify id f).Above below above ↔ graph.Above below above := by
    intro below above
    rw [Above, Above, node_modify_of_same TypeNode.supertypes supertypes]
  have sameBelow : ∀ above below, (graph.modify id f).Below above below ↔ graph.Below above below := by
    intro above below
    rw [Below, Below, node_modify_of_same TypeNode.subtypes subtypes]
  refine ⟨⟨?_, ?_⟩, rfl⟩
  · intro coherent
    constructor
    · simpa only [ids_modify, sameBelow] using coherent.inside
    · simpa only [sameBelow, sameAbove] using coherent.mirrored
    · intro other
      rw [node_modify_of_same TypeNode.common common, coherent.pending]
    · intro other method member
      rw [node_modify] at member
      split at member
      · rcases methods _ method member with old | new
        · exact coherent.methods other method old
        · exact new
      · exact coherent.methods other method member
  · refine ⟨fun other inside => by rwa [ids_modify], fun other _ => ?_, fun other _ => ?_, ?_⟩
    · exact node_modify_of_same TypeNode.identity identity
    · exact node_modify_of_same TypeNode.name name
    · exact fun below above edge => (sameAbove below above).mpr edge

theorem fills_addMethod {method : Method} (sound : passes method) :
    Fills passes graph (graph.addMethod id method) := by
  refine fills_modify (fun _ => rfl) (fun _ => rfl) (fun _ => rfl) (fun _ => rfl) (fun _ => rfl) ?_
  intro node other member
  rcases List.mem_append.mp member with old | new
  · exact Or.inl old
  · exact Or.inr (List.mem_singleton.mp new ▸ sound)

theorem fills_addCustomMethod {custom : CustomMethod} (sound : passes custom.method) :
    Fills passes graph (graph.addCustomMethod id custom) := by
  refine fills_modify (fun _ => rfl) (fun _ => rfl) (fun _ => rfl) (fun _ => rfl) (fun _ => rfl) ?_
  intro node other member
  rcases List.mem_append.mp member with old | new
  · exact Or.inl old
  · exact Or.inr (List.mem_singleton.mp new ▸ sound)

theorem fills_addConstant {name : String} {value : Option String} :
    Fills passes graph (graph.addConstant id name value) :=
  fills_modify (fun _ => rfl) (fun _ => rfl) (fun _ => rfl) (fun _ => rfl) (fun _ => rfl)
    fun _ _ member => Or.inl member

theorem fills_addToken {name token : String} : Fills passes graph (graph.addToken id name token) :=
  fills_modify (fun _ => rfl) (fun _ => rfl) (fun _ => rfl) (fun _ => rfl) (fun _ => rfl)
    fun _ _ member => Or.inl member

theorem fills_setExtra {extra : Bool} : Fills passes graph (graph.setExtra id extra) :=
  fills_modify (fun _ => rfl) (fun _ => rfl) (fun _ => rfl) (fun _ => rfl) (fun _ => rfl)
    fun _ _ member => Or.inl member

theorem fills_addSubtype {supertype subtype : TypeId} (upper : supertype ∈ graph.ids) (lower : subtype ∈ graph.ids) :
    Fills passes graph (graph.addSubtype supertype subtype) := by
  refine ⟨⟨?_, ?_⟩, rfl⟩
  · intro coherent
    constructor
    · intro above below edge
      rw [ids_addSubtype]
      rcases (mem_subtypes_addSubtype upper).mp edge with old | ⟨_, rfl⟩
      · exact coherent.inside above below old
      · exact lower
    · intro above below
      rw [mem_subtypes_addSubtype upper, mem_supertypes_addSubtype lower, coherent.mirrored,
        and_comm (a := above = supertype)]
    · intro other
      rw [node_addSubtype TypeNode.common (fun _ _ => rfl) fun _ _ => rfl, coherent.pending]
    · intro other
      rw [node_addSubtype TypeNode.methods (fun _ _ => rfl) fun _ _ => rfl]
      exact coherent.methods other
  · refine ⟨fun other inside => by rwa [ids_addSubtype], fun other _ => ?_, fun other _ => ?_, ?_⟩
    · exact node_addSubtype TypeNode.identity (fun _ _ => rfl) fun _ _ => rfl
    · exact node_addSubtype TypeNode.name (fun _ _ => rfl) fun _ _ => rfl
    · exact fun below above edge => (mem_supertypes_addSubtype lower).mpr (Or.inl edge)

/-- Where the new node is blank, nothing changes for any number, since unused numbers have a blank node. -/
theorem Added.unchanged {β : Type} {node : TypeNode} (added : Added graph node after id) (field : TypeNode → β)
    (blank : field node = field default) (other : TypeId) : field (after.node other) = field (graph.node other) := by
  by_cases new : other = id
  · rw [new, added.here, node_eq_default added.number, blank]
  · rw [added.elsewhere other new]

/-- A node is added without edges and methods. -/
theorem develops_added {identity : String} {name : ClassName} {kind : TypeKind}
    (added : Added graph (.new identity name kind) after id) : Develops passes graph after := by
  have old : ∀ other ∈ graph.ids, after.node other = graph.node other :=
    fun other inside => added.elsewhere other fun same => added.number (same ▸ inside)
  have sameAbove : ∀ below above, after.Above below above ↔ graph.Above below above := by
    intro below above
    rw [Above, Above, added.unchanged TypeNode.supertypes rfl]
  have sameBelow : ∀ above below, after.Below above below ↔ graph.Below above below := by
    intro above below
    rw [Below, Below, added.unchanged TypeNode.subtypes rfl]
  constructor
  · intro coherent
    constructor
    · intro above below edge
      exact (added.ids below).mpr (Or.inl (coherent.inside above below ((sameBelow above below).mp edge)))
    · intro above below
      rw [sameBelow, sameAbove, coherent.mirrored]
    · intro other
      rw [added.unchanged TypeNode.common rfl, coherent.pending]
    · intro other
      rw [added.unchanged TypeNode.methods rfl]
      exact coherent.methods other
  · refine ⟨fun other inside => (added.ids other).mpr (Or.inl inside), fun other inside => ?_,
      fun other inside => ?_, ?_⟩
    · rw [old other inside]
    · rw [old other inside]
    · exact fun below above edge => (sameAbove below above).mpr edge

end TypedTree.TypeGraph
