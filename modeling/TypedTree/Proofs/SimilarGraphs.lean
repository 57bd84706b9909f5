import TypedTree.Proofs.ParallelBuilds

/-! Graphs that are equal but for some part of their nodes, and graphs that differ in the order of subtypes. Building goes
on in the latter in the same way, since nothing that is built depends on this order. -/

namespace TypedTree

open Java (ClassName Ancestry)
open ListEffects (Matches)

namespace TypeNode

def withoutSubtypes (node : TypeNode) : TypeNode := { node with subtypes := [] }

/-- The node with one more supertype. -/
def raise (supertype : TypeId) (node : TypeNode) : TypeNode :=
  { node with supertypes := Distinct.add node.supertypes supertype }

theorem raise_raise {supertype : TypeId} (node : TypeNode) :
    (node.raise supertype).raise supertype = node.raise supertype := by
  simp [raise, Distinct.add_add]

end TypeNode

namespace TypeGraph

/-- Graphs whose nodes are equal when a part of each is erased. -/
structure EqualUpTo (erase : TypeNode → TypeNode) (graph other : TypeGraph) : Prop where
  size : graph.size = other.size
  index : graph.byIdentity = other.byIdentity
  reserved : graph.nestedNames = other.nestedNames
  node : ∀ id, erase (graph.node id) = erase (other.node id)

namespace EqualUpTo

variable {erase : TypeNode → TypeNode} {graph other : TypeGraph} {id : TypeId}

theorem refl (graph : TypeGraph) : EqualUpTo erase graph graph := ⟨rfl, rfl, rfl, fun _ => rfl⟩

theorem symm (same : EqualUpTo erase graph other) : EqualUpTo erase other graph :=
  ⟨same.size.symm, same.index.symm, same.reserved.symm, fun id => (same.node id).symm⟩

theorem trans {middle : TypeGraph} (first : EqualUpTo erase graph middle) (last : EqualUpTo erase middle other) :
    EqualUpTo erase graph other :=
  ⟨first.size.trans last.size, first.index.trans last.index, first.reserved.trans last.reserved,
    fun id => (first.node id).trans (last.node id)⟩

theorem ids (same : EqualUpTo erase graph other) : graph.ids = other.ids := by
  rw [TypeGraph.ids, TypeGraph.ids, same.size]

theorem field {β : Type} (same : EqualUpTo erase graph other) (field : TypeNode → β)
    (blind : ∀ node, field (erase node) = field node) (id : TypeId) : field (graph.node id) = field (other.node id) := by
  rw [← blind, same.node, blind]

theorem reserve (same : EqualUpTo erase graph other) (parent : TypeId) (name identity : String) :
    EqualUpTo erase (graph.reserve parent name identity) (other.reserve parent name identity) := by
  refine ⟨same.size, same.index, ?_, same.node⟩
  rw [TypeGraph.reserve, TypeGraph.reserve, same.reserved]

/-- A change of one node that does not depend on what is erased. -/
theorem modify (same : EqualUpTo erase graph other) {f : TypeNode → TypeNode}
    (blind : ∀ one another, erase one = erase another → erase (f one) = erase (f another)) :
    EqualUpTo erase (graph.modify id f) (other.modify id f) := by
  refine ⟨?_, same.index, same.reserved, fun type => ?_⟩
  · rw [size_modify, size_modify, same.size]
  · rw [node_modify, node_modify, same.ids]
    split
    · exact blind _ _ (same.node type)
    · exact same.node type

theorem modify_of_comm (same : EqualUpTo erase graph other) {f : TypeNode → TypeNode}
    (comm : ∀ node, erase (f node) = f (erase node)) : EqualUpTo erase (graph.modify id f) (other.modify id f) :=
  same.modify fun one another equal => by rw [comm, comm, equal]

/-- A change of what is erased. -/
theorem changed {f : TypeNode → TypeNode} (unseen : ∀ node, erase (f node) = erase node) :
    EqualUpTo erase graph (graph.modify id f) :=
  ⟨(size_modify f).symm, rfl, rfl, fun _ => (node_modify_of_same erase unseen).symm⟩

theorem added {identity : String} {name : ClassName} {kind : TypeKind} {after otherAfter : TypeGraph}
    (same : EqualUpTo erase graph other) (run : graph.addNode identity name kind = .ok (after, id))
    (otherRun : other.addNode identity name kind = .ok (otherAfter, id)) : EqualUpTo erase after otherAfter := by
  have added := (addNode_eq_ok run).2
  have otherAdded := (addNode_eq_ok otherRun).2
  refine ⟨?_, ?_, ?_, fun type => ?_⟩
  · rw [(size_of_addNode run).2, (size_of_addNode otherRun).2, same.size]
  · rw [byIdentity_of_addNode run, byIdentity_of_addNode otherRun, same.index]
  · rw [nestedNames_of_addNode run, nestedNames_of_addNode otherRun, same.reserved]
  · by_cases new : type = id
    · rw [new, added.here, otherAdded.here]
    · rw [added.elsewhere type new, otherAdded.elsewhere type new, same.node]

end EqualUpTo

/-- Graphs that are equal but for the order of subtypes. -/
structure Similar (graph other : TypeGraph) : Prop extends EqualUpTo TypeNode.withoutSubtypes graph other where
  below : ∀ above below, graph.Below above below ↔ other.Below above below

variable {settings : Settings} {graph other : TypeGraph}

namespace Similar

variable {id : TypeId}

theorem refl (graph : TypeGraph) : Similar graph graph := ⟨.refl graph, fun _ _ => Iff.rfl⟩

theorem symm (similar : Similar graph other) : Similar other graph :=
  ⟨similar.toEqualUpTo.symm, fun above below => (similar.below above below).symm⟩

theorem trans {middle : TypeGraph} (first : Similar graph middle) (last : Similar middle other) : Similar graph other :=
  ⟨first.toEqualUpTo.trans last.toEqualUpTo, fun above below => (first.below above below).trans (last.below above below)⟩

theorem name (similar : Similar graph other) (id : TypeId) : (graph.node id).name = (other.node id).name :=
  similar.field TypeNode.name (fun _ => rfl) id

theorem kind (similar : Similar graph other) (id : TypeId) : (graph.node id).kind = (other.node id).kind :=
  similar.field TypeNode.kind (fun _ => rfl) id

theorem alike (similar : Similar graph other) (id : TypeId) : (graph.node id).Alike (other.node id) :=
  ⟨similar.field TypeNode.identity (fun _ => rfl) id, similar.name id, similar.kind id⟩

theorem methods (similar : Similar graph other) (id : TypeId) : (graph.node id).methods = (other.node id).methods :=
  similar.field TypeNode.methods (fun _ => rfl) id

theorem supertypes (similar : Similar graph other) (id : TypeId) :
    (graph.node id).supertypes = (other.node id).supertypes :=
  similar.field TypeNode.supertypes (fun _ => rfl) id

theorem above (similar : Similar graph other) : graph.Above = other.Above := by
  funext below above
  rw [Above, Above, similar.supertypes]

theorem lookup (similar : Similar graph other) (name referencedBy : String) :
    graph.lookup settings name referencedBy = other.lookup settings name referencedBy :=
  lookup_congr similar.ids (fun id => (similar.alike id).identity) similar.kind settings name referencedBy

/-- A change of one node that passes by its subtypes. -/
theorem modify (similar : Similar graph other) {f : TypeNode → TypeNode}
    (blind : ∀ node list, f { node with subtypes := list } = { f node with subtypes := list }) :
    Similar (graph.modify id f) (other.modify id f) := by
  have subtypes : ∀ node, (f node).subtypes = node.subtypes := by
    intro node
    have same : f node = { f node with subtypes := node.subtypes } := blind node node.subtypes
    rw [same]
  refine ⟨similar.toEqualUpTo.modify fun one another same => ?_, fun above below => ?_⟩
  · rw [TypeNode.withoutSubtypes, TypeNode.withoutSubtypes, ← blind, ← blind]
    exact congrArg f same
  · rw [Below, Below, node_modify_of_same TypeNode.subtypes subtypes, node_modify_of_same TypeNode.subtypes subtypes]
    exact similar.below above below

theorem reserve (similar : Similar graph other) (parent : TypeId) (name identity : String) :
    Similar (graph.reserve parent name identity) (other.reserve parent name identity) :=
  ⟨similar.toEqualUpTo.reserve .., similar.below⟩

theorem addSubtype (similar : Similar graph other) (supertype subtype : TypeId) :
    Similar (graph.addSubtype supertype subtype) (other.addSubtype supertype subtype) := by
  have upper : Similar
      (graph.modify supertype fun node => { node with subtypes := Distinct.add node.subtypes subtype })
      (other.modify supertype fun node => { node with subtypes := Distinct.add node.subtypes subtype }) := by
    refine ⟨similar.toEqualUpTo.modify fun _ _ same => same, fun above below => ?_⟩
    have same := similar.below above below
    rw [Below, Below] at same
    rw [Below, Below, node_modify, node_modify, similar.ids]
    split
    · simp only [Distinct.mem_add, same]
    · exact same
  exact upper.modify fun _ _ => rfl

theorem added {identity : String} {name : ClassName} {kind : TypeKind} {after otherAfter : TypeGraph}
    (similar : Similar graph other) (run : graph.addNode identity name kind = .ok (after, id))
    (otherRun : other.addNode identity name kind = .ok (otherAfter, id)) : Similar after otherAfter := by
  refine ⟨similar.toEqualUpTo.added run otherRun, fun above below => ?_⟩
  rw [Below, Below, (addNode_eq_ok run).2.unchanged TypeNode.subtypes rfl,
    (addNode_eq_ok otherRun).2.unchanged TypeNode.subtypes rfl]
  exact similar.below above below

end Similar

theorem withoutSubtypes_modify (graph : TypeGraph) (supertype subtype id : TypeId) :
    ((graph.modify supertype fun node =>
      { node with subtypes := Distinct.add node.subtypes subtype }).node id).withoutSubtypes =
      (graph.node id).withoutSubtypes :=
  node_modify_of_same TypeNode.withoutSubtypes fun _ => rfl

theorem parallel_similar (settings : Settings) : Parallel settings settings id Eq Similar where
  types := rfl
  ids := fun similar => similar.ids
  alike := fun similar => similar.alike
  reserved := fun similar => similar.reserved
  supertypes := fun similar => similar.supertypes
  lookup := fun similar name referencedBy => similar.lookup name referencedBy ▸ .refl Eq _
  addNode := fun similar _ _ _ _ => matches_addNode similar.index similar.size fun _ _ _ => similar.added
  reserve := fun similar => similar.reserve
  addSubtype := fun similar => similar.addSubtype
  addConstant := fun similar _ _ _ => similar.modify fun _ _ => rfl
  addMethod := fun similar _ _ => similar.modify fun _ _ => rfl
  setRoot := fun similar _ => ⟨⟨similar.size, similar.index, similar.reserved, similar.node⟩, similar.below⟩

theorem tokensMatch_similar (parent field : String) (tokens : List String) :
    TokensMatch settings settings Eq Similar parent field tokens := by
  intro graph other id similar _ _
  refine .foldlM (fun indexed _ graph other similar => ?_) similar
  rw [addSlotToken, addSlotToken]
  refine .bind_same _ fun given => .bind_same _ fun usable => ?_
  dsimp only
  rw [similar.field TypeNode.tokens (fun _ => rfl) id]
  split
  · exact .error rfl
  · split
    · exact .error rfl
    · exact .ok (similar.modify fun _ _ => rfl)

theorem matches_addAccessors (similar : Similar graph other) (known : Ancestry) (types : List NodeType) :
    Matches Eq Similar (types.foldlM (addAccessors settings known) graph)
      (types.foldlM (addAccessors settings known) other) := by
  refine .foldlM (fun type _ graph other similar => ?_) similar
  have tokens : ∀ entry ∈ slots type,
      TokensMatch settings settings Eq Similar type.name entry.1.tokenField entry.2.tokens :=
    fun entry _ => tokensMatch_similar _ _ _
  have both := (parallel_similar settings).addAccessors similar rfl tokens known
  rwa [NodeType.redirect_id] at both

end TypeGraph

end TypedTree
