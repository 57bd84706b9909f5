import TypedTree.Proofs.BuildRuns

/-! What stays as it is while the slots of node types get their getters. All new types are types of slots. They may stand
above types that are there, but not below them, and no name is looked up differently. -/

namespace TypedTree.TypeGraph

open Java (ClassName)

/-- Only types of slots are new, and nothing is changed below the types that are there. What is put above these is new. -/
structure SlotGrowth (before after : TypeGraph) : Prop where
  keeps : Keeps before after
  fresh : ∀ id ∈ after.ids, id ∉ before.ids → (after.node id).kind.isNodeType = false
  subtypes : ∀ id ∈ before.ids, (after.node id).subtypes = (before.node id).subtypes
  tokens : ∀ id ∈ before.ids, (after.node id).tokens = (before.node id).tokens
  supertypes : ∀ id ∈ before.ids, ∃ more, (after.node id).supertypes = (before.node id).supertypes ++ more ∧
    ∀ above ∈ more, above ∉ before.ids

variable {settings : Settings} {base graph after : TypeGraph} {id : TypeId}

/-- A type that is put above others comes last there. -/
private theorem exists_add {supertypes : List TypeId} {above : TypeId} (new : above ∉ base.ids) :
    ∃ more, Distinct.add supertypes above = supertypes ++ more ∧ ∀ other ∈ more, other ∉ base.ids := by
  rw [Distinct.add]
  split
  · exact ⟨[], (List.append_nil _).symm, List.forall_mem_nil _⟩
  · exact ⟨[above], rfl, List.forall_mem_singleton.mpr new⟩

namespace SlotGrowth

theorem refl (graph : TypeGraph) : SlotGrowth graph graph :=
  ⟨.refl graph, fun _ inside absent => absurd inside absent, fun _ _ => rfl, fun _ _ => rfl,
    fun _ _ => ⟨[], (List.append_nil _).symm, List.forall_mem_nil _⟩⟩

/-- Growth goes on with a change that respects what was there at its start. -/
theorem step (growth : SlotGrowth base graph) (keeps : Keeps graph after)
    (fresh : ∀ id ∈ after.ids, id ∉ graph.ids → (after.node id).kind.isNodeType = false)
    (subtypes : ∀ id ∈ base.ids, (after.node id).subtypes = (graph.node id).subtypes)
    (tokens : ∀ id ∈ base.ids, (after.node id).tokens = (graph.node id).tokens)
    (supertypes : ∀ id ∈ base.ids, ∃ more, (after.node id).supertypes = (graph.node id).supertypes ++ more ∧
      ∀ above ∈ more, above ∉ base.ids) : SlotGrowth base after := by
  refine ⟨growth.keeps.trans keeps, fun id inside new => ?_, fun id inside => ?_, fun id inside => ?_, fun id inside => ?_⟩
  · by_cases known : id ∈ graph.ids
    · rw [(keeps.alike id known).kind]
      exact growth.fresh id known new
    · exact fresh id inside known
  · exact (subtypes id inside).trans (growth.subtypes id inside)
  · exact (tokens id inside).trans (growth.tokens id inside)
  · obtain ⟨first, earlier, firstNew⟩ := growth.supertypes id inside
    obtain ⟨last, later, lastNew⟩ := supertypes id inside
    refine ⟨first ++ last, by rw [later, earlier, List.append_assoc], ?_⟩
    exact List.forall_mem_append.mpr ⟨firstNew, lastNew⟩

theorem trans (first : SlotGrowth base graph) (last : SlotGrowth graph after) : SlotGrowth base after := by
  refine first.step last.keeps last.fresh (fun id inside => ?_) (fun id inside => ?_) fun id inside => ?_
  · exact last.subtypes id (first.keeps.ids id inside)
  · exact last.tokens id (first.keeps.ids id inside)
  · obtain ⟨more, split, new⟩ := last.supertypes id (first.keeps.ids id inside)
    exact ⟨more, split, fun above member known => new above member (first.keeps.ids above known)⟩

theorem added (growth : SlotGrowth base graph) {identity : String} {name : ClassName} {kind : TypeKind}
    (slot : kind.isNodeType = false) (added : Added graph (.new identity name kind) after id) : SlotGrowth base after := by
  refine growth.step added.keeps (fun other inside new => ?_) (fun other _ => added.unchanged TypeNode.subtypes rfl other)
    (fun other _ => added.unchanged TypeNode.tokens rfl other) fun other _ => ?_
  · cases ((added.ids other).mp inside).resolve_left new
    rw [added.here]
    exact slot
  · refine ⟨[], ?_, List.forall_mem_nil _⟩
    rw [List.append_nil]
    exact added.unchanged TypeNode.supertypes rfl other

theorem fill (growth : SlotGrowth base graph) {change : TypeNode → TypeNode} {members : List Member}
    (adds : TypeNode.Adds change members) : SlotGrowth base (graph.modify id change) := by
  refine growth.step ⟨fun other inside => by rwa [ids_modify], fun other _ => alike_modify adds.alike other⟩
    (fun other inside new => absurd (ids_modify change ▸ inside) new)
    (fun other _ => node_modify_of_same TypeNode.subtypes adds.subtypes)
    (fun other _ => node_modify_of_same TypeNode.tokens adds.tokens) fun other _ => ?_
  refine ⟨[], ?_, List.forall_mem_nil _⟩
  rw [List.append_nil]
  exact node_modify_of_same TypeNode.supertypes adds.supertypes

theorem addToken (growth : SlotGrowth base graph) (new : id ∉ base.ids) {name token : String} :
    SlotGrowth base (graph.addToken id name token) := by
  refine growth.step ⟨fun other inside => by rwa [TypeGraph.addToken, ids_modify], fun other _ => alike_addToken other⟩
    (fun other inside absent => absurd (ids_modify _ ▸ inside) absent)
    (fun other _ => node_addToken TypeNode.subtypes fun _ _ => rfl) (fun other inside => ?_) fun other _ => ?_
  · rw [TypeGraph.addToken, node_modify, if_neg fun both : other = id ∧ _ => new (both.1 ▸ inside)]
  · refine ⟨[], ?_, List.forall_mem_nil _⟩
    rw [List.append_nil]
    exact node_addToken TypeNode.supertypes fun _ _ => rfl

theorem addSubtype (growth : SlotGrowth base graph) {above : TypeId} (new : above ∉ base.ids) (below : TypeId) :
    SlotGrowth base (graph.addSubtype above below) := by
  refine growth.step ⟨fun other inside => by rwa [ids_addSubtype], fun other _ => alike_addSubtype other⟩
    (fun other inside absent => absurd (ids_addSubtype ▸ inside) absent) (fun other inside => ?_)
    (fun other _ => node_addSubtype TypeNode.tokens (fun _ _ => rfl) fun _ _ => rfl) fun other _ => ?_
  · rw [subtypes_addSubtype, if_neg fun both : other = above ∧ _ => new (both.1 ▸ inside)]
  · rw [supertypes_addSubtype]
    split
    · exact exists_add new
    · exact ⟨[], (List.append_nil _).symm, List.forall_mem_nil _⟩

/-- No node type is new. -/
theorem inside (growth : SlotGrowth graph after) (known : id ∈ after.ids)
    (node : (after.node id).kind.isNodeType = true) : id ∈ graph.ids := by
  apply Decidable.byContradiction
  intro new
  rw [growth.fresh id known new] at node
  cases node

theorem nodeTypeId? (growth : SlotGrowth graph after) (name : String) : after.nodeTypeId? name = graph.nodeTypeId? name := by
  have same : ∀ id ∈ graph.ids, ((after.node id).identity = name ∧ (after.node id).kind.isNodeType = true ↔
      (graph.node id).identity = name ∧ (graph.node id).kind.isNodeType = true) := by
    intro id inside
    have alike := growth.keeps.alike id inside
    rw [alike.identity, alike.kind]
  ext id
  rw [nodeTypeId?_eq_some, nodeTypeId?_eq_some]
  constructor
  · rintro ⟨known, node, first⟩
    have inside := growth.inside known node.2
    refine ⟨inside, (same id inside).mp node, fun earlier less found => first earlier less ?_⟩
    exact (same earlier (mem_ids.mpr (Nat.lt_trans less (mem_ids.mp inside)))).mpr found
  · rintro ⟨inside, node, first⟩
    refine ⟨growth.keeps.ids id inside, (same id inside).mpr node, fun earlier less found => first earlier less ?_⟩
    exact (same earlier (mem_ids.mpr (Nat.lt_trans less (mem_ids.mp inside)))).mp found

theorem lookup (growth : SlotGrowth graph after) (settings : Settings) (name referencedBy : String) :
    after.lookup settings name referencedBy = graph.lookup settings name referencedBy := by
  have same : after.nodeTypeId? = graph.nodeTypeId? := funext growth.nodeTypeId?
  rw [TypeGraph.lookup, TypeGraph.lookup, resolve?, resolve?, same]

end SlotGrowth

/-- Slots are given types, and no type is given a method. -/
structure Prepares (before after : TypeGraph) : Prop extends SlotGrowth before after where
  methods : ∀ id, (after.node id).methods = (before.node id).methods

namespace Prepares

theorem refl (graph : TypeGraph) : Prepares graph graph := ⟨.refl graph, fun _ => rfl⟩

theorem trans (first : Prepares base graph) (last : Prepares graph after) : Prepares base after :=
  ⟨first.toSlotGrowth.trans last.toSlotGrowth, fun id => (last.methods id).trans (first.methods id)⟩

theorem added (prepares : Prepares base graph) {identity : String} {name : ClassName} {kind : TypeKind}
    (slot : kind.isNodeType = false) (added : Added graph (.new identity name kind) after id) : Prepares base after :=
  ⟨prepares.toSlotGrowth.added slot added, fun id => (added.unchanged TypeNode.methods rfl id).trans (prepares.methods id)⟩

theorem addConstant (prepares : Prepares base graph) (name : String) (value : Option String) :
    Prepares base (graph.addConstant id name value) := by
  refine ⟨prepares.toSlotGrowth.fill (TypeNode.adds_constant name value), fun other => ?_⟩
  exact (node_modify_of_same TypeNode.methods (fun _ => by rfl)).trans (prepares.methods other)

theorem addToken (prepares : Prepares base graph) (new : id ∉ base.ids) {name token : String} :
    Prepares base (graph.addToken id name token) :=
  ⟨prepares.toSlotGrowth.addToken new,
    fun other => (node_addToken TypeNode.methods fun _ _ => rfl).trans (prepares.methods other)⟩

theorem addSubtype (prepares : Prepares base graph) {above : TypeId} (new : above ∉ base.ids) (below : TypeId) :
    Prepares base (graph.addSubtype above below) :=
  ⟨prepares.toSlotGrowth.addSubtype new below,
    fun other => (node_addSubtype TypeNode.methods (fun _ _ => rfl) fun _ _ => rfl).trans (prepares.methods other)⟩

end Prepares

end TypedTree.TypeGraph
