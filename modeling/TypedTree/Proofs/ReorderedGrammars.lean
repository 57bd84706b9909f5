import TypedTree.Proofs.SimilarGraphs
import TypedTree.Proofs.BuildRuns
import TypedTree.Proofs.ValidGrammars

/-! Grammars that differ in the order of subtypes. What is built for them is similar, and it knows the same of
supertypes. -/

namespace TypedTree

open ListEffects (Agrees bind_eq_ok foldlM_invariant)

/-- The same node type, with its subtypes in any order. -/
inductive NodeType.Reordered (type : NodeType) : NodeType → Prop
  | regular (plain : type.subtypes = none) : Reordered type type
  | supertype {listed others : List TypeMention} (super : type.subtypes = some listed) (order : listed.Perm others) :
      Reordered type { type with subtypes := some others }

def Grammar.Reordered (grammar other : Grammar) : Prop :=
  List.Forall₂ NodeType.Reordered grammar.nodeTypes other.nodeTypes

structure ValidGrammar.Reordered (grammar other : ValidGrammar) : Prop where
  regular : grammar.regular = other.regular
  supertypes : List.Forall₂ NodeType.Reordered grammar.supertypes other.supertypes

namespace NodeType

variable {type other : NodeType}

theorem Reordered.field {β : Type} (reordered : type.Reordered other) (field : NodeType → β)
    (blind : ∀ type list, field { type with subtypes := list } = field type) : field type = field other := by
  cases reordered with
  | regular => rfl
  | supertype => exact (blind type _).symm

theorem Reordered.isSupertype (reordered : type.Reordered other) : type.isSupertype = other.isSupertype := by
  cases reordered with
  | regular => rfl
  | supertype super => rw [NodeType.isSupertype, super]; rfl

theorem Reordered.mem_subtypes (reordered : type.Reordered other) {mention : TypeMention} :
    mention ∈ type.subtypes.getD [] ↔ mention ∈ other.subtypes.getD [] := by
  cases reordered with
  | regular => rfl
  | supertype super order => rw [super]; exact order.mem_iff

end NodeType

namespace Grammar

variable {grammar other : Grammar}

private theorem filter_reordered {types others : List NodeType} (pairs : List.Forall₂ NodeType.Reordered types others)
    {test : NodeType → Bool} (same : ∀ type other : NodeType, type.Reordered other → test type = test other) :
    List.Forall₂ NodeType.Reordered (types.filter test) (others.filter test) :=
  List.rel_filter (fun type other pair => iff_of_eq (congrArg (· = true) (same type other pair))) pairs

theorem Reordered.namedNodes (reordered : grammar.Reordered other) :
    List.Forall₂ NodeType.Reordered grammar.namedNodes other.namedNodes :=
  filter_reordered reordered fun _ _ pair => pair.field NodeType.named fun _ _ => rfl

theorem Reordered.typeNames (reordered : grammar.Reordered other) : grammar.typeNames = other.typeNames := by
  rw [Grammar.typeNames, Grammar.typeNames, ← List.forall₂_eq_eq_eq, List.forall₂_map_left_iff,
    List.forall₂_map_right_iff]
  exact reordered.namedNodes.imp fun _ _ pair => pair.field NodeType.name fun _ _ => rfl

theorem Reordered.valid (reordered : grammar.Reordered other) {requested : Option String}
    {valid otherValid : ValidGrammar} (validated : grammar.validate requested = .ok valid)
    (otherValidated : other.validate requested = .ok otherValid) : valid.Reordered otherValid := by
  have parts := parts_of_validate validated
  have otherParts := parts_of_validate otherValidated
  constructor
  · have pairs : List.Forall₂ NodeType.Reordered valid.regular otherValid.regular := by
      rw [parts.plain, otherParts.plain]
      exact filter_reordered reordered.namedNodes fun _ _ pair => congrArg not pair.isSupertype
    have plain : ∀ type ∈ valid.regular, type.isSupertype = false := fun type member => by
      rw [parts.plain] at member
      simpa using (List.mem_filter.mp member).2
    rw [← List.forall₂_eq_eq_eq]
    refine ((List.forall₂_and_left _ _).mpr ⟨plain, pairs⟩).imp fun type otherType ⟨plain, pair⟩ => ?_
    cases pair with
    | regular => rfl
    | supertype super => rw [NodeType.isSupertype, super] at plain; cases plain
  · rw [parts.super, otherParts.super]
    exact filter_reordered reordered.namedNodes fun _ _ pair => pair.isSupertype

end Grammar

namespace TypeGraph

variable {settings : Settings} {graph other : TypeGraph} {type otherType : NodeType}

theorem addNodeType_of_reordered (reordered : type.Reordered otherType) (kind : TypeKind) :
    addNodeType settings kind graph type = addNodeType settings kind graph otherType :=
  reordered.field (addNodeType settings kind graph) fun _ _ => rfl

/-- Some mention of a type stands for a node. -/
def Mentioned (settings : Settings) (graph : TypeGraph) (referencedBy : String) (mentions : List TypeMention)
    (id : TypeId) : Prop := ∃ mention ∈ mentions, graph.lookup settings mention.name referencedBy = .ok id

/-- The nodes that are mentioned got a supertype, and it got them as subtypes. -/
structure Linked (settings : Settings) (before : TypeGraph) (referencedBy : String) (supertype : TypeId)
    (mentions : List TypeMention) (after : TypeGraph) : Prop where
  size : after.size = before.size
  index : after.byIdentity = before.byIdentity
  reserved : after.nestedNames = before.nestedNames
  mentioned : ∀ id, Mentioned settings before referencedBy mentions id →
    (after.node id).withoutSubtypes = ((before.node id).raise supertype).withoutSubtypes
  others : ∀ id, ¬ Mentioned settings before referencedBy mentions id →
    (after.node id).withoutSubtypes = (before.node id).withoutSubtypes
  below : ∀ above below, after.Below above below ↔
    before.Below above below ∨ above = supertype ∧ Mentioned settings before referencedBy mentions below

variable {after : TypeGraph} {referencedBy : String} {supertype : TypeId} {mentions : List TypeMention}

theorem Linked.field {β : Type} (linked : Linked settings graph referencedBy supertype mentions after)
    (field : TypeNode → β) (blind : ∀ node, field node.withoutSubtypes = field node)
    (raised : ∀ node, field (node.raise supertype) = field node) (id : TypeId) :
    field (after.node id) = field (graph.node id) := by
  by_cases mentioned : Mentioned settings graph referencedBy mentions id
  · rw [← blind, linked.mentioned id mentioned, blind, raised]
  · rw [← blind, linked.others id mentioned, blind]

theorem Linked.lookup (linked : Linked settings graph referencedBy supertype mentions after)
    (name reference : String) : after.lookup settings name reference = graph.lookup settings name reference :=
  lookup_congr (by rw [ids, ids, linked.size]) (linked.field TypeNode.identity (fun _ => rfl) fun _ => rfl)
    (linked.field TypeNode.kind (fun _ => rfl) fun _ => rfl) settings name reference

theorem withoutSubtypes_addSubtype {subtype id : TypeId} (inside : subtype ∈ graph.ids) :
    ((graph.addSubtype supertype subtype).node id).withoutSubtypes =
      if id = subtype then ((graph.node id).raise supertype).withoutSubtypes else (graph.node id).withoutSubtypes := by
  have unseen := withoutSubtypes_modify graph supertype subtype id
  rw [addSubtype, node_modify]
  simp only [ids_modify, inside, and_true]
  split
  · exact congrArg (TypeNode.raise supertype) unseen
  · exact unseen

theorem linked_refl (graph : TypeGraph) : Linked settings graph referencedBy supertype [] graph := by
  have nothing : ∀ id, ¬ Mentioned settings graph referencedBy [] id := fun _ ⟨_, member, _⟩ => nomatch member
  refine ⟨rfl, rfl, rfl, fun id mentioned => absurd mentioned (nothing id), fun _ _ => rfl, fun above below => ?_⟩
  simp [nothing]

theorem Linked.step {mention : TypeMention} {subtype : TypeId} (upper : supertype ∈ graph.ids)
    (linked : Linked settings graph referencedBy supertype mentions after)
    (found : after.lookup settings mention.name referencedBy = .ok subtype) :
    Linked settings graph referencedBy supertype (mentions ++ [mention]) (after.addSubtype supertype subtype) := by
  have lower := lookup_inside found
  have upper : supertype ∈ after.ids := by rwa [ids, linked.size]
  rw [linked.lookup] at found
  have mentioned : ∀ id, Mentioned settings graph referencedBy (mentions ++ [mention]) id ↔
      Mentioned settings graph referencedBy mentions id ∨ id = subtype := by
    intro id
    simp [Mentioned, or_and_right, exists_or, found, eq_comm]
  refine ⟨?_, linked.index, linked.reserved, fun id both => ?_, fun id neither => ?_, fun above below => ?_⟩
  · rw [addSubtype, size_modify, size_modify, linked.size]
  · rw [withoutSubtypes_addSubtype lower]
    by_cases before : Mentioned settings graph referencedBy mentions id
    · have raised := linked.mentioned id before
      split
      · exact (congrArg (TypeNode.raise supertype) raised).trans (congrArg TypeNode.withoutSubtypes (TypeNode.raise_raise _))
      · exact raised
    · rw [if_pos (((mentioned id).mp both).resolve_left before)]
      exact congrArg (TypeNode.raise supertype) (linked.others id before)
  · obtain ⟨before, different⟩ := not_or.mp (mt (mentioned id).mpr neither)
    rw [withoutSubtypes_addSubtype lower, if_neg different, linked.others id before]
  · rw [mem_subtypes_addSubtype upper, linked.below, mentioned, or_assoc, ← and_or_left]

theorem linked_of_addSubtypes (run : addSubtypes settings graph type = .ok after) :
    ∃ supertype, graph.lookup settings type.name type.name = .ok supertype ∧
      Linked settings graph type.name supertype ((type.subtypes.getD []).filter (·.named)) after := by
  obtain ⟨supertype, found, run⟩ := bind_eq_ok.mp run
  refine ⟨supertype, found, foldlM_invariant
    (fun done state => Linked settings graph type.name supertype done state) (linked_refl graph) ?_ run⟩
  intro done mention state next _ linked step
  obtain ⟨subtype, there, step⟩ := bind_eq_ok.mp step
  cases step
  exact linked.step (lookup_inside found) there

/-- Subtypes in another order are linked to the same supertype. -/
theorem agrees_addSubtypes (similar : Similar graph other) (reordered : type.Reordered otherType) :
    Agrees Similar (addSubtypes settings graph type) (addSubtypes settings other otherType) := by
  intro after otherAfter run otherRun
  obtain ⟨supertype, found, linked⟩ := linked_of_addSubtypes run
  obtain ⟨otherSupertype, otherFound, otherLinked⟩ := linked_of_addSubtypes otherRun
  have name : type.name = otherType.name := reordered.field NodeType.name fun _ _ => rfl
  rw [← name, ← similar.lookup] at otherFound
  cases found.symm.trans otherFound
  have mentioned : ∀ id, Mentioned settings graph type.name ((type.subtypes.getD []).filter (·.named)) id ↔
      Mentioned settings other otherType.name ((otherType.subtypes.getD []).filter (·.named)) id := by
    intro id
    simp only [Mentioned, List.mem_filter, reordered.mem_subtypes, name, similar.lookup]
  refine ⟨⟨?_, ?_, ?_, fun id => ?_⟩, fun above below => ?_⟩
  · rw [linked.size, otherLinked.size, similar.size]
  · rw [linked.index, otherLinked.index, similar.index]
  · rw [linked.reserved, otherLinked.reserved, similar.reserved]
  · by_cases both : Mentioned settings graph type.name ((type.subtypes.getD []).filter (·.named)) id
    · rw [linked.mentioned id both, otherLinked.mentioned id ((mentioned id).mp both)]
      exact congrArg (TypeNode.raise supertype) (similar.node id)
    · rw [linked.others id both, otherLinked.others id (mt (mentioned id).mpr both), similar.node]
  · rw [linked.below, otherLinked.below, similar.below, mentioned]

variable {grammar otherGrammar : ValidGrammar} {named snapshot filled otherNamed otherSnapshot otherFilled : TypeGraph}

theorem Stages.similar_filled (stages : Stages settings grammar named snapshot filled graph) :
    Similar filled graph := by
  rcases stages.last with rfl | ⟨_, _, rfl⟩
  · exact .refl _
  · exact ⟨⟨rfl, rfl, rfl, fun _ => rfl⟩, fun _ _ => Iff.rfl⟩

/-- The edges between node types are similar in both graphs, and so is all that is built upon them. -/
theorem similar_of_stages (reordered : grammar.Reordered otherGrammar)
    (stages : Stages settings grammar named snapshot filled graph)
    (otherStages : Stages settings otherGrammar otherNamed otherSnapshot otherFilled other) :
    Similar snapshot otherSnapshot ∧ Similar graph other := by
  obtain ⟨regular, regularRun, namedRun⟩ := stages.nodes
  obtain ⟨otherRegular, otherRegularRun, otherNamedRun⟩ := otherStages.nodes
  rw [← reordered.regular] at otherRegularRun
  cases regularRun.symm.trans otherRegularRun
  have nodes : Agrees Eq (grammar.supertypes.foldlM (addNodeType settings .supertype) regular)
      (otherGrammar.supertypes.foldlM (addNodeType settings .supertype) regular) := by
    refine .foldlM reordered.supertypes (fun type otherType _ pair state otherState same => ?_) rfl
    rw [same, addNodeType_of_reordered pair]
    exact .refl _
  obtain rfl := nodes _ _ namedRun otherNamedRun
  have edges : Similar snapshot otherSnapshot :=
    Agrees.foldlM reordered.supertypes (fun _ _ _ pair _ _ similar => agrees_addSubtypes similar pair) (.refl named)
      _ _ stages.edges otherStages.edges
  have accessors := otherStages.accessors
  rw [← reordered.regular, ← (parallel_similar settings).ancestry edges] at accessors
  have members : Similar filled otherFilled :=
    (matches_addAccessors edges _ _).agrees _ _ stages.accessors accessors
  exact ⟨edges, (stages.similar_filled.symm.trans members).trans otherStages.similar_filled⟩

end TypeGraph

end TypedTree
