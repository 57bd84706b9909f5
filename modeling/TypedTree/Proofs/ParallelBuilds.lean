import TypedTree.Proofs.BuiltGraphs
import TypedTree.Proofs.RedirectedGrammars

/-! Building side by side. Two graphs that are related stay related while the same is added to both of them, though the
settings may differ and mentions of types may be redirected on one side. -/

namespace TypedTree

open Java (ClassName Ancestry)
open ListEffects (Matches)
open Naming (Names Scheme)

namespace TypeGraph

/-- Related graphs, each with what a step of building returns besides. -/
def RelatedWith {β : Type} (related : TypeGraph → TypeGraph → Prop) (one another : TypeGraph × β) : Prop :=
  related one.1 another.1 ∧ one.2 = another.2

/-- Two ways of building that go on side by side. What the one finds under a name is what the other finds under the name
to use instead. -/
structure Parallel (settings other : Settings) (instead : String → String) (failing : Error → Error → Prop)
    (related : TypeGraph → TypeGraph → Prop) : Prop where
  types : getterType settings = getterType other
  ids : ∀ {graph another}, related graph another → graph.ids = another.ids
  alike : ∀ {graph another}, related graph another → ∀ id, (graph.node id).Alike (another.node id)
  reserved : ∀ {graph another}, related graph another → graph.nestedNames = another.nestedNames
  lookup : ∀ {graph another}, related graph another → ∀ name referencedBy,
    Matches failing Eq (graph.lookup settings name referencedBy) (another.lookup other (instead name) referencedBy)
  addNode : ∀ {graph another}, related graph another → ∀ identity name kind, kind.isNodeType = false →
    Matches failing (RelatedWith related) (graph.addNode identity name kind) (another.addNode identity name kind)
  supertypes : ∀ {graph another}, related graph another → ∀ id, (graph.node id).supertypes = (another.node id).supertypes
  reserve : ∀ {graph another}, related graph another → ∀ parent name identity,
    related (graph.reserve parent name identity) (another.reserve parent name identity)
  addSubtype : ∀ {graph another}, related graph another → ∀ above below,
    related (graph.addSubtype above below) (another.addSubtype above below)
  addConstant : ∀ {graph another}, related graph another → ∀ id name value,
    related (graph.addConstant id name value) (another.addConstant id name value)
  addMethod : ∀ {graph another}, related graph another → ∀ id method,
    related (graph.addMethod id method) (another.addMethod id method)
  setRoot : ∀ {graph another}, related graph another → ∀ id, related (graph.setRoot id) (another.setRoot id)

/-- The tokens of a slot lead to related classes for them, or to no class on either side. -/
def TokensMatch (settings other : Settings) (failing : Error → Error → Prop) (related : TypeGraph → TypeGraph → Prop)
    (parent field : String) (tokens : List String) : Prop :=
  ∀ graph another id, related graph another → graph.Lists id [] → another.Lists id [] →
    Matches failing related (tokens.zipIdx.foldlM (addSlotToken settings parent field id) graph)
      (tokens.zipIdx.foldlM (addSlotToken other parent field id) another)

variable {settings other : Settings} {instead : String → String} {failing : Error → Error → Prop} [Std.Refl failing]
  {related : TypeGraph → TypeGraph → Prop} {graph another : TypeGraph} {parent : TypeId} {type : NodeType} {place : Place}
  {slot : Slot}

/-- Whether a node can be added depends only on the index, and its number on how many there are. -/
theorem matches_addNode {identity : String} {name : ClassName} {kind : TypeKind}
    (index : graph.byIdentity = another.byIdentity) (size : graph.size = another.size)
    (added : ∀ after otherAfter id, graph.addNode identity name kind = .ok (after, id) →
      another.addNode identity name kind = .ok (otherAfter, id) → related after otherAfter) :
    Matches failing (RelatedWith related) (graph.addNode identity name kind) (another.addNode identity name kind) := by
  have free : graph.id? identity = another.id? identity := congrArg (·.get? identity) index
  cases run : graph.addNode identity name kind with
  | error error =>
    rw [TypeGraph.addNode] at run
    split at run
    next taken =>
      cases run
      rw [TypeGraph.addNode, ← free, taken]
      exact .error (Std.Refl.refl _)
    next => cases run
  | ok result =>
    obtain ⟨after, id⟩ := result
    have otherRun : ∃ otherAfter, another.addNode identity name kind = .ok (otherAfter, id) := by
      rw [(size_of_addNode run).1, size, TypeGraph.addNode, ← free, (addNode_eq_ok run).1]
      exact ⟨_, rfl⟩
    obtain ⟨otherAfter, otherRun⟩ := otherRun
    rw [otherRun]
    exact .ok ⟨added _ _ _ run otherRun, rfl⟩

namespace Parallel

theorem addNested (parallel : Parallel settings other instead failing related) (holds : related graph another)
    (parent : TypeId) (name identity : String) {kind : TypeKind} (slot : kind.isNodeType = false) :
    Matches failing (RelatedWith related) (graph.addNested parent name identity kind)
      (another.addNested parent name identity kind) := by
  refine .bind_same _ fun simple => ?_
  rw [reservedBy?, parallel.reserved holds, ← reservedBy?, (parallel.alike holds parent).name]
  cases another.reservedBy? parent simple with
  | none => exact parallel.addNode (parallel.reserve holds ..) _ _ _ slot
  | some owner => exact .error (Std.Refl.refl _)

theorem addTokens (parallel : Parallel settings other instead failing related) (holds : related graph another)
    (tokens : TokensMatch settings other failing related type.name place.tokenField slot.tokens) :
    Matches failing (RelatedWith related) (addTokens settings parent type place slot graph)
      (TypeGraph.addTokens other parent (type.redirect instead) place (slot.redirect instead) another) := by
  rw [TypeGraph.addTokens, TypeGraph.addTokens, Slot.tokens_redirect, NodeType.name_redirect]
  split
  · exact .ok ⟨holds, rfl⟩
  · refine (parallel.addNested holds _ _ _ rfl).remember.bind ?_
    rintro ⟨first, id⟩ ⟨another, _⟩ ⟨⟨holds, rfl⟩, run, otherRun⟩
    exact (tokens _ _ _ holds (lists_addNested run) (lists_addNested otherRun)).bind fun _ _ holds => .ok ⟨holds, rfl⟩

omit [Std.Refl failing] in
/-- What a slot lists is looked up on both sides in turn. -/
theorem addSubtypes_of_names (parallel : Parallel settings other instead failing related) (holds : related graph another)
    (above : TypeId) (names : List String) (referencedBy : String) :
    Matches failing related
      (names.foldlM (fun graph name => do return graph.addSubtype above (← graph.lookup settings name referencedBy)) graph)
      ((names.map instead).foldlM (fun graph name => do
        return graph.addSubtype above (← graph.lookup other name referencedBy)) another) := by
  refine .foldlM_map (fun name _ state another holds => ?_) holds
  refine (parallel.lookup holds _ _).bind ?_
  rintro below _ rfl
  exact .ok (parallel.addSubtype holds _ _)

theorem addInterface (parallel : Parallel settings other instead failing related) (holds : related graph another)
    (tokens : Option TypeId) :
    Matches failing (RelatedWith related) (addInterface settings parent type place slot tokens graph)
      (TypeGraph.addInterface other parent (type.redirect instead) place (slot.redirect instead) tokens another) := by
  refine (parallel.addNested holds _ _ _ rfl).bind ?_
  rintro ⟨first, id⟩ ⟨another, _⟩ ⟨holds, rfl⟩
  rw [Slot.nodeTypes_redirect]
  refine (parallel.addSubtypes_of_names holds _ _ _).bind fun filled another holds => ?_
  cases tokens with
  | none => exact .ok ⟨holds, rfl⟩
  | some token => exact .ok ⟨parallel.addSubtype holds _ _, rfl⟩

theorem addTarget (parallel : Parallel settings other instead failing related) (holds : related graph another)
    (tokens : TokensMatch settings other failing related type.name place.tokenField slot.tokens) (ancestry : Ancestry) :
    Matches failing (RelatedWith related) (addTarget settings ancestry parent type place slot graph)
      (TypeGraph.addTarget other ancestry parent (type.redirect instead) place (slot.redirect instead) another) := by
  rw [TypeGraph.addTarget.eq_def, TypeGraph.addTarget.eq_def, Slot.tokens_redirect, Slot.nodeTypes_redirect]
  -- Neither the number of types nor that of tokens is changed, so both sides get to the same case.
  split
  next name noTokens only =>
    rw [noTokens, only]
    refine (parallel.lookup holds _ _).bind ?_
    rintro target _ rfl
    exact .ok ⟨holds, rfl⟩
  next notSingle =>
    split
    next name noTokens only =>
      obtain ⟨name, only, _⟩ := List.map_eq_singleton_iff.mp only
      exact absurd only (notSingle name noTokens)
    next =>
      refine (parallel.addTokens holds tokens).bind ?_
      rintro ⟨first, tokens⟩ ⟨another, _⟩ ⟨holds, rfl⟩
      have known (one other : TypeGraph × TypeId) (holds : RelatedWith related one other) :
          Matches failing (RelatedWith related) (.ok (one.1, one.2, Ancestry.empty)) (.ok (other.1, other.2, .empty)) :=
        .ok ⟨holds.1, congrArg (·, Ancestry.empty) holds.2⟩
      cases slot.nodeTypes with
      | nil =>
        cases tokens with
        | none => exact (parallel.addInterface holds none).bind known
        | some id => exact .ok ⟨holds, rfl⟩
      | cons => exact (parallel.addInterface holds tokens).bind known

theorem addFieldConstants (parallel : Parallel settings other instead failing related) (holds : related graph another) :
    Matches failing related (graph.addFieldConstants parent place) (another.addFieldConstants parent place) := by
  cases place with
  | children => exact .ok holds
  | field name =>
    exact .bind_same _ fun _ => .bind_same _ fun _ => .ok (parallel.addConstant (parallel.addConstant holds ..) ..)

theorem addAccessor (parallel : Parallel settings other instead failing related) (holds : related graph another)
    (tokens : TokensMatch settings other failing related type.name place.tokenField slot.tokens) (ancestry : Ancestry) :
    Matches failing related (addAccessor settings ancestry parent type graph (place, slot))
      (TypeGraph.addAccessor other ancestry parent (type.redirect instead) another (place, slot.redirect instead)) := by
  rw [TypeGraph.addAccessor, TypeGraph.addAccessor]
  simp only [Slot.isEmpty_types_redirect]
  split
  · exact .error (Std.Refl.refl _)
  · refine (parallel.addFieldConstants holds).bind fun first another holds => .bind_same _ fun getter => ?_
    refine (parallel.addTarget holds tokens ancestry).bind ?_
    rintro ⟨second, target, known⟩ ⟨another, _⟩ ⟨holds, rfl⟩
    have returns : getterType other (slot.redirect instead) = getterType settings slot := by
      rw [← parallel.types]
      rfl
    dsimp only at holds ⊢
    rw [returns, (parallel.alike holds target).name]
    exact .ok (parallel.addMethod holds _ _)

theorem addAccessors (parallel : Parallel settings other instead failing related) (holds : related graph another)
    (own : instead type.name = type.name)
    (tokens : ∀ entry ∈ slots type,
      TokensMatch settings other failing related type.name entry.1.tokenField entry.2.tokens) (ancestry : Ancestry) :
    Matches failing related (addAccessors settings ancestry graph type)
      (TypeGraph.addAccessors other ancestry another (type.redirect instead)) := by
  have found := parallel.lookup holds type.name type.name
  rw [own] at found
  rw [TypeGraph.addAccessors, TypeGraph.addAccessors, slots_redirect]
  refine found.bind ?_
  rintro parent _ rfl
  exact .foldlM_map (fun entry listed _ _ holds => parallel.addAccessor holds (tokens entry listed) ancestry) holds

omit [Std.Refl failing] in
theorem addSubtypes (parallel : Parallel settings other instead failing related) (holds : related graph another)
    (own : instead type.name = type.name) :
    Matches failing related (addSubtypes settings graph type)
      (TypeGraph.addSubtypes other another (type.redirect instead)) := by
  have found := parallel.lookup holds type.name type.name
  rw [own] at found
  have listed : ((type.redirect instead).subtypes.getD []).filter (·.named) =
      ((type.subtypes.getD []).filter (·.named)).map (·.redirect instead) := by
    rw [NodeType.redirect]
    cases type.subtypes <;> simp [List.filter_map, Function.comp_def]
  rw [TypeGraph.addSubtypes, TypeGraph.addSubtypes, listed]
  refine found.bind ?_
  rintro supertype _ rfl
  refine .foldlM_map (fun mention member state another holds => ?_) holds
  rw [TypeMention.name_redirect (List.mem_filter.mp member).2]
  refine (parallel.lookup holds _ _).bind ?_
  rintro below _ rfl
  exact .ok (parallel.addSubtype holds _ _)

omit [Std.Refl failing] in
theorem ancestry (parallel : Parallel settings other instead failing related) (holds : related graph another) :
    graph.ancestry = another.ancestry := by
  apply ancestry_congr
  simp only [directSupertypes, toList_nodes, List.filter_map, List.map_map, Function.comp_def, grammarSupertypes,
    parallel.ids holds, (parallel.alike holds _).kind, (parallel.alike holds _).name, parallel.supertypes holds]

omit [Std.Refl failing] in
theorem addNodeType_redirect (kind : TypeKind) (graph : TypeGraph) (type : NodeType) :
    addNodeType settings kind graph (type.redirect instead) = addNodeType settings kind graph type := by
  simp only [addNodeType, addUnnamedGetter, NodeType.hasFields_redirect]
  rfl

/-- When both sides agree on the node types of a grammar, they build related graphs for it. -/
theorem build (parallel : Parallel settings other instead failing related) {grammar : ValidGrammar}
    (custom : settings.customMethods = other.customMethods)
    (nodes : addNodeType settings = addNodeType other)
    (start : ∀ regular named, grammar.regular.foldlM (addNodeType settings .regular) empty = .ok regular →
      grammar.supertypes.foldlM (addNodeType settings .supertype) regular = .ok named → related named named)
    (own : ∀ name, grammar.Describes name → instead name = name)
    (root : ∀ root, grammar.root = some root → instead root = root)
    (tokens : ∀ type ∈ grammar.regular, ∀ entry ∈ slots type,
      TokensMatch settings other failing related type.name entry.1.tokenField entry.2.tokens) :
    Matches failing related (build settings grammar) (TypeGraph.build other (grammar.redirect instead)) := by
  have checks : checkCustomTypes settings grammar = checkCustomTypes other (grammar.redirect instead) := by
    rw [checkCustomTypes, checkCustomTypes, custom, ValidGrammar.redirect]
    simp [Function.comp_def]
  have typed (kind : TypeKind) (types : List NodeType) (graph : TypeGraph) :
      types.foldlM (addNodeType settings kind) graph =
        (types.map (·.redirect instead)).foldlM (addNodeType other kind) graph := by
    rw [List.foldlM_map]
    simp only [addNodeType_redirect, nodes]
  rw [TypeGraph.build, TypeGraph.build, ← checks]
  refine .bind_same _ fun _ => ?_
  simp only [ValidGrammar.redirect, ← typed]
  refine (Matches.refl failing _).remember.bind ?_
  rintro regular _ ⟨rfl, regularRun, _⟩
  refine (Matches.refl failing _).remember.bind ?_
  rintro named _ ⟨rfl, namedRun, _⟩
  refine Matches.bind (.foldlM_map (fun type member _ _ holds => ?_) (start regular named regularRun namedRun))
    fun snapshot another holds => ?_
  · exact parallel.addSubtypes holds (own type.name (Or.inr (List.mem_map_of_mem member)))
  rw [parallel.ancestry holds]
  refine Matches.bind (.foldlM_map (fun type member _ _ holds => ?_) holds) fun filled another holds => ?_
  · exact parallel.addAccessors holds (own type.name (Or.inl (List.mem_map_of_mem member))) (tokens type member) _
  cases rooted : grammar.root with
  | none => exact .ok holds
  | some name =>
    have found := parallel.lookup holds name "root node"
    rw [root name rooted] at found
    refine found.bind ?_
    rintro id _ rfl
    exact .ok (parallel.setRoot holds id)

/-- When no mention is redirected, both sides build for one grammar. -/
theorem build_id (parallel : Parallel settings other id failing related) {grammar : ValidGrammar}
    (custom : settings.customMethods = other.customMethods)
    (nodes : addNodeType settings = addNodeType other)
    (start : ∀ regular named, grammar.regular.foldlM (addNodeType settings .regular) empty = .ok regular →
      grammar.supertypes.foldlM (addNodeType settings .supertype) regular = .ok named → related named named)
    (tokens : ∀ type ∈ grammar.regular, ∀ entry ∈ slots type,
      TokensMatch settings other failing related type.name entry.1.tokenField entry.2.tokens) :
    Matches failing related (TypeGraph.build settings grammar) (TypeGraph.build other grammar) := by
  have both := parallel.build custom nodes start (fun _ _ => rfl) (fun _ _ => rfl) tokens
  rwa [ValidGrammar.redirect_id] at both

end Parallel

end TypeGraph

end TypedTree
