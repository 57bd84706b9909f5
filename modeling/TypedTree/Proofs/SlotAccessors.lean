import TypedTree.Proofs.SlotGrowth

/-! What the getters of a node type return. Each slot has a getter, and the class of what the getter returns covers just
what the grammar lists for the slot: the node of a single node type, a class for tokens, or an interface for several
types. What is built for other slots later does not change this. -/

namespace TypedTree

open Java (ClassName JavaType Ancestry)
open ListEffects (bind_eq_ok foldlM_invariant)

namespace Slot

variable {slot : Slot}

theorem tokens_eq_nil : slot.tokens = [] ↔ ∀ mention ∈ slot.types, mention.named = true := by
  simp [tokens]

theorem nodeTypes_eq_nil : slot.nodeTypes = [] ↔ ∀ mention ∈ slot.types, mention.named = false := by
  simp [nodeTypes]

theorem types_eq_nil : slot.types = [] ↔ slot.tokens = [] ∧ slot.nodeTypes = [] := by
  rw [tokens_eq_nil, nodeTypes_eq_nil]
  constructor
  · intro none
    simp [none]
  · intro ⟨named, unnamed⟩
    apply List.eq_nil_iff_forall_not_mem.mpr
    intro mention member
    exact absurd ((named mention member).symm.trans (unnamed mention member)) (by decide)

/-- A slot for one node type only. -/
theorem types_eq_singleton {name : String} : slot.types = [⟨name, true⟩] ↔ slot.tokens = [] ∧ slot.nodeTypes = [name] := by
  constructor
  · intro single
    simp [tokens, nodeTypes, single]
  · rintro ⟨named, single⟩
    rw [nodeTypes, List.filter_eq_self.mpr (tokens_eq_nil.mp named)] at single
    obtain ⟨mention, only, rfl⟩ := List.map_eq_singleton_iff.mp single
    have all := tokens_eq_nil.mp named mention (by simp [only])
    rw [only, ← all]

end Slot

theorem ValidGrammar.StandsFor.unique {grammar : ValidGrammar} {fallback : Table String String} {name one other : String}
    (first : grammar.StandsFor fallback name one) (second : grammar.StandsFor fallback name other) : one = other := by
  rcases first with ⟨described, rfl⟩ | ⟨absent, instead, _⟩
  · rcases second with ⟨_, same⟩ | ⟨absent, _⟩
    · exact same.symm
    · exact absurd described absent
  · rcases second with ⟨described, _⟩ | ⟨_, again, _⟩
    · exact absurd described absent
    · exact Option.some.inj (instead.symm.trans again)

namespace TypeGraph

/-- The node of the type that a name of the grammar stands for. -/
structure Resolves (settings : Settings) (grammar : ValidGrammar) (graph : TypeGraph) (name : String) (id : TypeId) :
    Prop where
  inside : id ∈ graph.ids
  node : (graph.node id).kind.isNodeType = true
  stands : grammar.StandsFor settings.fallbackTypes name (graph.node id).identity

/-- A class for some tokens, which has them in their order. -/
structure Tokenizes (graph : TypeGraph) (tokens : List String) (id : TypeId) : Prop where
  inside : id ∈ graph.ids
  kind : (graph.node id).kind = .tokens
  texts : (graph.node id).tokens.map (·.token) = tokens

/-- The interface of a slot, and what is below it. -/
structure Gathers (graph : TypeGraph) (members : TypeId → Prop) (id : TypeId) : Prop where
  inside : id ∈ graph.ids
  kind : (graph.node id).kind = .childTypes
  below : ∀ lower, graph.Below id lower ↔ members lower

/-- Below the interface of a slot are the nodes that the names in the slot stand for, which are all there, and one class
for its tokens if it has any. -/
def Collects (settings : Settings) (grammar : ValidGrammar) (graph : TypeGraph) (slot : Slot) (id : TypeId) : Prop :=
  (∀ name ∈ slot.nodeTypes, ∃ lower, Resolves settings grammar graph name lower) ∧
  ∃ tokens : Option TypeId, (tokens = none ↔ slot.tokens = []) ∧
    (∀ lower, tokens = some lower → graph.Tokenizes slot.tokens lower) ∧
    graph.Gathers (fun lower => (∃ name ∈ slot.nodeTypes, Resolves settings grammar graph name lower) ∨ tokens = some lower) id

/-- The node for what a slot lists. -/
structure Covers (settings : Settings) (grammar : ValidGrammar) (graph : TypeGraph) (slot : Slot) (id : TypeId) : Prop where
  listed : slot.types ≠ []
  single : ∀ name, slot.types = [⟨name, true⟩] → Resolves settings grammar graph name id
  tokens : (∀ mention ∈ slot.types, mention.named = false) → graph.Tokenizes slot.tokens id
  several : (∀ name, slot.types ≠ [⟨name, true⟩]) → (∃ mention ∈ slot.types, mention.named = true) →
    Collects settings grammar graph slot id

/-- What a getter returns for a slot whose elements have some class. -/
structure Returns (settings : Settings) (slot : Slot) (element : ClassName) (type : JavaType) : Prop where
  list : slot.multiple = true → slot.required = false → type = .parameterized [] (javaUtil "List") [.ofClass element]
  nonEmpty : slot.multiple = true → slot.required = true →
    type = .parameterized [settings.nonEmpty] (javaUtil "List") [.ofClass element]
  one : slot.multiple = false → slot.required = true → type = .ofClass element
  marked : slot.multiple = false → slot.required = false → ∀ label, settings.nullable = some label →
    type = .classType [label] element
  optional : slot.multiple = false → slot.required = false → settings.nullable = none →
    type = .parameterized [] (javaUtil "Optional") [.ofClass element]

/-- The getter of a slot. -/
structure Accessor (settings : Settings) (grammar : ValidGrammar) (graph : TypeGraph) (entry : Place × Slot)
    (method : Method) : Prop where
  kind : method.kind = entry.1.methodKind entry.2
  signature : method.signature = .getter (entry.1.getter entry.2.multiple)
  returns : ∃ target returns, Covers settings grammar graph entry.2 target ∧ method.returns = some returns ∧
    Returns settings entry.2 (graph.node target).name returns.type

variable {settings : Settings} {grammar : ValidGrammar} {base graph after : TypeGraph} {id parent : TypeId} {name : String}
  {tokens : List String} {slot : Slot} {entry : Place × Slot} {method : Method}

theorem returns_getterType (settings : Settings) (slot : Slot) (element : ClassName) :
    Returns settings slot element (getterType settings slot (.ofClass element)) := by
  constructor
  · intro multiple optional
    simp [getterType, multiple, optional]
  · intro multiple required
    simp [getterType, multiple, required]
  · intro single required
    simp [getterType, single, required]
  · intro single optional label nullable
    simp [getterType, single, optional, nullable, JavaType.annotate, JavaType.ofClass, JavaType.mapAnnotations]
  · intro single optional none
    simp [getterType, single, optional, none]

theorem Resolves.identity (resolves : Resolves settings grammar graph name id) (described : grammar.Describes name) :
    (graph.node id).identity = name := resolves.stands.unique (Or.inl ⟨described, rfl⟩)

theorem TypeOf.resolves (typeOf : TypeOf graph .regular name id) (described : grammar.Describes name) :
    Resolves settings grammar graph name id :=
  ⟨typeOf.inside, congrArg TypeKind.isNodeType typeOf.kind, Or.inl ⟨described, typeOf.identity⟩⟩

theorem Resolves.grow_iff (growth : SlotGrowth graph after) :
    Resolves settings grammar after name id ↔ Resolves settings grammar graph name id := by
  constructor
  · rintro ⟨known, node, stands⟩
    have inside := growth.inside known node
    have alike := growth.keeps.alike id inside
    exact ⟨inside, alike.kind ▸ node, alike.identity ▸ stands⟩
  · rintro ⟨inside, node, stands⟩
    have alike := growth.keeps.alike id inside
    exact ⟨growth.keeps.ids id inside, alike.kind.symm ▸ node, alike.identity.symm ▸ stands⟩

theorem Tokenizes.grow (tokenizes : graph.Tokenizes tokens id) (growth : SlotGrowth graph after) :
    after.Tokenizes tokens id := by
  obtain ⟨inside, kind, texts⟩ := tokenizes
  refine ⟨growth.keeps.ids id inside, (growth.keeps.alike id inside).kind.trans kind, ?_⟩
  rw [growth.tokens id inside, texts]

theorem Gathers.congr {members others : TypeId → Prop} (gathers : graph.Gathers members id)
    (same : ∀ lower, members lower ↔ others lower) : graph.Gathers others id :=
  ⟨gathers.inside, gathers.kind, fun lower => (gathers.below lower).trans (same lower)⟩

theorem Gathers.grow {members : TypeId → Prop} (gathers : graph.Gathers members id) (growth : SlotGrowth graph after) :
    after.Gathers members id := by
  obtain ⟨inside, kind, below⟩ := gathers
  refine ⟨growth.keeps.ids id inside, (growth.keeps.alike id inside).kind.trans kind, fun lower => ?_⟩
  rw [← below, Below, growth.subtypes id inside]
  rfl

theorem Gathers.addSubtype {members : TypeId → Prop} (gathers : graph.Gathers members id) (lower : TypeId) :
    (graph.addSubtype id lower).Gathers (fun other => members other ∨ other = lower) id := by
  obtain ⟨inside, kind, below⟩ := gathers
  refine ⟨by rwa [ids_addSubtype], (alike_addSubtype id).kind.trans kind, fun other => ?_⟩
  rw [mem_subtypes_addSubtype inside, below]
  simp

theorem Collects.grow (collects : Collects settings grammar graph slot id) (growth : SlotGrowth graph after) :
    Collects settings grammar after slot id := by
  obtain ⟨resolved, tokens, present, tokenizes, gathers⟩ := collects
  simp only [← Resolves.grow_iff growth] at resolved gathers
  exact ⟨resolved, tokens, present, fun lower same => (tokenizes lower same).grow growth, gathers.grow growth⟩

theorem Covers.inside (covers : Covers settings grammar graph slot id) : id ∈ graph.ids := by
  by_cases only : ∀ mention ∈ slot.types, mention.named = false
  · exact (covers.tokens only).inside
  · by_cases single : ∃ name, slot.types = [⟨name, true⟩]
    · obtain ⟨name, single⟩ := single
      exact (covers.single name single).inside
    · obtain ⟨_, _, _, _, gathers⟩ := covers.several (not_exists.mp single) (by simpa using only)
      exact gathers.inside

theorem Covers.grow (covers : Covers settings grammar graph slot id) (growth : SlotGrowth graph after) :
    Covers settings grammar after slot id := by
  refine ⟨covers.listed, fun name single => ?_, fun only => ?_, fun other named => ?_⟩
  · exact (Resolves.grow_iff growth).mpr (covers.single name single)
  · exact (covers.tokens only).grow growth
  · exact (covers.several other named).grow growth

theorem Accessor.grow (accessor : Accessor settings grammar graph entry method) (growth : SlotGrowth graph after) :
    Accessor settings grammar after entry method := by
  obtain ⟨kind, signature, target, returns, covers, returned, type⟩ := accessor
  refine ⟨kind, signature, target, returns, covers.grow growth, returned, ?_⟩
  rwa [(growth.keeps.alike target covers.inside).name]

/-- Names are looked up as the grammar means them. -/
structure Resolving (settings : Settings) (grammar : ValidGrammar) (graph : TypeGraph) : Prop where
  lookup : ∀ {name referencedBy id}, graph.lookup settings name referencedBy = .ok id →
    Resolves settings grammar graph name id
  unique : ∀ {name one other}, Resolves settings grammar graph name one → Resolves settings grammar graph name other →
    one = other

theorem resolving_of_formed (formed : Formed settings grammar graph) (complete : Complete grammar graph) :
    Resolving settings grammar graph := by
  constructor
  · intro name referencedBy id found
    obtain ⟨inside, node, stands⟩ := standsFor_of_lookup formed complete found
    exact ⟨inside, node, stands⟩
  · intro name one other first second
    exact formed.unique one first.inside other second.inside (first.stands.unique second.stands)

theorem Resolving.grow (resolving : Resolving settings grammar graph) (growth : SlotGrowth graph after) :
    Resolving settings grammar after := by
  constructor
  · intro name referencedBy id found
    rw [growth.lookup] at found
    exact (Resolves.grow_iff growth).mpr (resolving.lookup found)
  · intro name one other first second
    exact resolving.unique ((Resolves.grow_iff growth).mp first) ((Resolves.grow_iff growth).mp second)

variable {owner field : String} {place : Place} {type : NodeType} {tokenClass : Option TypeId}

theorem Tokenizes.addToken (tokenizes : graph.Tokenizes tokens id) (name token : String) :
    (graph.addToken id name token).Tokenizes (tokens ++ [token]) id := by
  obtain ⟨inside, kind, texts⟩ := tokenizes
  refine ⟨by rwa [TypeGraph.addToken, ids_modify], (alike_addToken id).kind.trans kind, ?_⟩
  rw [TypeGraph.addToken, node_modify, if_pos ⟨rfl, inside⟩, List.map_append, texts]
  rfl

/-- The tokens of a slot get a class of their own, if there are any. -/
theorem prepares_addTokens (run : addTokens settings parent type place slot graph = .ok (after, tokenClass)) :
    Prepares graph after ∧ (tokenClass = none ↔ slot.tokens = []) ∧
      ∀ id, tokenClass = some id → after.Tokenizes slot.tokens id := by
  rw [addTokens] at run
  split at run
  next none =>
    cases run
    refine ⟨.refl graph, iff_of_true rfl (List.isEmpty_iff.mp none), fun id absent => ?_⟩
    cases absent
  next some =>
    obtain ⟨⟨first, id⟩, nested, run⟩ := bind_eq_ok.mp run
    obtain ⟨filled, folded, run⟩ := bind_eq_ok.mp run
    cases run
    obtain ⟨_, added⟩ := added_of_addNested nested
    have start : first.Tokenizes [] id := by
      refine ⟨(added.ids id).mpr (Or.inr rfl), ?_, ?_⟩
      · rw [added.here]
        rfl
      · rw [added.here]
        rfl
    have done : Prepares graph after ∧ after.Tokenizes (slot.tokens.zipIdx.map Prod.fst) id := by
      refine foldlM_invariant (fun done state => Prepares graph state ∧ state.Tokenizes (done.map Prod.fst) id)
        ⟨(Prepares.refl graph).added rfl added, start⟩ ?_ folded
      intro done indexed state next _ kept step
      obtain ⟨name, _, _, _, rfl⟩ := addSlotToken_eq_ok step
      rw [List.map_append]
      exact ⟨kept.1.addToken added.number, kept.2.addToken name indexed.1⟩
    rw [List.zipIdx_map_fst] at done
    refine ⟨done.1, iff_of_false (Option.some_ne_none id) fun none => some (List.isEmpty_iff.mpr none), fun other same => ?_⟩
    cases same
    exact done.2

/-- The interface of a slot gets what the slot lists as its subtypes. -/
theorem prepares_addInterface (resolving : Resolving settings grammar graph)
    (present : tokenClass = none ↔ slot.tokens = [])
    (tokenizes : ∀ id, tokenClass = some id → graph.Tokenizes slot.tokens id)
    (run : addInterface settings parent type place slot tokenClass graph = .ok (after, id)) :
    Prepares graph after ∧ Collects settings grammar after slot id := by
  obtain ⟨⟨first, interface⟩, nested, run⟩ := bind_eq_ok.mp run
  obtain ⟨filled, folded, run⟩ := bind_eq_ok.mp run
  obtain ⟨_, added⟩ := added_of_addNested nested
  have start : first.Gathers (fun lower => ∃ name ∈ [], Resolves settings grammar graph name lower) interface := by
    refine ⟨(added.ids interface).mpr (Or.inr rfl), ?_, fun lower => ?_⟩
    · rw [added.here]
      rfl
    · simp [Below, added.here, TypeNode.new]
  have done : Prepares graph filled ∧ (∀ name ∈ slot.nodeTypes, ∃ lower, Resolves settings grammar graph name lower) ∧
      filled.Gathers (fun lower => ∃ name ∈ slot.nodeTypes, Resolves settings grammar graph name lower) interface := by
    refine foldlM_invariant (fun done state => Prepares graph state ∧
      (∀ name ∈ done, ∃ lower, Resolves settings grammar graph name lower) ∧
      state.Gathers (fun lower => ∃ name ∈ done, Resolves settings grammar graph name lower) interface)
      ⟨(Prepares.refl graph).added rfl added, List.forall_mem_nil _, start⟩ ?_ folded
    intro done name state next _ kept step
    obtain ⟨prepares, resolved, gathers⟩ := kept
    obtain ⟨lower, found, step⟩ := bind_eq_ok.mp step
    cases step
    rw [prepares.lookup] at found
    have here := resolving.lookup found
    have both := List.forall_mem_append.mpr ⟨resolved, List.forall_mem_singleton.mpr ⟨lower, here⟩⟩
    refine ⟨prepares.addSubtype added.number lower, both, (gathers.addSubtype lower).congr fun other => ?_⟩
    have only : other = lower ↔ Resolves settings grammar graph name other :=
      ⟨fun same => same ▸ here, fun again => resolving.unique again here⟩
    simp [only, or_and_right, exists_or]
  obtain ⟨prepares, resolved, gathers⟩ := done
  cases tokenClass with
  | none =>
    cases run
    simp only [← Resolves.grow_iff prepares.toSlotGrowth] at resolved gathers
    refine ⟨prepares, resolved, none, present, fun lower absent => ?_, gathers.congr fun lower => by simp⟩
    cases absent
  | some token =>
    cases run
    have prepares := prepares.addSubtype added.number token
    have gathers := gathers.addSubtype token
    simp only [← Resolves.grow_iff prepares.toSlotGrowth] at resolved gathers
    refine ⟨prepares, resolved, some token, present, fun lower same => (tokenizes lower same).grow prepares.toSlotGrowth, ?_⟩
    exact gathers.congr fun lower => by simp only [Option.some.injEq, eq_comm]

theorem prepares_addTarget (resolving : Resolving settings grammar graph) (listed : slot.types ≠ [])
    {known result : Ancestry} (run : addTarget settings known parent type place slot graph = .ok (after, id, result)) :
    Prepares graph after ∧ Covers settings grammar after slot id := by
  cases targets_of_addTarget run with
  | @single name _ noTokens only found =>
    have single : slot.types = [⟨name, true⟩] := Slot.types_eq_singleton.mpr ⟨noTokens, only⟩
    refine ⟨.refl graph, listed, fun other again => ?_, fun unnamed => ?_, fun several => absurd single (several name)⟩
    · cases single.symm.trans again
      exact resolving.lookup found
    · rw [Slot.nodeTypes_eq_nil.mpr unnamed] at only
      cases only
  | tokens noNodes added =>
    obtain ⟨prepares, present, tokenizes⟩ := prepares_addTokens added
    refine ⟨prepares, listed, fun name single => ?_, fun _ => tokenizes id rfl, fun _ ⟨mention, member, named⟩ => ?_⟩
    · rw [(Slot.types_eq_singleton.mp single).2] at noNodes
      cases noNodes
    · rw [Slot.nodeTypes_eq_nil.mp noNodes mention member] at named
      cases named
  | several notSingle mixed added interface =>
    obtain ⟨prepares, present, tokenizes⟩ := prepares_addTokens added
    obtain ⟨more, collects⟩ := prepares_addInterface (resolving.grow prepares.toSlotGrowth) present tokenizes interface
    refine ⟨prepares.trans more, listed, fun name single => ?_, fun unnamed => ?_, fun _ _ => collects⟩
    · obtain ⟨noTokens, only⟩ := Slot.types_eq_singleton.mp single
      exact absurd only (notSingle name noTokens)
    · have noNodes := Slot.nodeTypes_eq_nil.mpr unnamed
      exact absurd (Slot.types_eq_nil.mpr ⟨present.mp (mixed noNodes), noNodes⟩) listed

theorem prepares_addFieldConstants (run : graph.addFieldConstants parent place = .ok after) : Prepares graph after := by
  cases place with
  | children =>
    cases run
    exact .refl graph
  | field name =>
    obtain ⟨_, rfl⟩ := addFieldConstants_eq_ok run
    exact ((Prepares.refl graph).addConstant _ _).addConstant _ _

/-- A type is given methods, and the others keep those that they have. -/
structure Attaches (graph : TypeGraph) (parent : TypeId) (methods : List Method) (after : TypeGraph) : Prop where
  keeps : Keeps graph after
  methods : ∀ id, (after.node id).methods = (graph.node id).methods ++ if id = parent then methods else []

theorem Attaches.refl (graph : TypeGraph) (parent : TypeId) : graph.Attaches parent [] graph :=
  ⟨.refl graph, fun _ => by simp⟩

theorem Attaches.trans {middle : TypeGraph} {methods more : List Method} (first : graph.Attaches parent methods middle)
    (last : middle.Attaches parent more after) : graph.Attaches parent (methods ++ more) after := by
  refine ⟨first.keeps.trans last.keeps, fun id => ?_⟩
  rw [last.methods, first.methods, List.append_assoc]
  split <;> rfl

theorem attaches_modify (inside : parent ∈ graph.ids) {change : TypeNode → TypeNode} {members : List Member}
    {methods : List Method} (adds : TypeNode.Adds change members)
    (gains : ∀ node, (change node).methods = node.methods ++ methods) :
    graph.Attaches parent methods (graph.modify parent change) := by
  refine ⟨⟨fun id known => by rwa [ids_modify], fun id _ => alike_modify adds.alike id⟩, fun id => ?_⟩
  rw [node_modify]
  by_cases here : id = parent
  · rw [if_pos ⟨here, inside⟩, if_pos here, gains]
  · rw [if_neg (fun both => here both.1), if_neg here, List.append_nil]

theorem Attaches.fill {methods more : List Method} (attaches : graph.Attaches parent methods after)
    (inside : parent ∈ graph.ids) {change : TypeNode → TypeNode} {members : List Member}
    (adds : TypeNode.Adds change members) (gains : ∀ node, (change node).methods = node.methods ++ more) :
    graph.Attaches parent (methods ++ more) (after.modify parent change) :=
  attaches.trans (attaches_modify (attaches.keeps.ids parent inside) adds gains)

theorem growth_addAccessor (resolving : Resolving settings grammar graph) (inside : parent ∈ graph.ids) {known : Ancestry}
    (run : addAccessor settings known parent type graph entry = .ok after) :
    SlotGrowth graph after ∧ ∃ method, Accessor settings grammar after entry method ∧ graph.Attaches parent [method] after := by
  obtain ⟨place, slot⟩ := entry
  obtain ⟨listed, first, second, target, ancestry, constants, added, same⟩ := addAccessor_eq_ok run
  have start := prepares_addFieldConstants constants
  obtain ⟨more, covers⟩ := prepares_addTarget (resolving.grow start.toSlotGrowth) listed added
  have prepares := start.trans more
  let method : Method := ⟨place.methodKind slot, .getter (place.getter slot.multiple),
    some ⟨getterType settings slot (.ofClass (second.node target).name), ancestry⟩⟩
  have adds : TypeNode.Adds (fun node => { node with methods := node.methods ++ [method] }) [.getter method.key] := by
    apply TypeNode.adds_getter
    cases place <;> simp [method, Place.methodKind]
  have filled : SlotGrowth second (second.addMethod parent method) := (SlotGrowth.refl second).fill adds
  rw [same]
  refine ⟨prepares.toSlotGrowth.trans filled, method, ⟨rfl, rfl, target, _, covers.grow filled, rfl, ?_⟩, ?_, fun id => ?_⟩
  · rw [(filled.keeps.alike target covers.inside).name]
    exact returns_getterType settings slot _
  · exact prepares.keeps.trans filled.keeps
  · rw [← prepares.methods]
    exact (attaches_modify (prepares.keeps.ids parent inside) adds fun _ => rfl).methods id

theorem growth_addAccessors (resolving : Resolving settings grammar graph) {known : Ancestry}
    (run : addAccessors settings known graph type = .ok after) :
    SlotGrowth graph after ∧ ∃ parent getters, Resolves settings grammar graph type.name parent ∧
      List.Forall₂ (Accessor settings grammar after) (slots type) getters ∧ graph.Attaches parent getters after := by
  obtain ⟨parent, found, run⟩ := bind_eq_ok.mp run
  have resolved := resolving.lookup found
  have done : SlotGrowth graph after ∧ ∃ getters,
      List.Forall₂ (Accessor settings grammar after) (slots type) getters ∧ graph.Attaches parent getters after := by
    refine foldlM_invariant (fun done state => SlotGrowth graph state ∧
      ∃ getters, List.Forall₂ (Accessor settings grammar state) done getters ∧ graph.Attaches parent getters state)
      ⟨.refl graph, [], .nil, .refl graph parent⟩ ?_ run
    intro done entry state next _ kept step
    obtain ⟨growth, getters, accessors, attaches⟩ := kept
    obtain ⟨more, method, accessor, attached⟩ :=
      growth_addAccessor (resolving.grow growth) (growth.keeps.ids parent resolved.inside) step
    refine ⟨growth.trans more, getters ++ [method], ?_, attaches.trans attached⟩
    exact List.rel_append (accessors.imp fun _ _ accessor => accessor.grow more) (.cons accessor .nil)
  obtain ⟨growth, getters, accessors, attaches⟩ := done
  exact ⟨growth, parent, getters, resolved, accessors, attaches⟩

/-- The getters of the slots of some node types change nothing for the nodes of others. -/
theorem growth_of_accessors (resolving : Resolving settings grammar graph) {known : Ancestry} {types : List NodeType}
    (run : types.foldlM (addAccessors settings known) graph = .ok after) :
    SlotGrowth graph after ∧ ∀ id, (∀ type ∈ types, ¬ Resolves settings grammar graph type.name id) →
      (after.node id).methods = (graph.node id).methods := by
  refine foldlM_invariant (fun done state => SlotGrowth graph state ∧
    ∀ id, (∀ type ∈ done, ¬ Resolves settings grammar graph type.name id) →
      (state.node id).methods = (graph.node id).methods) ⟨.refl graph, fun _ _ => rfl⟩ ?_ run
  intro done type state next _ ⟨growth, same⟩ step
  obtain ⟨more, parent, getters, resolved, _, attaches⟩ := growth_addAccessors (resolving.grow growth) step
  refine ⟨growth.trans more, fun id others => ?_⟩
  obtain ⟨earlier, last⟩ := List.forall_mem_append.mp others
  have different : id ≠ parent := fun here =>
    last type (List.mem_singleton_self type) (here ▸ (Resolves.grow_iff growth).mp resolved)
  rw [attaches.methods, if_neg different, List.append_nil, same id earlier]

theorem Stages.resolving {named snapshot filled : TypeGraph}
    (stages : Stages settings grammar named snapshot filled graph) : Resolving settings grammar snapshot := by
  obtain ⟨steps, complete⟩ := stages.steps_snapshot
  exact resolving_of_formed (steps.formed formed_empty) complete

/-- The root may be marked in the end. -/
theorem Stages.prepares_last {named snapshot filled : TypeGraph}
    (stages : Stages settings grammar named snapshot filled graph) : Prepares filled graph := by
  rcases stages.last with rfl | ⟨root, _, rfl⟩
  · exact .refl graph
  · have same := Prepares.refl filled
    exact ⟨⟨⟨same.keeps.ids, same.keeps.alike⟩, same.fresh, same.subtypes, same.tokens, same.supertypes⟩, same.methods⟩

/-- Once the edges between node types are there, only the types of slots are added. -/
theorem Stages.growth {named snapshot filled : TypeGraph}
    (stages : Stages settings grammar named snapshot filled graph) : SlotGrowth snapshot graph :=
  (growth_of_accessors stages.resolving stages.accessors).1.trans stages.prepares_last.toSlotGrowth

end TypeGraph

end TypedTree
