import TypedTree.Proofs.HoistingSafety
import TypedTree.Proofs.SlotAccessors

/-! The methods of the class of a node type, in their order: the getter of all children if there are no fields, the custom
methods, and the getters of the slots. -/

namespace TypedTree

open Java (JavaType Ancestry)
open ListEffects (bind_eq_ok exists_ok_of_map foldlM_invariant)

namespace NodeType

/-- The getter of all children, typed or not, which only node types without fields have. -/
def unnamedGetters (settings : Settings) (type : NodeType) : List Method :=
  if type.hasFields then []
  else
    [⟨.unnamedChildren, .getter "getUnnamedChildren",
      some ⟨.parameterized [] (javaUtil "List") [.ofClass settings.nodeClass], .empty⟩⟩]

/-- The custom methods of a node type, as they are configured. -/
def Customizes (settings : Settings) (type : NodeType) (customs : List CustomMethod) : Prop :=
  List.Forall₂ (fun description custom => description.toMethod = .ok custom)
    ((settings.customMethods.nodeTypes.get? type.name).getD []) customs

end NodeType

namespace TypeGraph

variable {settings : Settings} {grammar : ValidGrammar} {graph after : TypeGraph} {id : TypeId} {type : NodeType}
  {kind : TypeKind}

/-- Nodes that are there keep their methods. -/
structure Rests (before after : TypeGraph) : Prop where
  keeps : Keeps before after
  methods : ∀ id ∈ before.ids, (after.node id).methods = (before.node id).methods

theorem Rests.refl (graph : TypeGraph) : Rests graph graph := ⟨.refl graph, fun _ _ => rfl⟩

theorem Rests.trans {before middle after : TypeGraph} (first : Rests before middle) (last : Rests middle after) :
    Rests before after :=
  ⟨first.keeps.trans last.keeps,
    fun id inside => (last.methods id (first.keeps.ids id inside)).trans (first.methods id inside)⟩

theorem attaches_addCustomMethods (inside : id ∈ graph.ids)
    (run : graph.addCustomMethods settings id type.name = .ok after) :
    ∃ customs, type.Customizes settings customs ∧ graph.Attaches id (customs.map (·.method)) after := by
  obtain ⟨customs, described, run⟩ := bind_eq_ok.mp run
  refine ⟨customs, ListEffects.forall₂_of_mapM_eq_ok described, ?_⟩
  refine foldlM_invariant (fun done state => graph.Attaches id (done.map (·.method)) state) (.refl graph id) ?_ run
  intro done custom state next member attaches step
  obtain ⟨_, _, step⟩ := bind_eq_ok.mp step
  cases step
  obtain ⟨description, _, converted⟩ := ListEffects.mem_of_mapM_eq_ok described member
  have kind := kind_of_toMethod converted
  rw [List.map_append]
  exact attaches.fill inside (TypeNode.adds_custom kind) fun _ => rfl

theorem attaches_addUnnamedGetter (settings : Settings) (type : NodeType) (inside : id ∈ graph.ids) :
    graph.Attaches id (type.unnamedGetters settings) (graph.addUnnamedGetter settings id type) := by
  rw [addUnnamedGetter, NodeType.unnamedGetters, Naming.Scheme.unnamedChildrenGetter?]
  cases type.hasFields with
  | true => exact .refl graph id
  | false => exact attaches_modify inside (TypeNode.adds_getter (by simp)) fun _ => rfl

/-- A node type gets a new node, which is given its methods. -/
theorem attaches_addNodeType (run : addNodeType settings kind graph type = .ok after) :
    ∃ className first id customs, graph.addNode type.name className kind = .ok (first, id) ∧
      type.Customizes settings customs ∧
      first.Attaches id ((if kind = .regular then type.unnamedGetters settings else []) ++ customs.map (·.method)) after := by
  obtain ⟨className, _, run⟩ := bind_eq_ok.mp run
  obtain ⟨⟨first, id⟩, addition, run⟩ := bind_eq_ok.mp run
  have inside : id ∈ first.ids := ((addNode_eq_ok addition).2.ids id).mpr (Or.inr rfl)
  have constants : first.Attaches id [] (((first.setExtra id type.extra).addConstant id
      Naming.Scheme.typeNameConstant (some type.name)).addConstant id Naming.Scheme.typeIdConstant none) := by
    have extra := (Attaches.refl first id).fill inside (TypeNode.adds_extra type.extra) fun _ => (List.append_nil _).symm
    have name := extra.fill inside (TypeNode.adds_constant Naming.Scheme.typeNameConstant (some type.name))
      fun _ => (List.append_nil _).symm
    exact name.fill inside (TypeNode.adds_constant Naming.Scheme.typeIdConstant none) fun _ => (List.append_nil _).symm
  refine ⟨.topLevel settings.package className, first, id, ?_⟩
  dsimp only at run
  split at run
  next regular =>
    rw [if_pos regular]
    have given := constants.trans (attaches_addUnnamedGetter settings type (constants.keeps.ids id inside))
    obtain ⟨customs, customizes, attaches⟩ := attaches_addCustomMethods (given.keeps.ids id inside) run
    exact ⟨customs, addition, customizes, given.trans attaches⟩
  next other =>
    rw [if_neg other]
    obtain ⟨customs, customizes, attaches⟩ := attaches_addCustomMethods (constants.keeps.ids id inside) run
    exact ⟨customs, addition, customizes, constants.trans attaches⟩

theorem rests_addNodeType (run : addNodeType settings kind graph type = .ok after) : Rests graph after := by
  obtain ⟨className, first, id, customs, addition, _, attaches⟩ := attaches_addNodeType run
  have added := (addNode_eq_ok addition).2
  refine ⟨added.keeps.trans attaches.keeps, fun other inside => ?_⟩
  have different : other ≠ id := fun same => added.number (same ▸ inside)
  rw [attaches.methods, if_neg different, List.append_nil, added.old inside]

theorem rests_addSubtypes (run : addSubtypes settings graph type = .ok after) : Rests graph after := by
  obtain ⟨supertype, _, run⟩ := bind_eq_ok.mp run
  refine foldlM_invariant (fun _ state => Rests graph state) (.refl graph) ?_ run
  intro done mention state next _ rests step
  obtain ⟨subtype, _, step⟩ := bind_eq_ok.mp step
  cases step
  refine rests.trans ⟨⟨fun id inside => by rwa [ids_addSubtype], fun id _ => alike_addSubtype id⟩, fun id _ => ?_⟩
  exact node_addSubtype TypeNode.methods (fun _ _ => rfl) fun _ _ => rfl

/-- What a node type has before its slots are looked at. -/
structure Starts (settings : Settings) (graph : TypeGraph) (type : NodeType) (id : TypeId) : Prop where
  typeOf : TypeOf graph .regular type.name id
  methods : ∃ customs, type.Customizes settings customs ∧
    (graph.node id).methods = type.unnamedGetters settings ++ customs.map (·.method)

theorem Starts.rest (starts : Starts settings graph type id) (rests : Rests graph after) : Starts settings after type id := by
  obtain ⟨typeOf, customs, customizes, methods⟩ := starts
  exact ⟨typeOf.keep rests.keeps, customs, customizes, (rests.methods id typeOf.inside).trans methods⟩

/-- A node type has a name that was free, and its new node. -/
theorem starts_addNodeType (run : addNodeType settings .regular graph type = .ok after) :
    graph.id? type.name = none ∧ ∃ id, Starts settings after type id := by
  obtain ⟨className, first, id, customs, addition, customizes, attaches⟩ := attaches_addNodeType run
  obtain ⟨free, added⟩ := addNode_eq_ok addition
  have typeOf : TypeOf first .regular type.name id := by
    refine ⟨(added.ids id).mpr (Or.inr rfl), ?_, ?_⟩
    · rw [added.here]
      rfl
    · rw [added.here]
      rfl
  refine ⟨free, id, typeOf.keep attaches.keeps, customs, customizes, ?_⟩
  rw [attaches.methods, added.here, if_pos rfl]
  rfl

/-- Node types have names of their own, and each has its node. -/
theorem starts_of_nodeTypes (grammar : ValidGrammar) {types : List NodeType} (listed : ∀ type ∈ types, type.name ∈ grammar.names .regular)
    (run : types.foldlM (addNodeType settings .regular) empty = .ok graph) :
    (types.map (·.name)).Nodup ∧ ∀ type ∈ types, ∃ id, Starts settings graph type id := by
  have done : (∃ all, Steps settings grammar empty all graph) ∧ (types.map (·.name)).Nodup ∧
      ∀ type ∈ types, ∃ id, Starts settings graph type id := by
    refine foldlM_invariant (fun done state => (∃ all, Steps settings grammar empty all state) ∧
      (done.map (·.name)).Nodup ∧ ∀ type ∈ done, ∃ id, Starts settings state type id)
      ⟨⟨[], .refl⟩, List.nodup_nil, List.forall_mem_nil _⟩ ?_ run
    intro done type state next member kept step
    obtain ⟨⟨all, steps⟩, distinct, starts⟩ := kept
    obtain ⟨free, new⟩ := starts_addNodeType step
    obtain ⟨_, extension⟩ := extends_addNodeType (listed type member) step
    refine ⟨⟨_, steps.trans extension.steps⟩, ?_, List.forall_mem_append.mpr ⟨fun other known => ?_, ?_⟩⟩
    · apply Distinct.nodup_map_concat distinct
      intro other known same
      obtain ⟨id, start⟩ := starts other known
      have indexed := (steps.formed formed_empty).indexed
      exact indexed.identity_ne_of_free free start.typeOf.inside (start.typeOf.identity.trans same)
    · obtain ⟨id, start⟩ := starts other known
      exact ⟨id, start.rest (rests_addNodeType step)⟩
    · exact List.forall_mem_singleton.mpr new
  exact done.2

/-- The class of a node type has a getter of all children if the type has no fields, its custom methods, a getter if it
has children, and one for each field. -/
structure Owns (settings : Settings) (grammar : ValidGrammar) (graph : TypeGraph) (type : NodeType) (id : TypeId) :
    Prop where
  typeOf : TypeOf graph .regular type.name id
  methods : ∃ customs children fields, type.Customizes settings customs ∧
    List.Forall₂ (fun slot getter => Accessor settings grammar graph (.children, slot) getter)
      type.children.toList children ∧
    List.Forall₂ (fun (field : String × Slot) getter => Accessor settings grammar graph (.field field.1, field.2) getter)
      type.fieldSlots fields ∧
    (graph.node id).methods = type.unnamedGetters settings ++ customs.map (·.method) ++ children ++ fields

theorem exists_getters_of_slots {getters : List Method}
    (accessors : List.Forall₂ (Accessor settings grammar graph) (slots type) getters) :
    ∃ children fields, getters = children ++ fields ∧
      List.Forall₂ (fun slot getter => Accessor settings grammar graph (.children, slot) getter)
        type.children.toList children ∧
      List.Forall₂ (fun (field : String × Slot) getter => Accessor settings grammar graph (.field field.1, field.2) getter)
        type.fieldSlots fields := by
  rw [slots] at accessors
  cases present : type.children with
  | none =>
    rw [present] at accessors
    exact ⟨[], getters, rfl, .nil, List.forall₂_map_left_iff.mp accessors⟩
  | some slot =>
    rw [present] at accessors
    obtain ⟨getter, fields, first, others, rfl⟩ := List.forall₂_cons_left_iff.mp accessors
    exact ⟨[getter], fields, rfl, .cons first .nil, List.forall₂_map_left_iff.mp others⟩

theorem Stages.starts {named snapshot filled : TypeGraph}
    (stages : Stages settings grammar named snapshot filled graph) :
    (grammar.regular.map (·.name)).Nodup ∧ ∀ type ∈ grammar.regular, ∃ id, Starts settings snapshot type id := by
  obtain ⟨regular, regularRun, namedRun⟩ := stages.nodes
  obtain ⟨distinct, starts⟩ := starts_of_nodeTypes grammar (fun type => List.mem_map_of_mem) regularRun
  have supertypes : Rests regular named := foldlM_invariant (fun _ state => Rests regular state) (.refl regular)
    (fun _ _ _ _ _ rests step => rests.trans (rests_addNodeType step)) namedRun
  have edges : Rests named snapshot := foldlM_invariant (fun _ state => Rests named state) (.refl named)
    (fun _ _ _ _ _ rests step => rests.trans (rests_addSubtypes step)) stages.edges
  refine ⟨distinct, fun type member => ?_⟩
  obtain ⟨id, start⟩ := starts type member
  exact ⟨id, start.rest (supertypes.trans edges)⟩

theorem Stages.exists_owns {named snapshot filled : TypeGraph} (stages : Stages settings grammar named snapshot filled graph)
    (member : type ∈ grammar.regular) : ∃ id, Owns settings grammar graph type id := by
  obtain ⟨distinct, starts⟩ := stages.starts
  obtain ⟨id, typeOf, customs, customizes, start⟩ := starts type member
  have resolving := stages.resolving
  obtain ⟨before, later, split⟩ := List.append_of_mem member
  have run := stages.accessors
  rw [split] at run
  obtain ⟨first, second, beforeRun, here, laterRun⟩ := ListEffects.exists_of_foldlM_split run
  rw [split, List.map_append, List.map_cons, List.nodup_middle, List.nodup_cons, List.mem_append, not_or] at distinct
  obtain ⟨⟨notBefore, notLater⟩, _⟩ := distinct
  have described : ∀ {other : NodeType}, other ∈ grammar.regular → grammar.Describes other.name :=
    fun known => Or.inl (List.mem_map_of_mem known)
  have resolved : Resolves settings grammar snapshot type.name id := typeOf.resolves (described member)
  have others : ∀ types : List NodeType, (∀ other ∈ types, other ∈ grammar.regular) →
      type.name ∉ types.map (·.name) → ∀ other ∈ types, ¬ Resolves settings grammar snapshot other.name id := by
    intro types listed absent other known again
    apply absent
    rw [← typeOf.identity, again.identity (described (listed other known))]
    exact List.mem_map_of_mem known
  obtain ⟨growth, same⟩ := growth_of_accessors resolving beforeRun
  obtain ⟨more, parent, getters, found, accessors, attaches⟩ := growth_addAccessors (resolving.grow growth) here
  have growthHere := growth.trans more
  obtain ⟨last, sameLast⟩ := growth_of_accessors (resolving.grow growthHere) laterRun
  cases resolving.unique resolved ((Resolves.grow_iff growth).mp found)
  have rest : SlotGrowth second graph := last.trans stages.prepares_last.toSlotGrowth
  obtain ⟨children, fields, rfl, childAccessors, fieldAccessors⟩ := exists_getters_of_slots accessors
  refine ⟨id, typeOf.keep (growthHere.trans rest).keeps, customs, children, fields, customizes,
    childAccessors.imp fun _ _ accessor => accessor.grow rest, fieldAccessors.imp fun _ _ accessor => accessor.grow rest, ?_⟩
  have untouched : (first.node id).methods = (snapshot.node id).methods :=
    same id (others before (fun other known => split ▸ List.mem_append_left _ known) notBefore)
  have untouchedLast : (filled.node id).methods = (second.node id).methods := by
    apply sameLast
    intro other known again
    exact others later (fun other known => split ▸ List.mem_append_right _ (List.mem_cons_of_mem _ known)) notLater other known
      ((Resolves.grow_iff growthHere).mp again)
  rw [stages.prepares_last.methods, untouchedLast, attaches.methods, if_pos rfl, untouched, start]
  simp only [List.append_assoc]

/-- The classes of node types have the methods that the grammar and the settings ask for, in this order: a getter of all
children if there are no fields, custom methods, and a getter for each slot. What the getter of a slot returns covers just
what the slot lists. -/
theorem methods_of_build (settings : Settings) (grammar : ValidGrammar) (graph : TypeGraph)
    (built : build settings grammar = .ok graph) :
    (∀ type ∈ grammar.regular, ∃ id, Owns settings grammar graph type id) ∧
      ∀ id ∈ graph.ids, (graph.node id).kind = .regular → ∃ type ∈ grammar.regular, Owns settings grammar graph type id := by
  obtain ⟨named, snapshot, filled, stages⟩ := exists_stages built
  refine ⟨fun type member => stages.exists_owns member, fun id inside regular => ?_⟩
  have formed := (steps_of_build built).reached.formed
  have listed := formed.described id inside (congrArg TypeKind.isNodeType regular)
  rw [regular] at listed
  obtain ⟨type, member, same⟩ := List.mem_map.mp listed
  obtain ⟨owner, owns⟩ := stages.exists_owns member
  cases formed.unique owner owns.typeOf.inside id inside (owns.typeOf.identity.trans same)
  exact ⟨type, member, owns⟩

/-- Loops can be run. They count to a number, may be marked by a word, and test several things. -/
def loops : ValidGrammar where
  regular := [describe "name" [] none, describe "number" [] none,
    { name := "loop"
      named := true
      extra := false
      root := false
      fields := some <| .ofList [("count", ⟨false, true, [⟨"number", true⟩]⟩),
        ("mark", ⟨false, false, [⟨"while", false⟩, ⟨"until", false⟩]⟩),
        ("test", ⟨true, true, [⟨"name", true⟩, ⟨"not", false⟩, ⟨"literal", true⟩]⟩)]
      children := some ⟨true, false, [⟨"name", true⟩, ⟨"loop", true⟩]⟩
      subtypes := none }]
  supertypes := []
  root := none

def loopSettings : Settings :=
  { Config.default.settings .automatic ⟨loops.regular⟩ with
    fallbackTypes := .ofList [("literal", "number")]
    customMethods := ⟨.ofList [("loop", [⟨"run", [], .empty, some "void", none, none⟩])]⟩ }

/-- Names and numbers have no fields. -/
theorem methods_of_build_loops :
    ∃ graph, build loopSettings loops = .ok graph ∧
      (graph.ids.filter fun id => (graph.node id).kind = .regular).map (fun id =>
          (graph.node id).methods.map (·.text)) =
        [["java.util.List<io.github.treesitter.jtreesitter.Node> getUnnamedChildren()"],
          ["java.util.List<io.github.treesitter.jtreesitter.Node> getUnnamedChildren()"],
          ["void run()", "java.util.List<org.example.treesitter.NodeLoop.Child> getChildren()",
            "org.example.treesitter.NodeNumber getFieldCount()",
            "java.util.Optional<org.example.treesitter.NodeLoop.FieldTokenMark> getFieldMark()",
            "@org.example.treesitter.NonEmpty java.util.List<org.example.treesitter.NodeLoop.FieldTest> getFieldTest()"]] ∧
      (∀ type ∈ loops.regular, ∃ id, Owns loopSettings loops graph type id) ∧
      ∀ id ∈ graph.ids, (graph.node id).kind = .regular → ∃ type ∈ loops.regular, Owns loopSettings loops graph type id := by
  have texts : (build loopSettings loops).toOption.map (fun graph =>
      (graph.ids.filter fun id => (graph.node id).kind = .regular).map fun id => (graph.node id).methods.map (·.text)) =
        some [["java.util.List<io.github.treesitter.jtreesitter.Node> getUnnamedChildren()"],
          ["java.util.List<io.github.treesitter.jtreesitter.Node> getUnnamedChildren()"],
          ["void run()", "java.util.List<org.example.treesitter.NodeLoop.Child> getChildren()",
            "org.example.treesitter.NodeNumber getFieldCount()",
            "java.util.Optional<org.example.treesitter.NodeLoop.FieldTokenMark> getFieldMark()",
            "@org.example.treesitter.NonEmpty java.util.List<org.example.treesitter.NodeLoop.FieldTest> getFieldTest()"]] := by
    decide +kernel
  obtain ⟨graph, built, told⟩ := exists_ok_of_map texts
  exact ⟨graph, built, told, methods_of_build loopSettings loops graph built⟩

end TypeGraph

end TypedTree
