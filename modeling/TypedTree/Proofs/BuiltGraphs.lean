import TypedTree.Proofs.BuildRuns
import TypedTree.Proofs.ClassAssignment
import TypedTree.Proofs.KnownSupertypes

/-! The graphs that are built for grammars are valid. Their classes are distinct, since those of node types are, and each
of these keeps a name for one nested class only. -/

namespace TypedTree.TypeGraph

open Java (ClassName JavaType Ancestry)
open ListEffects (bind_eq_ok foldlM_invariant)

/-- The raw class of getters that do not return an element as it is. -/
def fixedRaw? : MethodKind → Option ClassName
  | .custom => none
  | .children multiple _ => some (javaUtil (if multiple then "List" else "Optional"))
  | .field _ multiple _ => some (javaUtil (if multiple then "List" else "Optional"))
  | .unnamedChildren => none

/-- A return type knows nothing of supertypes, unless its method is the getter of a slot. Then its raw class is
the one of its kind, and there is nothing to be known if it knows nothing. -/
structure TrustedReturn (known : Ancestry) (kind : MethodKind) (returns : ReturnType) : Prop where
  source : returns.ancestry = .empty ∧
      (fixedRaw? kind ≠ none → ∀ opening ∈ returns.type.openings, known.choices opening = [opening]) ∨
    returns.ancestry = known ∧ fixedRaw? kind ≠ none
  raw : ∀ fixed, fixedRaw? kind = some fixed → ∀ annotations own arguments,
    returns.type = .parameterized annotations own arguments → own = fixed

def Trusted (known : Ancestry) (method : Method) : Prop :=
  ∀ returns, method.returns = some returns → TrustedReturn known method.kind returns

variable {settings : Settings} {known : Ancestry} {graph after : TypeGraph}

/-- No two node types are assigned the same class. -/
def DistinctClasses (settings : Settings) : Prop :=
  ∀ one other name, settings.names.className one = .ok name → settings.names.className other = .ok name → one = other

theorem distinctClasses_of_names {scheme : Naming.Scheme} {types : List String}
    (names : settings.names = Naming.Names.forTypes scheme types) : DistinctClasses settings := by
  intro one other name first second
  rw [names] at first second
  exact Naming.className_injective first second

namespace Formed

variable {grammar : ValidGrammar} {id one other : TypeId}

theorem topLevel (formed : Formed settings grammar graph) (inside : id ∈ graph.ids)
    (kind : (graph.node id).kind.isNodeType = true) :
    ∃ simple, settings.names.className (graph.node id).identity = .ok simple ∧
      (graph.node id).name = .topLevel settings.package simple := by
  cases formed.placed id inside with
  | nodeType simple _ assigned name => exact ⟨simple, assigned, name⟩
  | nested _ _ slot =>
    rw [kind] at slot
    cases slot

theorem names_ne_nil (formed : Formed settings grammar graph) (inside : id ∈ graph.ids) :
    (graph.node id).name.names ≠ [] := by
  cases formed.placed id inside with
  | nodeType simple _ _ name =>
    rw [name]
    exact List.cons_ne_nil _ _
  | nested _ _ _ _ _ _ _ _ name =>
    rw [name]
    exact List.append_ne_nil_of_right_ne_nil _ (List.cons_ne_nil _ _)

theorem eq_of_nodeTypes (formed : Formed settings grammar graph) (distinct : DistinctClasses settings)
    (first : one ∈ graph.ids) (second : other ∈ graph.ids) (kind : (graph.node one).kind.isNodeType = true)
    (otherKind : (graph.node other).kind.isNodeType = true) (same : (graph.node one).name = (graph.node other).name) :
    one = other := by
  obtain ⟨simple, assigned, name⟩ := formed.topLevel first kind
  obtain ⟨otherSimple, otherAssigned, otherName⟩ := formed.topLevel second otherKind
  rw [name, otherName] at same
  cases same
  exact formed.unique one first other second (distinct _ _ _ assigned otherAssigned)

/-- The class of a type tells the type. The name of a nested class has the class around it, which reserves the rest of
the name for one type. -/
theorem named (formed : Formed settings grammar graph) (distinct : DistinctClasses settings) :
    ∀ one ∈ graph.ids, ∀ other ∈ graph.ids, (graph.node one).name = (graph.node other).name → one = other := by
  intro one first other second same
  cases formed.placed one first with
  | nodeType simple kind _ name =>
    cases formed.placed other second with
    | nodeType _ otherKind => exact formed.eq_of_nodeTypes distinct first second kind otherKind same
    | nested _ _ _ parentInside _ _ _ _ otherName =>
      rw [name, otherName] at same
      exact absurd same.symm (ClassName.nested_ne_topLevel (formed.names_ne_nil parentInside) _ _ _)
  | nested parent place _ parentInside regular _ _ _ name reserved =>
    cases formed.placed other second with
    | nodeType _ _ _ otherName =>
      rw [name, otherName] at same
      exact absurd same (ClassName.nested_ne_topLevel (formed.names_ne_nil parentInside) _ _ _)
    | nested otherParent otherPlace _ otherParentInside otherRegular _ _ _ otherName otherReserved =>
      rw [name, otherName] at same
      -- The names agree in the class around them, and there in the name that is reserved.
      obtain ⟨around, simple⟩ := ClassName.nested_inj.mp same
      have parents : parent = otherParent := formed.eq_of_nodeTypes distinct parentInside otherParentInside
        (by rw [regular]; rfl) (by rw [otherRegular]; rfl) around
      rw [parents, simple] at reserved
      exact formed.unique one first other second (Option.some.inj (reserved.symm.trans otherReserved))

end Formed

/-- Nothing is known of the supertypes of nested classes. -/
def PassesNested (known : Ancestry) : Prop :=
  ∀ (outer : ClassName) (name : String), outer.names ≠ [] → known.above (outer.nested name) = []

theorem passesNested_ancestry {grammar : ValidGrammar} (formed : Formed settings grammar graph) :
    PassesNested graph.ancestry := by
  intro outer name around
  refine Decidable.byContradiction fun some => ?_
  obtain ⟨id, inside, named, kind⟩ := exists_nodeType_of_above some
  obtain ⟨simple, _, topLevel⟩ := formed.topLevel inside kind
  exact ClassName.nested_ne_topLevel around name _ _ (named.symm.trans topLevel)

/-- A type with a class that others can be nested in. -/
structure Encloses (graph : TypeGraph) (id : TypeId) : Prop where
  inside : id ∈ graph.ids
  named : (graph.node id).name.names ≠ []

theorem Encloses.grow {id : TypeId} (encloses : graph.Encloses id) (grows : Grows graph after) : after.Encloses id :=
  ⟨grows.ids id encloses.inside, grows.name id encloses.inside ▸ encloses.named⟩

/-- A type is added of which nothing is known. -/
structure Nests (known : Ancestry) (graph after : TypeGraph) (id : TypeId) : Prop where
  develops : Develops (Trusted known) graph after
  inside : id ∈ after.ids
  unknown : known.above (after.node id).name = []

theorem Nests.fill {next : TypeGraph} {id : TypeId} (nests : Nests known graph after id)
    (fills : Fills (Trusted known) after next) : Nests known graph next id :=
  ⟨nests.develops.trans fills.toDevelops, fills.grows.ids id nests.inside,
    fills.grows.name id nests.inside ▸ nests.unknown⟩

theorem nests_addNested (passes : PassesNested known) {parent id : TypeId} (encloses : graph.Encloses parent)
    {name identity : String} {kind : TypeKind} (run : graph.addNested parent name identity kind = .ok (after, id)) :
    Nests known graph after id := by
  obtain ⟨simple, added⟩ := added_of_addNested run
  refine ⟨develops_added added, (added.ids id).mpr (Or.inr rfl), ?_⟩
  rw [added.here]
  exact passes _ simple encloses.named

/-- Custom methods know nothing of supertypes. -/
theorem trusted_of_toMethod {description : MethodDescription} {custom : CustomMethod}
    (run : description.toMethod = .ok custom) : Trusted known custom.method := by
  obtain ⟨_, _, run⟩ := bind_eq_ok.mp run
  obtain ⟨_, _, run⟩ := bind_eq_ok.mp run
  obtain ⟨returns, described, run⟩ := bind_eq_ok.mp run
  obtain ⟨_, _, run⟩ := bind_eq_ok.mp run
  cases run
  intro type given
  rw [MethodDescription.returns] at described
  split at described
  · cases described
    cases given
  · cases described
    cases given
  · obtain ⟨_, _, described⟩ := bind_eq_ok.mp described
    cases described
    cases given
    refine ⟨Or.inl ⟨rfl, fun fixed => absurd rfl fixed⟩, fun fixed free => ?_⟩
    cases free

theorem fills_addCustomMethods {id : TypeId} {type : String}
    (run : graph.addCustomMethods settings id type = .ok after) : Fills (Trusted known) graph after := by
  obtain ⟨methods, described, run⟩ := bind_eq_ok.mp run
  refine foldlM_invariant (fun _ state => Fills (Trusted known) graph state) (.refl graph) ?_ run
  intro done custom state next member fills step
  obtain ⟨_, _, step⟩ := bind_eq_ok.mp step
  cases step
  obtain ⟨description, _, converted⟩ := ListEffects.mem_of_mapM_eq_ok described member
  exact fills.trans (fills_addCustomMethod (trusted_of_toMethod converted))

theorem fills_addUnnamedGetter {id : TypeId} {type : NodeType} :
    Fills (Trusted known) graph (graph.addUnnamedGetter settings id type) := by
  rw [addUnnamedGetter]
  split
  · exact .refl graph
  · refine fills_addMethod fun returns given => ?_
    cases given
    refine ⟨Or.inl ⟨rfl, fun fixed => absurd rfl fixed⟩, fun fixed free => ?_⟩
    cases free

/-- A node type gets a node under its own name, which is then filled. -/
theorem fills_addNodeType (known : Ancestry) {kind : TypeKind} {type : NodeType}
    (run : addNodeType settings kind graph type = .ok after) :
    ∃ name first id, graph.addNode type.name (.topLevel settings.package name) kind = .ok (first, id) ∧
      Fills (Trusted known) first after := by
  obtain ⟨name, _, run⟩ := bind_eq_ok.mp run
  obtain ⟨⟨first, id⟩, addition, run⟩ := bind_eq_ok.mp run
  have constants : Fills (Trusted known) first (((first.setExtra id type.extra).addConstant id
      Naming.Scheme.typeNameConstant (some type.name)).addConstant id Naming.Scheme.typeIdConstant none) :=
    (fills_setExtra.trans fills_addConstant).trans fills_addConstant
  refine ⟨name, first, id, addition, ?_⟩
  dsimp only at run
  split at run
  next => exact (constants.trans fills_addUnnamedGetter).trans (fills_addCustomMethods run)
  next => exact constants.trans (fills_addCustomMethods run)

theorem develops_addNodeTypes (known : Ancestry) {kind : TypeKind} {types : List NodeType}
    (run : types.foldlM (addNodeType settings kind) graph = .ok after) : Develops (Trusted known) graph after := by
  refine foldlM_invariant (fun _ state => Develops (Trusted known) graph state) (.refl graph) ?_ run
  intro done type state next _ develops step
  obtain ⟨_, _, _, addition, fills⟩ := fills_addNodeType known step
  exact (develops.trans (develops_added (addNode_eq_ok addition).2)).trans fills.toDevelops

theorem fills_addSubtypes {type : NodeType} (run : addSubtypes settings graph type = .ok after) :
    Fills (Trusted known) graph after := by
  obtain ⟨supertype, found, run⟩ := bind_eq_ok.mp run
  refine foldlM_invariant (fun _ state => Fills (Trusted known) graph state) (.refl graph) ?_ run
  intro done mention state next _ fills step
  obtain ⟨subtype, there, step⟩ := bind_eq_ok.mp step
  cases step
  exact fills.trans (fills_addSubtype (fills.grows.ids _ (lookup_inside found)) (lookup_inside there))

theorem fills_addSlotToken {parent field : String} {id : TypeId} {indexed : String × Nat}
    (run : addSlotToken settings parent field id graph indexed = .ok after) : Fills (Trusted known) graph after := by
  obtain ⟨name, _, _, _, rfl⟩ := addSlotToken_eq_ok run
  exact fills_addToken

theorem develops_addTokens (passes : PassesNested known) {parent : TypeId} (encloses : graph.Encloses parent)
    {type : NodeType} {place : Place} {slot : Slot} {tokens : Option TypeId}
    (run : addTokens settings parent type place slot graph = .ok (after, tokens)) :
    Develops (Trusted known) graph after ∧ ∀ id, tokens = some id → Nests known graph after id := by
  rw [addTokens] at run
  split at run
  next =>
    cases run
    refine ⟨.refl graph, fun id absent => ?_⟩
    cases absent
  next =>
    obtain ⟨⟨first, id⟩, nested, run⟩ := bind_eq_ok.mp run
    obtain ⟨filled, folded, run⟩ := bind_eq_ok.mp run
    cases run
    have fills : Fills (Trusted known) first after :=
      foldlM_invariant (fun _ state => Fills (Trusted known) first state) (.refl first)
        (fun _ _ _ _ _ fills step => fills.trans (fills_addSlotToken step)) folded
    have nests := (nests_addNested passes encloses nested).fill fills
    refine ⟨nests.develops, fun other same => ?_⟩
    cases same
    exact nests

theorem nests_addInterface (passes : PassesNested known) {parent id : TypeId} (encloses : graph.Encloses parent)
    {type : NodeType} {place : Place} {slot : Slot} {tokens : Option TypeId}
    (present : ∀ id, tokens = some id → id ∈ graph.ids)
    (run : addInterface settings parent type place slot tokens graph = .ok (after, id)) :
    Nests known graph after id := by
  obtain ⟨⟨first, interface⟩, nested, run⟩ := bind_eq_ok.mp run
  obtain ⟨filled, folded, run⟩ := bind_eq_ok.mp run
  have added := nests_addNested passes encloses nested
  have fills : Fills (Trusted known) first filled := by
    refine foldlM_invariant (fun _ state => Fills (Trusted known) first state) (.refl first) ?_ folded
    intro done name state next _ fills step
    obtain ⟨subtype, there, step⟩ := bind_eq_ok.mp step
    cases step
    exact fills.trans (fills_addSubtype (fills.grows.ids _ added.inside) (lookup_inside there))
  have nests := added.fill fills
  cases tokens with
  | none =>
    cases run
    exact nests
  | some token =>
    cases run
    exact nests.fill (fills_addSubtype nests.inside (nests.develops.grows.ids _ (present token rfl)))

theorem develops_addTarget (passes : PassesNested known) {ancestry result : Ancestry} {parent id : TypeId}
    (encloses : graph.Encloses parent) {type : NodeType} {place : Place} {slot : Slot}
    (run : addTarget settings ancestry parent type place slot graph = .ok (after, id, result)) :
    Develops (Trusted known) graph after ∧ (result = .empty ∧ Nests known graph after id ∨ result = ancestry) := by
  cases targets_of_addTarget run with
  | single => exact ⟨.refl graph, Or.inr rfl⟩
  | tokens _ added =>
    obtain ⟨develops, nests⟩ := develops_addTokens passes encloses added
    exact ⟨develops, Or.inl ⟨rfl, nests id rfl⟩⟩
  | @several first _ _ _ _ _ added interface =>
    obtain ⟨develops, tokensNest⟩ := develops_addTokens passes encloses added
    have nests : Nests known first after id := nests_addInterface passes (encloses.grow develops.grows)
      (fun other same => (tokensNest other same).inside) interface
    have all := develops.trans nests.develops
    exact ⟨all, Or.inl ⟨rfl, all, nests.inside, nests.unknown⟩⟩

theorem fills_addFieldConstants {parent : TypeId} {place : Place}
    (run : graph.addFieldConstants parent place = .ok after) : Fills (Trusted known) graph after := by
  cases place with
  | children =>
    cases run
    exact .refl graph
  | field name =>
    obtain ⟨_, rfl⟩ := addFieldConstants_eq_ok run
    exact fills_addConstant.trans fills_addConstant

theorem trusted_getter {ancestry : Ancestry} {place : Place} {slot : Slot} {signature : Signature} {name : ClassName}
    (source : ancestry = .empty ∧ known.above name = [] ∨ ancestry = known) :
    Trusted known ⟨place.methodKind slot, signature, some ⟨getterType settings slot (.ofClass name), ancestry⟩⟩ := by
  have raw : fixedRaw? (place.methodKind slot) = some (javaUtil (if slot.multiple then "List" else "Optional")) := by
    cases place <;> rfl
  intro returns given
  cases given
  have opening : (getterType settings slot (.ofClass name)).openings = [.ofClass name] := by
    rw [getterType]
    split
    · rfl
    · split
      · rfl
      · split <;> rfl
  refine ⟨source.imp (And.imp_right fun unknown _ type member => ?_) fun same => ⟨same, by simp [raw]⟩,
    fun fixed isFixed annotations own arguments same => ?_⟩
  · rw [opening, List.mem_singleton] at member
    rw [member, JavaType.ofClass, Ancestry.choices_classType, unknown, List.map_nil]
  cases raw.symm.trans isFixed
  simp only [getterType] at same
  split at same
  next multiple =>
    cases same
    rw [if_pos multiple]
  next single =>
    split at same
    next => cases same
    next =>
      split at same
      next => cases same
      next =>
        cases same
        rw [if_neg single]

theorem develops_addAccessor (passes : PassesNested known) {parent : TypeId} (encloses : graph.Encloses parent)
    {type : NodeType} {entry : Place × Slot}
    (run : addAccessor settings known parent type graph entry = .ok after) : Develops (Trusted known) graph after := by
  obtain ⟨_, first, second, target, ancestry, constants, added, rfl⟩ := addAccessor_eq_ok run
  have fills : Fills (Trusted known) graph first := fills_addFieldConstants constants
  obtain ⟨develops, source⟩ := develops_addTarget passes (encloses.grow fills.grows) added
  have unknown := source.imp_left (And.imp_right Nests.unknown)
  exact (fills.toDevelops.trans develops).trans (fills_addMethod (trusted_getter unknown)).toDevelops

theorem develops_addAccessors (passes : PassesNested known) {grammar : ValidGrammar}
    (formed : Formed settings grammar graph) {type : NodeType}
    (run : addAccessors settings known graph type = .ok after) : Develops (Trusted known) graph after := by
  obtain ⟨parent, found, run⟩ := bind_eq_ok.mp run
  have inside := lookup_inside found
  have encloses : graph.Encloses parent := ⟨inside, formed.names_ne_nil inside⟩
  exact foldlM_invariant (fun _ state => Develops (Trusted known) graph state) (.refl graph)
    (fun _ _ _ _ _ develops step => develops.trans (develops_addAccessor passes (encloses.grow develops.grows) step)) run

theorem develops_setRoot {id : TypeId} : Develops (Trusted known) graph (graph.setRoot id) :=
  ⟨fun coherent => ⟨coherent.inside, coherent.mirrored, coherent.pending, coherent.methods⟩,
    fun _ inside => inside, fun _ _ => rfl, fun _ _ => rfl, fun _ _ edge => edge⟩

/-- A built graph is valid. Its getters know what the graph of the node types alone knew of supertypes. -/
structure Built (snapshot graph : TypeGraph) : Prop where
  start : snapshot.Valid (Trusted snapshot.ancestry)
  valid : graph.Valid (Trusted snapshot.ancestry)
  grows : Grows snapshot graph

namespace Stages

variable {grammar : ValidGrammar} {named snapshot filled : TypeGraph}

theorem formed_snapshot (stages : Stages settings grammar named snapshot filled graph) :
    Formed settings grammar snapshot := stages.steps_snapshot.1.formed formed_empty

theorem coherent_snapshot (stages : Stages settings grammar named snapshot filled graph) :
    snapshot.Coherent (Trusted snapshot.ancestry) := by
  obtain ⟨regular, regularRun, namedRun⟩ := stages.nodes
  have nodes := (develops_addNodeTypes snapshot.ancestry regularRun).trans (develops_addNodeTypes _ namedRun)
  have edges : Fills (Trusted snapshot.ancestry) named snapshot :=
    foldlM_invariant (fun _ state => Fills (Trusted snapshot.ancestry) named state) (.refl named)
      (fun _ _ _ _ _ fills step => fills.trans (fills_addSubtypes step)) stages.edges
  exact (nodes.trans edges.toDevelops).coherent coherent_empty

theorem develops_filled (stages : Stages settings grammar named snapshot filled graph) :
    Develops (Trusted snapshot.ancestry) snapshot filled := by
  have complete := stages.steps_snapshot.2
  have passes := passesNested_ancestry stages.formed_snapshot
  refine (foldlM_invariant (fun _ state => (∃ all, Steps settings grammar snapshot all state) ∧
    Develops (Trusted snapshot.ancestry) snapshot state) ⟨⟨_, .refl⟩, .refl snapshot⟩ ?_ stages.accessors).2
  intro done type state next member ⟨⟨_, steps⟩, develops⟩ step
  have formed := steps.formed stages.formed_snapshot
  exact ⟨⟨_, steps.trans (steps_addAccessors formed (complete.keep steps.keeps) member step)⟩,
    develops.trans (develops_addAccessors passes formed step)⟩

theorem built (stages : Stages settings grammar named snapshot filled graph) (distinct : DistinctClasses settings) :
    Built snapshot graph := by
  have develops : Develops (Trusted snapshot.ancestry) snapshot graph := by
    rcases stages.last with rfl | ⟨root, _, rfl⟩
    · exact stages.develops_filled
    · exact stages.develops_filled.trans develops_setRoot
  exact ⟨⟨stages.coherent_snapshot, stages.formed_snapshot.named distinct⟩,
    ⟨develops.coherent stages.coherent_snapshot, (stages.steps.formed formed_empty).named distinct⟩, develops.grows⟩

end Stages

theorem exists_built {grammar : ValidGrammar} (distinct : DistinctClasses settings)
    (run : build settings grammar = .ok graph) : ∃ snapshot, Built snapshot graph := by
  obtain ⟨_, snapshot, _, stages⟩ := exists_stages run
  exact ⟨snapshot, stages.built distinct⟩

end TypedTree.TypeGraph
