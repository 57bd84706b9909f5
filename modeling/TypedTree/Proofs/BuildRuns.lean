import TypedTree.Proofs.BuildSteps
import TypedTree.Proofs.SlotRuns
import TypedTree.Proofs.UsableNames

/-! What is built for a grammar is built by steps. The members that the steps add can be told from the grammar. -/

namespace TypedTree

open Java (Ancestry)
open Naming (Scheme)
open ListEffects (bind_eq_ok foldlM_invariant)

/-- The custom methods of a node type, which can all be read if anything is built. -/
def CustomMethods.listed (methods : CustomMethods) (type : String) : List CustomMethod :=
  (methods.forNodeType type).toOption.getD []

namespace NodeType

def unnamedMembers (type : NodeType) : List Member :=
  (Scheme.unnamedChildrenGetter? type.hasFields).toList.map fun name => .getter ⟨.getter name, .unnamedChildren⟩

/-- What a node type has before the slots are looked at. -/
def baseMembers (settings : Settings) (kind : TypeKind) (type : NodeType) : List Member :=
  [.constant ⟨Scheme.typeNameConstant, some type.name⟩, .constant ⟨Scheme.typeIdConstant, none⟩]
    ++ (if kind = .regular then type.unnamedMembers else [])
    ++ (settings.customMethods.listed type.name).map .custom

end NodeType

namespace Place

def constants : Place → List Member
  | children => []
  | field name =>
    [.constant ⟨Scheme.fieldNameConstant name, some name⟩, .constant ⟨Scheme.fieldIdConstant name, none⟩]

def members (entry : Place × Slot) : List Member :=
  entry.1.constants ++ [.getter ⟨.getter (entry.1.getter entry.2.multiple), entry.1.methodKind entry.2⟩]

end Place

namespace TypeGraph

def slotMembers (type : NodeType) : List Member := (slots type).flatMap Place.members

/-- All that is added to the types of a grammar. -/
def builtMembers (settings : Settings) (grammar : ValidGrammar) : List Addition :=
  grammar.regular.flatMap (fun type => additions type.name (type.baseMembers settings .regular))
    ++ grammar.supertypes.flatMap (fun type => additions type.name (type.baseMembers settings .supertype))
    ++ grammar.regular.flatMap fun type => additions type.name (slotMembers type)

variable {settings : Settings} {grammar : ValidGrammar} {graph after : TypeGraph} {id : TypeId} {owner : String}

/-- The first node with a name that is the node of a node type. -/
theorem nodeTypeId?_eq_some {name : String} {id : TypeId} :
    graph.nodeTypeId? name = some id ↔ id ∈ graph.ids ∧
      ((graph.node id).identity = name ∧ (graph.node id).kind.isNodeType = true) ∧
      ∀ earlier < id, ¬ ((graph.node earlier).identity = name ∧ (graph.node earlier).kind.isNodeType = true) := by
  rw [nodeTypeId?, Array.findIdx?_eq_some_iff_getElem, mem_ids, ← exists_prop]
  refine exists_congr fun inside => ?_
  simp only [getElem_nodes, Bool.and_eq_true, decide_eq_true_eq]

/-- What is looked up depends only on what the nodes stand for. -/
theorem lookup_congr {other : TypeGraph} (ids : graph.ids = other.ids)
    (identity : ∀ id, (graph.node id).identity = (other.node id).identity)
    (kind : ∀ id, (graph.node id).kind = (other.node id).kind) (settings : Settings) (name referencedBy : String) :
    graph.lookup settings name referencedBy = other.lookup settings name referencedBy := by
  have same : graph.nodeTypeId? = other.nodeTypeId? := by
    funext name
    refine Option.ext fun id => ?_
    simp only [nodeTypeId?_eq_some, ids, identity, kind]
  rw [lookup, lookup, resolve?, resolve?, same]

theorem lookup_inside {name referencedBy : String} {id : TypeId}
    (found : graph.lookup settings name referencedBy = .ok id) : id ∈ graph.ids := by
  rw [lookup] at found
  split at found
  next resolved =>
    cases found
    rw [resolve?] at resolved
    rw [Option.orElse_eq_orElse, Option.orElse_eq_or, Option.or_eq_some_iff] at resolved
    rcases resolved with direct | ⟨_, fallback⟩
    · exact (nodeTypeId?_eq_some.mp direct).1
    · obtain ⟨other, _, there⟩ := Option.bind_eq_some_iff.mp fallback
      exact (nodeTypeId?_eq_some.mp there).1
  next => cases found

theorem Steps.formed {all : List Addition} (steps : Steps settings grammar graph all after)
    (formed : Formed settings grammar graph) : Formed settings grammar after := by
  induction steps with
  | refl => exact formed
  | tail _ step ih => exact step.formed ih

/-- All types of the grammar have been added. -/
def Complete (grammar : ValidGrammar) (graph : TypeGraph) : Prop :=
  ∀ kind, ∀ name ∈ grammar.names kind, ∃ id ∈ graph.ids, (graph.node id).identity = name ∧ (graph.node id).kind = kind

theorem Complete.keep (complete : Complete grammar graph) (keeps : Keeps graph after) : Complete grammar after := by
  intro kind name listed
  obtain ⟨id, inside, identity, same⟩ := complete kind name listed
  have alike := keeps.alike id inside
  exact ⟨id, keeps.ids id inside, alike.identity.trans identity, alike.kind.trans same⟩

theorem nodeTypeId?_isSome (formed : Formed settings grammar graph) (complete : Complete grammar graph) {name : String} :
    (graph.nodeTypeId? name).isSome = true ↔ grammar.Describes name := by
  constructor
  · intro found
    obtain ⟨id, found⟩ := Option.isSome_iff_exists.mp found
    obtain ⟨inside, ⟨rfl, node⟩, _⟩ := nodeTypeId?_eq_some.mp found
    exact ValidGrammar.describes_of_mem_names (formed.described id inside node)
  · intro described
    have listed : ∃ kind, name ∈ grammar.names kind := described.elim (⟨_, ·⟩) (⟨_, ·⟩)
    obtain ⟨kind, listed⟩ := listed
    obtain ⟨id, inside, identity, same⟩ := complete kind name listed
    rw [nodeTypeId?, Array.findIdx?_isSome]
    refine Array.any_eq_true'.mpr ⟨graph.node id, mem_nodes.mpr ⟨id, inside, rfl⟩, ?_⟩
    rw [decide_eq_true identity, same, ValidGrammar.isNodeType_of_mem_names listed]
    rfl

theorem standsFor_of_lookup (formed : Formed settings grammar graph) (complete : Complete grammar graph)
    {name referencedBy : String} (found : graph.lookup settings name referencedBy = .ok id) :
    id ∈ graph.ids ∧ (graph.node id).kind.isNodeType = true ∧
      grammar.StandsFor settings.fallbackTypes name (graph.node id).identity := by
  rw [lookup] at found
  split at found
  next resolved =>
    cases found
    rw [resolve?, Option.orElse_eq_orElse, Option.orElse_eq_or, Option.or_eq_some_iff] at resolved
    rcases resolved with direct | ⟨absent, instead⟩
    · obtain ⟨inside, ⟨identity, node⟩, _⟩ := nodeTypeId?_eq_some.mp direct
      refine ⟨inside, node, Or.inl ⟨?_, identity⟩⟩
      exact (nodeTypeId?_isSome formed complete).mp (by rw [direct]; rfl)
    · obtain ⟨type, fallback, there⟩ := Option.bind_eq_some_iff.mp instead
      obtain ⟨inside, ⟨rfl, node⟩, _⟩ := nodeTypeId?_eq_some.mp there
      refine ⟨inside, node, Or.inr ⟨fun described => ?_, fallback, ?_⟩⟩
      · have found := (nodeTypeId?_isSome formed complete).mpr described
        rw [absent] at found
        cases found
      · exact (nodeTypeId?_isSome formed complete).mp (by rw [there]; rfl)
  next => cases found

/-- The node of a node type that was added as a type of a kind. -/
structure TypeOf (graph : TypeGraph) (kind : TypeKind) (name : String) (id : TypeId) : Prop where
  inside : id ∈ graph.ids
  kind : (graph.node id).kind = kind
  identity : (graph.node id).identity = name

theorem TypeOf.keep {kind : TypeKind} {name : String} (typeOf : TypeOf graph kind name id) (keeps : Keeps graph after) :
    TypeOf after kind name id := by
  have alike := keeps.alike id typeOf.inside
  exact ⟨keeps.ids id typeOf.inside, alike.kind.trans typeOf.kind, alike.identity.trans typeOf.identity⟩

theorem typeOf_of_lookup (formed : Formed settings grammar graph) (complete : Complete grammar graph) {kind : TypeKind}
    {name referencedBy : String} (listed : name ∈ grammar.names kind)
    (found : graph.lookup settings name referencedBy = .ok id) : TypeOf graph kind name id := by
  obtain ⟨inside, _, stands⟩ := standsFor_of_lookup formed complete found
  have identity : (graph.node id).identity = name := by
    rcases stands with ⟨_, same⟩ | ⟨absent, _⟩
    · exact same
    · exact absurd (ValidGrammar.describes_of_mem_names listed) absent
  obtain ⟨other, otherInside, otherIdentity, same⟩ := complete kind name listed
  cases formed.unique id inside other otherInside (identity.trans otherIdentity.symm)
  exact ⟨inside, same, identity⟩

/-- A run that adds members to the type with some number, which is there in the end. -/
structure Extends (settings : Settings) (grammar : ValidGrammar) (graph : TypeGraph) (kind : TypeKind) (owner : String)
    (id : TypeId) (members : List Member) (after : TypeGraph) : Prop where
  steps : Steps settings grammar graph (additions owner members) after
  typeOf : TypeOf after kind owner id

variable {kind : TypeKind} {members : List Member} {next : TypeGraph}

theorem TypeOf.extends (typeOf : TypeOf graph kind owner id) : Extends settings grammar graph kind owner id [] graph :=
  ⟨.refl, typeOf⟩

theorem Extends.quietly (extension : Extends settings grammar graph kind owner id members after)
    (steps : Steps settings grammar after [] next) : Extends settings grammar graph kind owner id members next := by
  refine ⟨?_, extension.typeOf.keep steps.keeps⟩
  simpa only [List.append_nil] using extension.steps.trans steps

theorem Extends.fill (extension : Extends settings grammar graph kind owner id members after)
    {change : TypeNode → TypeNode} {more : List Member} (adds : TypeNode.Adds change more) :
    Extends settings grammar graph kind owner id (members ++ more) (after.modify id change) := by
  have step : Step settings grammar after (additions owner more) (after.modify id change) :=
    extension.typeOf.identity ▸ .fill extension.typeOf.inside adds
  refine ⟨?_, extension.typeOf.keep step.keeps⟩
  rw [additions, List.map_append]
  exact extension.steps.tail step

theorem kind_of_toMethod {description : MethodDescription} {custom : CustomMethod}
    (run : description.toMethod = .ok custom) : custom.method.kind = .custom := by
  obtain ⟨_, _, run⟩ := bind_eq_ok.mp run
  obtain ⟨_, _, run⟩ := bind_eq_ok.mp run
  obtain ⟨_, _, run⟩ := bind_eq_ok.mp run
  obtain ⟨_, _, run⟩ := bind_eq_ok.mp run
  cases run
  rfl

theorem Extends.addCustomMethods (extension : Extends settings grammar graph kind owner id members after)
    (run : after.addCustomMethods settings id owner = .ok next) :
    Extends settings grammar graph kind owner id (members ++ (settings.customMethods.listed owner).map .custom) next := by
  obtain ⟨methods, described, run⟩ := bind_eq_ok.mp run
  have all : settings.customMethods.listed owner = methods := by
    rw [CustomMethods.listed, described]
    rfl
  rw [all]
  refine foldlM_invariant
    (fun done state => Extends settings grammar graph kind owner id (members ++ done.map .custom) state) ?_ ?_ run
  · simpa using extension
  · intro done custom state next member extension step
    obtain ⟨_, _, step⟩ := bind_eq_ok.mp step
    cases step
    obtain ⟨description, _, converted⟩ := ListEffects.mem_of_mapM_eq_ok described member
    rw [List.map_append, ← List.append_assoc]
    exact extension.fill (TypeNode.adds_custom (kind_of_toMethod converted))

theorem Extends.addUnnamedGetter (extension : Extends settings grammar graph kind owner id members after)
    (type : NodeType) : Extends settings grammar graph kind owner id (members ++ type.unnamedMembers)
      (after.addUnnamedGetter settings id type) := by
  rw [TypeGraph.addUnnamedGetter, NodeType.unnamedMembers]
  split
  next none =>
    rw [none]
    simpa using extension
  next name some =>
    rw [some]
    exact extension.fill (TypeNode.adds_getter (by simp))

theorem extends_addNodeType {type : NodeType} (listed : type.name ∈ grammar.names kind)
    (run : addNodeType settings kind graph type = .ok after) :
    ∃ id, Extends settings grammar graph kind type.name id (type.baseMembers settings kind) after := by
  obtain ⟨simple, assigned, run⟩ := bind_eq_ok.mp run
  obtain ⟨⟨first, id⟩, addition, run⟩ := bind_eq_ok.mp run
  have added := (addNode_eq_ok addition).2
  have node : Extends settings grammar graph kind type.name id [] first :=
    ⟨(Step.nodeType listed assigned addition).steps, (added.ids id).mpr (Or.inr rfl), by rw [added.here]; rfl,
      by rw [added.here]; rfl⟩
  have constants := ((node.fill (TypeNode.adds_extra type.extra)).fill
    (TypeNode.adds_constant Scheme.typeNameConstant (some type.name))).fill
      (TypeNode.adds_constant Scheme.typeIdConstant none)
  refine ⟨id, ?_⟩
  rw [NodeType.baseMembers]
  dsimp only at run
  split at run
  next regular =>
    rw [if_pos regular]
    exact (constants.addUnnamedGetter type).addCustomMethods run
  next other =>
    rw [if_neg other]
    exact constants.addCustomMethods run

theorem steps_addSubtypes (formed : Formed settings grammar graph) (complete : Complete grammar graph) {type : NodeType}
    (member : type ∈ grammar.supertypes) (run : addSubtypes settings graph type = .ok after) :
    Steps settings grammar graph [] after := by
  obtain ⟨supertype, found, run⟩ := bind_eq_ok.mp run
  have upper := typeOf_of_lookup formed complete (show type.name ∈ grammar.names .supertype from
    List.mem_map_of_mem member) found
  refine foldlM_invariant (fun _ state => Steps settings grammar graph [] state) .refl ?_ run
  intro done mention state next listed steps step
  obtain ⟨subtype, there, step⟩ := bind_eq_ok.mp step
  cases step
  obtain ⟨inside, node, stands⟩ := standsFor_of_lookup (steps.formed formed) (complete.keep steps.keeps) there
  have upper := upper.keep steps.keeps
  refine steps.tail (.subtype upper.inside inside ?_ (fun slot => ?_) fun _ => ?_)
  · rw [upper.kind]
    rfl
  · rw [slot] at node
    cases node
  · obtain ⟨listed, named⟩ := List.mem_filter.mp listed
    exact ⟨type, member, upper.identity.symm, mention, listed, named, stands⟩

theorem steps_addNested {parent : TypeId} {place : Place} (slot : kind.isNodeType = false) (declared : place.Declared)
    (enclosing : TypeOf graph .regular owner parent)
    (run : graph.addNested parent (place.typeName kind) (place.typeIdentity owner kind) kind = .ok (after, id)) :
    Steps settings grammar graph [] after ∧ TypeOf after kind (place.typeIdentity owner kind) id := by
  obtain ⟨inside, regular, rfl⟩ := enclosing
  obtain ⟨simple, usable, free, addition⟩ := addNested_eq_ok run
  obtain rfl := (Naming.typeName_eq_ok usable).1
  have added := (addNode_eq_ok addition).2
  have nested : Step settings grammar graph [] after := .nested inside regular slot declared usable free addition
  refine ⟨nested.steps, (added.ids id).mpr (Or.inr rfl), ?_, ?_⟩
  · rw [added.here]
    rfl
  · rw [added.here]
    rfl

theorem Extends.addSlotToken {parent field token : String} {index : Nat} {identity : String}
    (extension : Extends settings grammar graph kind identity id [] after)
    (used : Uses grammar identity ⟨parent, field, token⟩ index)
    (run : addSlotToken settings parent field id after (token, index) = .ok next) :
    Extends settings grammar graph kind identity id [] next := by
  obtain ⟨name, named, newText, newName, rfl⟩ := addSlotToken_eq_ok run
  exact extension.quietly (Step.token extension.typeOf.inside (extension.typeOf.identity ▸ used) named newText newName).steps

variable {type : NodeType} {place : Place} {slot : Slot} {parent : TypeId} {tokens : Option TypeId}

theorem steps_addTokens (member : type ∈ grammar.regular) (listed : (place, slot) ∈ slots type)
    (declared : place.Declared) (enclosing : TypeOf graph .regular type.name parent)
    (run : addTokens settings parent type place slot graph = .ok (after, tokens)) :
    Steps settings grammar graph [] after ∧
      ∀ id, tokens = some id → id ∈ after.ids ∧ (after.node id).kind = .tokens := by
  rw [addTokens] at run
  split at run
  next =>
    cases run
    exact ⟨.refl, fun _ none => by cases none⟩
  next =>
    obtain ⟨⟨first, id⟩, nested, run⟩ := bind_eq_ok.mp run
    obtain ⟨filled, folded, run⟩ := bind_eq_ok.mp run
    cases run
    obtain ⟨node, typeOf⟩ : Steps settings grammar graph [] first ∧ TypeOf first .tokens _ id :=
      steps_addNested rfl declared enclosing nested
    obtain ⟨tokens, typeOf⟩ := foldlM_invariant (fun _ state => Extends settings grammar first .tokens _ id [] state)
      typeOf.extends (fun _ _ _ _ indexed extension step => extension.addSlotToken (.slot member listed indexed) step) folded
    refine ⟨node.trans tokens, fun other same => ?_⟩
    cases same
    exact ⟨typeOf.inside, typeOf.kind⟩

theorem steps_addInterface (formed : Formed settings grammar graph) (complete : Complete grammar graph)
    (declared : place.Declared) (enclosing : TypeOf graph .regular type.name parent)
    (present : ∀ id, tokens = some id → id ∈ graph.ids ∧ (graph.node id).kind = .tokens)
    (run : addInterface settings parent type place slot tokens graph = .ok (after, id)) :
    Steps settings grammar graph [] after := by
  obtain ⟨⟨first, interface⟩, nested, run⟩ := bind_eq_ok.mp run
  obtain ⟨filled, folded, run⟩ := bind_eq_ok.mp run
  obtain ⟨node, typeOf⟩ : Steps settings grammar graph [] first ∧ TypeOf first .childTypes _ interface :=
    steps_addNested rfl declared enclosing nested
  have below : ∀ {state : TypeGraph} {lower : TypeId}, Steps settings grammar first [] state → lower ∈ state.ids →
      (state.node lower).kind ≠ .childTypes → Steps settings grammar first [] (state.addSubtype interface lower) := by
    intro state lower steps inside low
    have upper := typeOf.keep steps.keeps
    refine steps.tail (.subtype upper.inside inside ?_ low fun supertype => ?_)
    · rw [upper.kind]
      rfl
    · rw [upper.kind] at supertype
      cases supertype
  have filled : Steps settings grammar first [] filled := by
    refine foldlM_invariant (fun _ state => Steps settings grammar first [] state) .refl ?_ folded
    intro done name state next _ steps step
    obtain ⟨lower, there, step⟩ := bind_eq_ok.mp step
    cases step
    have past := node.trans steps
    obtain ⟨inside, kind, _⟩ := standsFor_of_lookup (past.formed formed) (complete.keep past.keeps) there
    refine below steps inside fun slot => ?_
    rw [slot] at kind
    cases kind
  cases tokens with
  | none =>
    cases run
    exact node.trans filled
  | some lower =>
    cases run
    obtain ⟨inside, kind⟩ := present lower rfl
    have keeps := (node.trans filled).keeps
    refine node.trans (below filled (keeps.ids lower inside) ?_)
    rw [(keeps.alike lower inside).kind, kind]
    simp

theorem steps_addTarget (formed : Formed settings grammar graph) (complete : Complete grammar graph)
    (member : type ∈ grammar.regular) (listed : (place, slot) ∈ slots type)
    (declared : place.Declared) (enclosing : TypeOf graph .regular type.name parent) {ancestry result : Ancestry}
    (run : addTarget settings ancestry parent type place slot graph = .ok (after, id, result)) :
    Steps settings grammar graph [] after := by
  cases targets_of_addTarget run with
  | single => exact .refl
  | tokens _ added => exact (steps_addTokens member listed declared enclosing added).1
  | several _ _ added interface =>
    obtain ⟨steps, present⟩ := steps_addTokens member listed declared enclosing added
    exact steps.trans (steps_addInterface (steps.formed formed) (complete.keep steps.keeps) declared
      (enclosing.keep steps.keeps) present interface)

theorem Extends.addFieldConstants (extension : Extends settings grammar graph kind owner id members after)
    (run : after.addFieldConstants id place = .ok next) :
    Extends settings grammar graph kind owner id (members ++ place.constants) next := by
  cases place with
  | children =>
    cases run
    simpa [Place.constants] using extension
  | field name =>
    obtain ⟨_, rfl⟩ := addFieldConstants_eq_ok run
    have both := (extension.fill (TypeNode.adds_constant (Scheme.fieldNameConstant name) (some name))).fill
      (TypeNode.adds_constant (Scheme.fieldIdConstant name) none)
    rw [List.append_assoc] at both
    exact both

theorem declared_of_addFieldConstants (run : graph.addFieldConstants id place = .ok after) : place.Declared := by
  rintro field rfl
  exact (addFieldConstants_eq_ok run).1

theorem Extends.addAccessor (formed : Formed settings grammar graph) (complete : Complete grammar graph)
    (member : type ∈ grammar.regular)
    (extension : Extends settings grammar graph .regular type.name parent members after) {known : Ancestry}
    {entry : Place × Slot} (listed : entry ∈ slots type)
    (run : addAccessor settings known parent type after entry = .ok next) :
    Extends settings grammar graph .regular type.name parent (members ++ Place.members entry) next := by
  obtain ⟨place, slot⟩ := entry
  obtain ⟨_, first, second, target, ancestry, constants, added, rfl⟩ := addAccessor_eq_ok run
  have start := extension.addFieldConstants constants
  have target := steps_addTarget (start.steps.formed formed) (complete.keep start.steps.keeps) member listed
    (declared_of_addFieldConstants constants) start.typeOf added
  rw [Place.members, ← List.append_assoc]
  exact (start.quietly target).fill (TypeNode.adds_getter (by cases place <;> simp [Place.methodKind]))

theorem steps_addAccessors (formed : Formed settings grammar graph) (complete : Complete grammar graph)
    (member : type ∈ grammar.regular) {known : Ancestry} (run : addAccessors settings known graph type = .ok after) :
    Steps settings grammar graph (additions type.name (slotMembers type)) after := by
  obtain ⟨parent, found, run⟩ := bind_eq_ok.mp run
  have enclosing := typeOf_of_lookup formed complete (show type.name ∈ grammar.names .regular from
    List.mem_map_of_mem member) found
  refine (foldlM_invariant (fun done state => Extends settings grammar graph .regular type.name parent
    (done.flatMap Place.members) state) enclosing.extends ?_ run).steps
  intro done entry state next listed extension step
  simpa only [List.flatMap_append, List.flatMap_singleton] using extension.addAccessor formed complete member listed step

theorem steps_addNodeTypes {types : List NodeType} (listed : ∀ type ∈ types, type.name ∈ grammar.names kind)
    (run : types.foldlM (addNodeType settings kind) graph = .ok after) :
    Steps settings grammar graph (types.flatMap fun type => additions type.name (type.baseMembers settings kind)) after ∧
      ∀ type ∈ types, ∃ id, TypeOf after kind type.name id := by
  refine foldlM_invariant (fun done state =>
    Steps settings grammar graph (done.flatMap fun type => additions type.name (type.baseMembers settings kind)) state ∧
      ∀ type ∈ done, ∃ id, TypeOf state kind type.name id) ⟨.refl, List.forall_mem_nil _⟩ ?_ run
  intro done type state next member ⟨steps, present⟩ step
  obtain ⟨id, extension⟩ := extends_addNodeType (listed type member) step
  refine ⟨?_, fun other inside => ?_⟩
  · simpa only [List.flatMap_append, List.flatMap_singleton] using steps.trans extension.steps
  · rcases List.mem_append.mp inside with old | new
    · obtain ⟨number, typeOf⟩ := present other old
      exact ⟨number, typeOf.keep extension.steps.keeps⟩
    · cases List.mem_singleton.mp new
      exact ⟨id, extension.typeOf⟩

/-- Names are looked up only when every node type has its node. -/
theorem steps_of_nodeTypes {regular : TypeGraph}
    (regularRun : grammar.regular.foldlM (addNodeType settings .regular) empty = .ok regular)
    (supertypesRun : grammar.supertypes.foldlM (addNodeType settings .supertype) regular = .ok graph) :
    Steps settings grammar empty
        (grammar.regular.flatMap (fun type => additions type.name (type.baseMembers settings .regular))
          ++ grammar.supertypes.flatMap fun type => additions type.name (type.baseMembers settings .supertype)) graph ∧
      Complete grammar graph := by
  have regularListed : ∀ type ∈ grammar.regular, type.name ∈ grammar.names .regular :=
    fun type member => List.mem_map_of_mem member
  have supertypesListed : ∀ type ∈ grammar.supertypes, type.name ∈ grammar.names .supertype :=
    fun type member => List.mem_map_of_mem member
  obtain ⟨first, regularPresent⟩ := steps_addNodeTypes regularListed regularRun
  obtain ⟨second, supertypesPresent⟩ := steps_addNodeTypes supertypesListed supertypesRun
  refine ⟨first.trans second, ?_⟩
  have present : ∀ kind name, (∃ id, TypeOf graph kind name id) →
      ∃ id ∈ graph.ids, (graph.node id).identity = name ∧ (graph.node id).kind = kind :=
    fun kind name ⟨id, typeOf⟩ => ⟨id, typeOf.inside, typeOf.identity, typeOf.kind⟩
  intro kind name listed
  refine present kind name ?_
  cases kind with
  | regular =>
    obtain ⟨type, member, rfl⟩ := List.mem_map.mp listed
    obtain ⟨id, typeOf⟩ := regularPresent type member
    exact ⟨id, typeOf.keep second.keeps⟩
  | supertype =>
    obtain ⟨type, member, rfl⟩ := List.mem_map.mp listed
    exact supertypesPresent type member
  | childTypes => cases listed
  | tokens => cases listed

theorem steps_of_subtypes (formed : Formed settings grammar graph) (complete : Complete grammar graph)
    (run : grammar.supertypes.foldlM (addSubtypes settings) graph = .ok after) :
    Steps settings grammar graph [] after := by
  refine foldlM_invariant (fun _ state => Steps settings grammar graph [] state) .refl ?_ run
  intro done type state next member steps step
  exact steps.trans (steps_addSubtypes (steps.formed formed) (complete.keep steps.keeps) member step)

/-- The graphs between the stages of building: the node types alone, with the edges between them, and with the getters
of their slots. -/
structure Stages (settings : Settings) (grammar : ValidGrammar) (named snapshot filled graph : TypeGraph) : Prop where
  nodes : ∃ regular, grammar.regular.foldlM (addNodeType settings .regular) empty = .ok regular ∧
    grammar.supertypes.foldlM (addNodeType settings .supertype) regular = .ok named
  edges : grammar.supertypes.foldlM (addSubtypes settings) named = .ok snapshot
  accessors : grammar.regular.foldlM (addAccessors settings snapshot.ancestry) snapshot = .ok filled
  last : graph = filled ∨ ∃ root ∈ filled.ids, graph = filled.setRoot root

theorem exists_stages (run : build settings grammar = .ok graph) :
    ∃ named snapshot filled, Stages settings grammar named snapshot filled graph := by
  obtain ⟨_, _, run⟩ := bind_eq_ok.mp run
  obtain ⟨regular, regularRun, run⟩ := bind_eq_ok.mp run
  obtain ⟨named, namedRun, run⟩ := bind_eq_ok.mp run
  obtain ⟨snapshot, edges, run⟩ := bind_eq_ok.mp run
  obtain ⟨filled, accessors, run⟩ := bind_eq_ok.mp run
  refine ⟨named, snapshot, filled, ⟨regular, regularRun, namedRun⟩, edges, accessors, ?_⟩
  split at run
  next =>
    obtain ⟨root, found, run⟩ := bind_eq_ok.mp run
    cases run
    exact Or.inr ⟨root, lookup_inside found, rfl⟩
  next =>
    cases run
    exact Or.inl rfl

/-- The edges between node types add no members. -/
theorem Stages.steps_snapshot {named snapshot filled : TypeGraph}
    (stages : Stages settings grammar named snapshot filled graph) :
    Steps settings grammar empty
        (grammar.regular.flatMap (fun type => additions type.name (type.baseMembers settings .regular))
          ++ grammar.supertypes.flatMap fun type => additions type.name (type.baseMembers settings .supertype))
        snapshot ∧
      Complete grammar snapshot := by
  obtain ⟨regular, regularRun, namedRun⟩ := stages.nodes
  obtain ⟨nodes, complete⟩ := steps_of_nodeTypes regularRun namedRun
  have edges := steps_of_subtypes (nodes.formed formed_empty) complete stages.edges
  have all := nodes.trans edges
  rw [List.append_nil] at all
  exact ⟨all, complete.keep edges.keeps⟩

theorem Stages.steps_filled {named snapshot filled : TypeGraph}
    (stages : Stages settings grammar named snapshot filled graph) :
    Steps settings grammar snapshot (grammar.regular.flatMap fun type => additions type.name (slotMembers type)) filled := by
  obtain ⟨start, complete⟩ := stages.steps_snapshot
  refine foldlM_invariant (fun done state => Steps settings grammar snapshot
    (done.flatMap fun type => additions type.name (slotMembers type)) state) .refl ?_ stages.accessors
  intro done type state next member steps step
  have formed := (start.trans steps).formed formed_empty
  simpa only [List.flatMap_append, List.flatMap_singleton] using
    steps.trans (steps_addAccessors formed (complete.keep steps.keeps) member step)

/-- Every graph that is built is built by steps, which add just the members that the grammar asks for. -/
theorem Stages.steps {named snapshot filled : TypeGraph} (stages : Stages settings grammar named snapshot filled graph) :
    Steps settings grammar empty (builtMembers settings grammar) graph := by
  have all := stages.steps_snapshot.1.trans stages.steps_filled
  rcases stages.last with rfl | ⟨root, inside, rfl⟩
  · exact all
  · have last := all.tail (.root inside)
    rw [List.append_nil] at last
    exact last

theorem steps_of_build (run : build settings grammar = .ok graph) :
    Steps settings grammar empty (builtMembers settings grammar) graph := by
  obtain ⟨_, _, _, stages⟩ := exists_stages run
  exact stages.steps

theorem complete_of_build (run : build settings grammar = .ok graph) : Complete grammar graph := by
  obtain ⟨named, snapshot, filled, stages⟩ := exists_stages run
  have complete := stages.steps_snapshot.2.keep stages.steps_filled.keeps
  rcases stages.last with rfl | ⟨root, _, rfl⟩
  · exact complete
  · exact complete

end TypeGraph

end TypedTree
