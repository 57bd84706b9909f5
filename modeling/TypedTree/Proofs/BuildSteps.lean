import TypedTree.Graph.Build
import TypedTree.Proofs.GraphGrowth

/-! Building as a run of small steps. What a step may do is said once, and what holds of every graph that is built
follows from it by induction on the run. -/

namespace TypedTree

open Java (ClassName)

/-- What is added to a generated type. -/
inductive Member where
  | constant (constant : Constant)
  /-- A method that is not a custom one. -/
  | getter (key : MethodKey)
  | custom (method : CustomMethod)

namespace Member

def constant? : Member → Option Constant
  | constant value => some value
  | getter _ => none
  | custom _ => none

def getter? : Member → Option MethodKey
  | constant _ => none
  | getter key => some key
  | custom _ => none

def custom? : Member → Option CustomMethod
  | constant _ => none
  | getter _ => none
  | custom method => some method

end Member

namespace TypeNode

variable {node : TypeNode} {members : List Member}

/-- A node has some members in their order, and no others. -/
structure Has (node : TypeNode) (members : List Member) : Prop where
  constants : node.constants = members.filterMap Member.constant?
  getters : (node.methods.filter (·.kind ≠ .custom)).map Method.key = members.filterMap Member.getter?
  customMethods : node.customMethods = members.filterMap Member.custom?
  customKind : node.methods.filter (·.kind = .custom) = node.customMethods.map (·.method)

structure Alike (node other : TypeNode) : Prop where
  identity : node.identity = other.identity
  name : node.name = other.name
  kind : node.kind = other.kind

structure Adds (change : TypeNode → TypeNode) (members : List Member) : Prop where
  alike : ∀ node, (change node).Alike node
  supertypes : ∀ node, (change node).supertypes = node.supertypes
  subtypes : ∀ node, (change node).subtypes = node.subtypes
  tokens : ∀ node, (change node).tokens = node.tokens
  has : ∀ node before, node.Has before → (change node).Has (before ++ members)

theorem has_new {identity : String} {name : ClassName} {kind : TypeKind} : (new identity name kind).Has [] :=
  ⟨rfl, rfl, rfl, rfl⟩

theorem adds_constant (name : String) (value : Option String) :
    Adds (fun node => { node with constants := node.constants ++ [⟨name, value⟩] }) [.constant ⟨name, value⟩] := by
  refine ⟨fun _ => ⟨rfl, rfl, rfl⟩, fun _ => rfl, fun _ => rfl, fun _ => rfl, fun node before has => ⟨?_, ?_, ?_, has.customKind⟩⟩
  · simp [has.constants, Member.constant?]
  · simp [← has.getters, Member.getter?]
  · simp [has.customMethods, Member.custom?]

theorem adds_getter {method : Method} (kind : method.kind ≠ .custom) :
    Adds (fun node => { node with methods := node.methods ++ [method] }) [.getter method.key] := by
  refine ⟨fun _ => ⟨rfl, rfl, rfl⟩, fun _ => rfl, fun _ => rfl, fun _ => rfl, fun node before has => ⟨?_, ?_, ?_, ?_⟩⟩
  · simp [has.constants, Member.constant?]
  · simp [← has.getters, Member.getter?, kind]
  · simp [has.customMethods, Member.custom?]
  · simp [has.customKind, kind]

theorem adds_custom {custom : CustomMethod} (kind : custom.method.kind = .custom) :
    Adds (fun node => { node with
      methods := node.methods ++ [custom.method]
      customMethods := node.customMethods ++ [custom] }) [.custom custom] := by
  refine ⟨fun _ => ⟨rfl, rfl, rfl⟩, fun _ => rfl, fun _ => rfl, fun _ => rfl, fun node before has => ⟨?_, ?_, ?_, ?_⟩⟩
  · simp [has.constants, Member.constant?]
  · simp [← has.getters, Member.getter?, kind]
  · simp [has.customMethods, Member.custom?]
  · simp [has.customKind, kind]

theorem adds_extra (extra : Bool) : Adds (fun node => { node with extra }) [] :=
  ⟨fun _ => ⟨rfl, rfl, rfl⟩, fun _ => rfl, fun _ => rfl, fun _ => rfl, fun _ before has => by
    rw [List.append_nil]
    exact ⟨has.constants, has.getters, has.customMethods, has.customKind⟩⟩

end TypeNode

namespace ValidGrammar

/-- The names of the node types that are built as types of a kind. -/
def names (grammar : ValidGrammar) : TypeKind → List String
  | .regular => grammar.regular.map (·.name)
  | .supertype => grammar.supertypes.map (·.name)
  | .childTypes => []
  | .tokens => []

def Describes (grammar : ValidGrammar) (name : String) : Prop :=
  name ∈ grammar.names .regular ∨ name ∈ grammar.names .supertype

/-- A name stands for the node type that is called so, or else for the type to use instead. -/
def StandsFor (grammar : ValidGrammar) (fallback : Table String String) (name type : String) : Prop :=
  grammar.Describes name ∧ type = name ∨
    ¬ grammar.Describes name ∧ fallback.get? name = some type ∧ grammar.Describes type

/-- A supertype of the grammar lists a node type among its subtypes. -/
def Lists (grammar : ValidGrammar) (fallback : Table String String) (below above : String) : Prop :=
  ∃ type ∈ grammar.supertypes, type.name = above ∧
    ∃ mention ∈ type.subtypes.getD [], mention.named = true ∧ grammar.StandsFor fallback mention.name below

variable {grammar : ValidGrammar} {kind : TypeKind} {name : String}

theorem isNodeType_of_mem_names (listed : name ∈ grammar.names kind) : kind.isNodeType = true := by
  cases kind with
  | regular => rfl
  | supertype => rfl
  | childTypes => cases listed
  | tokens => cases listed

theorem describes_of_mem_names (listed : name ∈ grammar.names kind) : grammar.Describes name := by
  cases kind with
  | regular => exact Or.inl listed
  | supertype => exact Or.inr listed
  | childTypes => cases listed
  | tokens => cases listed

end ValidGrammar

namespace Place

/-- The simple name of a type of a slot. -/
def typeName (place : Place) : TypeKind → String
  | .tokens => place.tokenClass
  | _ => place.interface

def typeIdentity (place : Place) (owner : String) : TypeKind → String
  | .tokens => place.identity owner ++ "#tokens"
  | _ => place.identity owner

/-- The constants of a field come before its types, and have names that can be declared. -/
def Declared (place : Place) : Prop :=
  ∀ field, place = .field field →
    Naming.Names.memberName (Naming.Scheme.fieldNameConstant field) = .ok (Naming.Scheme.fieldNameConstant field)

end Place

namespace TypeGraph

/-- A token of a slot: the identity of its class, how it is used, and its place among the tokens of the slot. -/
inductive Uses (grammar : ValidGrammar) : String → TokenUse → Nat → Prop
  | slot {type : NodeType} {entry : Place × Slot} {token : String} {index : Nat} (member : type ∈ grammar.regular)
      (listed : entry ∈ slots type) (indexed : (token, index) ∈ entry.2.tokens.zipIdx) :
      Uses grammar (entry.1.typeIdentity type.name .tokens) ⟨type.name, entry.1.tokenField, token⟩ index

abbrev Addition := String × Member

def additions (owner : String) (members : List Member) : List Addition := members.map (owner, ·)

def membersOf (all : List Addition) (owner : String) : List Member := (all.filter (·.1 = owner)).map Prod.snd

/-- One step of building, and what holds when it is made. -/
inductive Step (settings : Settings) (grammar : ValidGrammar) (before : TypeGraph) : List Addition → TypeGraph → Prop
  | nodeType {kind : TypeKind} {identity simple : String} {id : TypeId} {after : TypeGraph}
      (listed : identity ∈ grammar.names kind) (assigned : settings.names.className identity = .ok simple)
      (added : before.addNode identity (.topLevel settings.package simple) kind = .ok (after, id)) :
      Step settings grammar before [] after
  | nested {parent id : TypeId} {kind : TypeKind} {place : Place} {after : TypeGraph}
      (inside : parent ∈ before.ids) (regular : (before.node parent).kind = .regular) (slot : kind.isNodeType = false)
      (declared : place.Declared) (usable : Naming.Names.typeName (place.typeName kind) = .ok (place.typeName kind))
      (free : before.reservedBy? parent (place.typeName kind) = none)
      (added : (before.reserve parent (place.typeName kind) (place.typeIdentity (before.node parent).identity kind)).addNode
        (place.typeIdentity (before.node parent).identity kind)
        ((before.node parent).name.nested (place.typeName kind)) kind = .ok (after, id)) :
      Step settings grammar before [] after
  | subtype {above below : TypeId} (upper : above ∈ before.ids) (lower : below ∈ before.ids)
      (interface : (before.node above).kind.isInterface = true) (low : (before.node below).kind ≠ .childTypes)
      (listed : (before.node above).kind = .supertype →
        grammar.Lists settings.fallbackTypes (before.node below).identity (before.node above).identity) :
      Step settings grammar before [] (before.addSubtype above below)
  | fill {id : TypeId} {change : TypeNode → TypeNode} {members : List Member} (inside : id ∈ before.ids)
      (adds : TypeNode.Adds change members) :
      Step settings grammar before (additions (before.node id).identity members) (before.modify id change)
  | token {id : TypeId} {use : TokenUse} {index : Nat} {name : String} (inside : id ∈ before.ids)
      (used : Uses grammar (before.node id).identity use index)
      (named : settings.names.scheme.tokens.name use index = .ok name)
      (newText : ∀ known ∈ (before.node id).tokens, known.token ≠ use.token)
      (newName : ∀ known ∈ (before.node id).tokens, known.name ≠ name) :
      Step settings grammar before [] (before.addToken id name use.token)
  | root {id : TypeId} (inside : id ∈ before.ids) : Step settings grammar before [] (before.setRoot id)

inductive Steps (settings : Settings) (grammar : ValidGrammar) (before : TypeGraph) : List Addition → TypeGraph → Prop
  | refl : Steps settings grammar before [] before
  | tail {all new : List Addition} {middle after : TypeGraph} (first : Steps settings grammar before all middle)
      (last : Step settings grammar middle new after) : Steps settings grammar before (all ++ new) after

variable {settings : Settings} {grammar : ValidGrammar} {graph after : TypeGraph} {all new : List Addition}

theorem Step.steps (step : Step settings grammar graph new after) : Steps settings grammar graph new after :=
  .tail .refl step

theorem Steps.trans {middle : TypeGraph} (first : Steps settings grammar graph all middle)
    (last : Steps settings grammar middle new after) : Steps settings grammar graph (all ++ new) after := by
  induction last with
  | refl => rwa [List.append_nil]
  | tail _ step ih =>
    rw [← List.append_assoc]
    exact ih.tail step

/-- Nodes that are there stay as they are, apart from their edges and members. -/
structure Keeps (before after : TypeGraph) : Prop where
  ids : ∀ id ∈ before.ids, id ∈ after.ids
  alike : ∀ id ∈ before.ids, (after.node id).Alike (before.node id)

theorem Keeps.refl (graph : TypeGraph) : Keeps graph graph :=
  ⟨fun _ inside => inside, fun _ _ => ⟨rfl, rfl, rfl⟩⟩

theorem Keeps.trans {before middle after : TypeGraph} (first : Keeps before middle) (last : Keeps middle after) :
    Keeps before after := by
  refine ⟨fun id inside => last.ids id (first.ids id inside), fun id inside => ?_⟩
  have one := first.alike id inside
  have other := last.alike id (first.ids id inside)
  exact ⟨other.identity.trans one.identity, other.name.trans one.name, other.kind.trans one.kind⟩

theorem alike_modify {id : TypeId} {change : TypeNode → TypeNode} (alike : ∀ node, (change node).Alike node)
    (other : TypeId) : ((graph.modify id change).node other).Alike (graph.node other) :=
  ⟨node_modify_of_same TypeNode.identity fun node => (alike node).identity,
    node_modify_of_same TypeNode.name fun node => (alike node).name,
    node_modify_of_same TypeNode.kind fun node => (alike node).kind⟩

theorem alike_addSubtype {above below : TypeId} (other : TypeId) :
    ((graph.addSubtype above below).node other).Alike (graph.node other) :=
  ⟨node_addSubtype TypeNode.identity (fun _ _ => rfl) fun _ _ => rfl,
    node_addSubtype TypeNode.name (fun _ _ => rfl) fun _ _ => rfl,
    node_addSubtype TypeNode.kind (fun _ _ => rfl) fun _ _ => rfl⟩

theorem alike_addToken {id : TypeId} {name token : String} (other : TypeId) :
    ((graph.addToken id name token).node other).Alike (graph.node other) :=
  ⟨node_addToken TypeNode.identity fun _ _ => rfl, node_addToken TypeNode.name fun _ _ => rfl,
    node_addToken TypeNode.kind fun _ _ => rfl⟩

theorem keeps_reserve (graph : TypeGraph) (parent : TypeId) (name identity : String) :
    Keeps graph (graph.reserve parent name identity) :=
  ⟨fun _ inside => inside, fun _ _ => ⟨rfl, rfl, rfl⟩⟩

theorem Added.old {node : TypeNode} {id : TypeId} (added : Added graph node after id) {other : TypeId}
    (inside : other ∈ graph.ids) : after.node other = graph.node other :=
  added.elsewhere other fun same => added.number (same ▸ inside)

theorem Added.keeps {node : TypeNode} {id : TypeId} (added : Added graph node after id) : Keeps graph after :=
  ⟨fun other inside => (added.ids other).mpr (Or.inl inside),
    fun _ inside => by rw [added.old inside]; exact ⟨rfl, rfl, rfl⟩⟩

theorem Step.keeps (step : Step settings grammar graph new after) : Keeps graph after := by
  cases step with
  | nodeType _ _ added => exact (addNode_eq_ok added).2.keeps
  | nested _ _ _ _ _ _ added => exact (addNode_eq_ok added).2.of_reserve.keeps
  | subtype => exact ⟨fun _ inside => by rwa [ids_addSubtype], fun id _ => alike_addSubtype id⟩
  | fill _ adds => exact ⟨fun _ inside => by rwa [ids_modify], fun id _ => alike_modify adds.alike id⟩
  | token => exact ⟨fun _ inside => by rwa [addToken, ids_modify], fun id _ => alike_addToken id⟩
  | root => exact ⟨fun _ inside => inside, fun _ _ => ⟨rfl, rfl, rfl⟩⟩

theorem Steps.keeps (steps : Steps settings grammar graph all after) : Keeps graph after := by
  induction steps with
  | refl => exact .refl graph
  | tail _ step ih => exact ih.trans step.keeps

/-- Names that are reserved stay so, for the types that they are reserved for. -/
def Respects (before after : TypeGraph) : Prop :=
  ∀ parent name owner, before.reservedBy? parent name = some owner → after.reservedBy? parent name = some owner

theorem respects_of_eq (same : after.nestedNames = graph.nestedNames) : Respects graph after := by
  intro parent name owner reserved
  rwa [reservedBy?, same]

theorem respects_reserve {parent : TypeId} {name identity : String} (free : graph.reservedBy? parent name = none) :
    Respects graph (graph.reserve parent name identity) := by
  intro other text owner reserved
  rw [reservedBy?_reserve, if_neg, reserved]
  rintro ⟨rfl, rfl⟩
  cases free.symm.trans reserved

/-- What a step does to the constants of a token class. -/
inductive TokenChange (settings : Settings) (grammar : ValidGrammar) (before after : TypeGraph) (id : TypeId) : Prop
  | none (tokens : (after.node id).tokens = (before.node id).tokens)
  | added {use : TokenUse} {index : Nat} {name : String} (inside : id ∈ before.ids)
      (used : Uses grammar (before.node id).identity use index)
      (named : settings.names.scheme.tokens.name use index = .ok name)
      (newText : ∀ known ∈ (before.node id).tokens, known.token ≠ use.token)
      (newName : ∀ known ∈ (before.node id).tokens, known.name ≠ name)
      (tokens : (after.node id).tokens = (before.node id).tokens ++ [⟨name, use.token⟩])

theorem Step.tokenChange (step : Step settings grammar graph new after) (id : TypeId) :
    TokenChange settings grammar graph after id := by
  cases step with
  | nodeType _ _ added => exact .none ((addNode_eq_ok added).2.unchanged TypeNode.tokens rfl id)
  | nested _ _ _ _ _ _ added => exact .none ((addNode_eq_ok added).2.of_reserve.unchanged TypeNode.tokens rfl id)
  | subtype => exact .none (node_addSubtype TypeNode.tokens (fun _ _ => rfl) fun _ _ => rfl)
  | fill _ adds => exact .none (node_modify_of_same TypeNode.tokens adds.tokens)
  | root => exact .none rfl
  | @token owner use _ name inside used named newText newName =>
    by_cases same : id = owner
    · subst same
      refine .added inside used named newText newName ?_
      rw [addToken, node_modify, if_pos ⟨rfl, inside⟩]
    · apply TokenChange.none
      rw [addToken, node_modify, if_neg fun both => same both.1]

/-- A constant of a token class stands for a token of its slot, under the name that the scheme has for it there. -/
def Sourced (settings : Settings) (grammar : ValidGrammar) (identity : String) (constant : TokenConstant) : Prop :=
  ∃ use index, Uses grammar identity use index ∧ constant.token = use.token ∧
    settings.names.scheme.tokens.name use index = .ok constant.name

theorem tokens_of_not_mem {id : TypeId} (absent : id ∉ graph.ids) : (graph.node id).tokens = [] := by
  rw [node_eq_default absent]
  rfl

theorem Steps.sourced (steps : Steps settings grammar empty all graph) :
    ∀ id, ∀ constant ∈ (graph.node id).tokens, Sourced settings grammar (graph.node id).identity constant := by
  induction steps with
  | refl =>
    intro id constant member
    rw [tokens_of_not_mem (by simp [ids, size, empty])] at member
    cases member
  | @tail _ _ middle _ _ step ih =>
    intro id constant member
    have identity : id ∈ middle.ids → (middle.node id).identity = _ := fun inside =>
      (step.keeps.alike id inside).identity.symm
    cases step.tokenChange id with
    | none tokens =>
      rw [tokens] at member
      have inside : id ∈ middle.ids := by
        apply Decidable.byContradiction
        intro absent
        simp [tokens_of_not_mem absent] at member
      exact identity inside ▸ ih id constant member
    | added inside used named _ _ tokens =>
      rw [tokens, List.mem_append, List.mem_singleton] at member
      rcases member with known | rfl
      · exact identity inside ▸ ih id constant known
      · exact ⟨_, _, identity inside ▸ used, rfl, named⟩

/-- Node types are classes of the package, and the types of slots are nested in the class of a node type, which keeps
their names for them. Each has the name and the identity of its place. -/
inductive Placed (settings : Settings) (graph : TypeGraph) (node : TypeNode) : Prop
  | nodeType (simple : String) (kind : node.kind.isNodeType = true)
      (assigned : settings.names.className node.identity = .ok simple)
      (name : node.name = .topLevel settings.package simple)
  | nested (parent : TypeId) (place : Place) (slot : node.kind.isNodeType = false) (inside : parent ∈ graph.ids)
      (regular : (graph.node parent).kind = .regular) (declared : place.Declared)
      (usable : Naming.Names.typeName (place.typeName node.kind) = .ok (place.typeName node.kind))
      (identity : node.identity = place.typeIdentity (graph.node parent).identity node.kind)
      (name : node.name = (graph.node parent).name.nested (place.typeName node.kind))
      (reserved : graph.reservedBy? parent (place.typeName node.kind) = some node.identity)

theorem Placed.keep {node : TypeNode} (placed : Placed settings graph node) (keeps : Keeps graph after)
    (respects : Respects graph after) : Placed settings after node := by
  cases placed with
  | nodeType simple kind assigned name => exact .nodeType simple kind assigned name
  | nested parent place slot inside regular declared usable identity name reserved =>
    have alike := keeps.alike parent inside
    exact .nested parent place slot (keeps.ids parent inside) (alike.kind.trans regular) declared usable
      (alike.identity ▸ identity) (alike.name ▸ name) (respects _ _ _ reserved)

theorem Placed.congr {node other : TypeNode} (placed : Placed settings graph node) (alike : other.Alike node) :
    Placed settings graph other := by
  obtain ⟨identity, name, kind⟩ := alike
  cases placed with
  | nodeType simple node assigned named => exact .nodeType simple (kind ▸ node) (identity ▸ assigned) (name.trans named)
  | nested parent place slot inside regular declared usable same named reserved =>
    rw [← kind] at slot usable same named reserved
    rw [← identity] at reserved
    exact .nested parent place slot inside regular declared usable (identity.trans same) (name.trans named) reserved

/-- Nodes are found by their identities, node types are those of the grammar, and every node is in its place. -/
structure Formed (settings : Settings) (grammar : ValidGrammar) (graph : TypeGraph) : Prop where
  indexed : graph.Indexed
  described : ∀ id ∈ graph.ids, (graph.node id).kind.isNodeType = true →
    (graph.node id).identity ∈ grammar.names (graph.node id).kind
  placed : ∀ id ∈ graph.ids, Placed settings graph (graph.node id)
  root : ∀ id, graph.root = some id → id ∈ graph.ids

theorem formed_empty : Formed settings grammar empty :=
  ⟨indexed_empty, List.forall_mem_nil _, List.forall_mem_nil _, fun _ none => nomatch none⟩

theorem Formed.unique (formed : Formed settings grammar graph) : ∀ one ∈ graph.ids, ∀ other ∈ graph.ids,
    (graph.node one).identity = (graph.node other).identity → one = other := formed.indexed.unique

theorem Formed.unchanged (formed : Formed settings grammar graph) (keeps : Keeps graph after)
    (respects : Respects graph after) (index : after.byIdentity = graph.byIdentity) (ids : after.ids = graph.ids)
    (root : ∀ id, after.root = some id → id ∈ graph.ids) : Formed settings grammar after := by
  have alike : ∀ id ∈ after.ids, (after.node id).Alike (graph.node id) := fun id inside => keeps.alike id (ids ▸ inside)
  refine ⟨?_, fun id inside node => ?_, fun id inside => ?_, fun id known => ids ▸ root id known⟩
  · exact formed.indexed.unchanged index ids fun id inside => (keeps.alike id inside).identity
  · rw [(alike id inside).kind] at node ⊢
    rw [(alike id inside).identity]
    exact formed.described id (ids ▸ inside) node
  · exact ((formed.placed id (ids ▸ inside)).keep keeps respects).congr (alike id inside)

theorem Formed.reserve (formed : Formed settings grammar graph) {parent : TypeId} {name identity : String}
    (free : graph.reservedBy? parent name = none) : Formed settings grammar (graph.reserve parent name identity) :=
  formed.unchanged (keeps_reserve ..) (respects_reserve free) rfl rfl formed.root

theorem root_of_addNode {identity : String} {name : ClassName} {kind : TypeKind} {id : TypeId}
    (run : graph.addNode identity name kind = .ok (after, id)) : after.root = graph.root := by
  rw [addNode] at run
  split at run
  · cases run
  · cases run
    rfl

theorem Formed.add {identity : String} {name : ClassName} {kind : TypeKind} {id : TypeId}
    (formed : Formed settings grammar graph) (run : graph.addNode identity name kind = .ok (after, id))
    (described : kind.isNodeType = true → identity ∈ grammar.names kind)
    (placed : Placed settings graph (.new identity name kind)) : Formed settings grammar after := by
  have added := (addNode_eq_ok run).2
  have keeps := added.keeps
  have respects := respects_of_eq (nestedNames_of_addNode run)
  refine ⟨formed.indexed.add run, fun other inside node => ?_, fun other inside => ?_, fun other known => ?_⟩
  · rcases (added.ids other).mp inside with old | rfl
    · rw [added.old old] at node ⊢
      exact formed.described other old node
    · rw [added.here] at node ⊢
      exact described node
  · rcases (added.ids other).mp inside with old | rfl
    · rw [added.old old]
      exact (formed.placed other old).keep keeps respects
    · rw [added.here]
      exact placed.keep keeps respects
  · rw [root_of_addNode run] at known
    exact keeps.ids other (formed.root other known)

theorem Step.formed (step : Step settings grammar graph new after) (formed : Formed settings grammar graph) :
    Formed settings grammar after := by
  have keeps := step.keeps
  cases step with
  | nodeType listed assigned added =>
    have node := ValidGrammar.isNodeType_of_mem_names listed
    exact formed.add added (fun _ => listed) (.nodeType _ node assigned rfl)
  | nested inside regular slot declared usable free added =>
    refine (formed.reserve free).add added (fun node => ?_) (.nested _ _ slot inside regular declared usable rfl rfl ?_)
    · rw [slot] at node
      cases node
    · exact reservedBy?_reserve.trans (if_pos ⟨rfl, rfl⟩)
  | subtype => exact formed.unchanged keeps (respects_of_eq rfl) rfl ids_addSubtype formed.root
  | fill => exact formed.unchanged keeps (respects_of_eq rfl) rfl (ids_modify _) formed.root
  | token => exact formed.unchanged keeps (respects_of_eq rfl) rfl (ids_modify _) formed.root
  | root inside =>
    refine formed.unchanged keeps (respects_of_eq rfl) rfl rfl fun id known => ?_
    cases known
    exact inside

/-- Only interfaces have subtypes, nothing is above the interface of a slot, and what is below a supertype of the
grammar is listed there. -/
structure Layered (settings : Settings) (grammar : ValidGrammar) (graph : TypeGraph) : Prop where
  inside : ∀ below above, graph.Above below above → above ∈ graph.ids
  upper : ∀ above below, graph.Below above below → (graph.node above).kind.isInterface = true
  lower : ∀ below above, graph.Above below above → (graph.node below).kind ≠ .childTypes
  listed : ∀ below above, graph.Above below above → (graph.node above).kind = .supertype →
    grammar.Lists settings.fallbackTypes (graph.node below).identity (graph.node above).identity

theorem layered_empty : Layered settings grammar empty :=
  ⟨fun _ _ edge => absurd edge not_above_empty, fun _ _ edge => absurd edge not_below_empty,
    fun _ _ edge => absurd edge not_above_empty, fun _ _ edge => absurd edge not_above_empty⟩

theorem Layered.unchanged (layered : Layered settings grammar graph) (keeps : Keeps graph after)
    (supertypes : ∀ id, (after.node id).supertypes = (graph.node id).supertypes)
    (subtypes : ∀ id, (after.node id).subtypes = (graph.node id).subtypes) : Layered settings grammar after := by
  have above : ∀ {below above}, after.Above below above → graph.Above below above := by
    intro below above edge
    rwa [Above, supertypes] at edge
  have below : ∀ {above below}, after.Below above below → graph.Below above below := by
    intro above below edge
    rwa [Below, subtypes] at edge
  refine ⟨fun lower upper edge => keeps.ids upper (layered.inside lower upper (above edge)), fun upper lower edge => ?_,
    fun lower upper edge => ?_, fun lower upper edge kind => ?_⟩
  · rw [(keeps.alike upper (below edge).inside).kind]
    exact layered.upper upper lower (below edge)
  · rw [(keeps.alike lower (above edge).inside).kind]
    exact layered.lower lower upper (above edge)
  · have upperAlike := keeps.alike upper (layered.inside lower upper (above edge))
    rw [upperAlike.kind] at kind
    rw [(keeps.alike lower (above edge).inside).identity, upperAlike.identity]
    exact layered.listed lower upper (above edge) kind

theorem Step.layered (step : Step settings grammar graph new after) (layered : Layered settings grammar graph) :
    Layered settings grammar after := by
  have keeps := step.keeps
  cases step with
  | nodeType _ _ added =>
    have added := (addNode_eq_ok added).2
    exact layered.unchanged keeps (added.unchanged TypeNode.supertypes rfl) (added.unchanged TypeNode.subtypes rfl)
  | nested _ _ _ _ _ _ added =>
    have added := (addNode_eq_ok added).2.of_reserve
    exact layered.unchanged keeps (added.unchanged TypeNode.supertypes rfl) (added.unchanged TypeNode.subtypes rfl)
  | fill _ adds =>
    exact layered.unchanged keeps (fun _ => node_modify_of_same TypeNode.supertypes adds.supertypes)
      fun _ => node_modify_of_same TypeNode.subtypes adds.subtypes
  | token =>
    exact layered.unchanged keeps (fun _ => node_addToken TypeNode.supertypes fun _ _ => rfl)
      fun _ => node_addToken TypeNode.subtypes fun _ _ => rfl
  | root => exact ⟨layered.inside, layered.upper, layered.lower, layered.listed⟩
  | @subtype supertype subtype upper lower interface low listed =>
    have kind : ∀ id, ((graph.addSubtype supertype subtype).node id).kind = (graph.node id).kind :=
      fun id => (alike_addSubtype id).kind
    have identity : ∀ id, ((graph.addSubtype supertype subtype).node id).identity = (graph.node id).identity :=
      fun id => (alike_addSubtype id).identity
    constructor
    · intro below above edge
      rw [ids_addSubtype]
      rcases (mem_supertypes_addSubtype lower).mp edge with old | ⟨_, rfl⟩
      · exact layered.inside below above old
      · exact upper
    · intro above below edge
      rw [kind]
      rcases (mem_subtypes_addSubtype upper).mp edge with old | ⟨rfl, _⟩
      · exact layered.upper above below old
      · exact interface
    · intro below above edge
      rw [kind]
      rcases (mem_supertypes_addSubtype lower).mp edge with old | ⟨rfl, _⟩
      · exact layered.lower below above old
      · exact low
    · intro below above edge
      rw [kind, identity, identity]
      rcases (mem_supertypes_addSubtype lower).mp edge with old | ⟨rfl, rfl⟩
      · exact layered.listed below above old
      · exact listed

theorem membersOf_append (owner : String) : membersOf (all ++ new) owner = membersOf all owner ++ membersOf new owner := by
  simp [membersOf]

theorem membersOf_additions (owner : String) (members : List Member) :
    membersOf (additions owner members) owner = members := by
  simp [membersOf, additions, List.filter_map, Function.comp_def]

theorem membersOf_additions_of_ne {owner other : String} (different : owner ≠ other) (members : List Member) :
    membersOf (additions owner members) other = [] := by
  simp [membersOf, additions, List.filter_map, Function.comp_def, different]

/-- The nodes of a graph have all that was added to types with their identities, and nothing else was added. -/
structure Filled (all : List Addition) (graph : TypeGraph) : Prop where
  has : ∀ id ∈ graph.ids, (graph.node id).Has (membersOf all (graph.node id).identity)
  owners : ∀ addition ∈ all, ∃ id ∈ graph.ids, (graph.node id).identity = addition.1

theorem Filled.unchanged (filled : Filled all graph) (ids : after.ids = graph.ids)
    (identity : ∀ id, (after.node id).identity = (graph.node id).identity)
    (has : ∀ id members, (graph.node id).Has members → (after.node id).Has members) : Filled all after := by
  refine ⟨fun id inside => ?_, fun addition member => ?_⟩
  · rw [identity]
    exact has id _ (filled.has id (ids ▸ inside))
  · obtain ⟨id, inside, same⟩ := filled.owners addition member
    exact ⟨id, ids ▸ inside, (identity id).trans same⟩

theorem Filled.add {identity : String} {name : ClassName} {kind : TypeKind} {id : TypeId} (filled : Filled all graph)
    (indexed : graph.Indexed) (run : graph.addNode identity name kind = .ok (after, id)) : Filled all after := by
  obtain ⟨free, added⟩ := addNode_eq_ok run
  refine ⟨fun other inside => ?_, fun addition member => ?_⟩
  · rcases (added.ids other).mp inside with old | rfl
    · rw [added.old old]
      exact filled.has other old
    · have nothing : all.filter (·.1 = identity) = [] := by
        rw [List.filter_eq_nil_iff]
        intro addition member same
        obtain ⟨owner, inside, named⟩ := filled.owners addition member
        exact indexed.identity_ne_of_free free inside (named.trans (of_decide_eq_true same))
      rw [added.here, membersOf]
      exact nothing ▸ TypeNode.has_new
  · obtain ⟨owner, inside, same⟩ := filled.owners addition member
    exact ⟨owner, (added.ids owner).mpr (Or.inl inside), by rwa [added.old inside]⟩

theorem Step.filled (step : Step settings grammar graph new after) (formed : Formed settings grammar graph)
    (filled : Filled all graph) : Filled (all ++ new) after := by
  cases step with
  | nodeType _ _ added =>
    rw [List.append_nil]
    exact filled.add formed.indexed added
  | nested _ _ _ _ _ free added =>
    rw [List.append_nil]
    refine Filled.add ?_ (formed.reserve free).indexed added
    exact filled.unchanged rfl (fun _ => rfl) fun _ _ has => has
  | subtype =>
    rw [List.append_nil]
    refine filled.unchanged ids_addSubtype (fun id => (alike_addSubtype id).identity) fun id members has => ?_
    constructor
    · rw [node_addSubtype TypeNode.constants (fun _ _ => rfl) fun _ _ => rfl]
      exact has.constants
    · rw [node_addSubtype TypeNode.methods (fun _ _ => rfl) fun _ _ => rfl]
      exact has.getters
    · rw [node_addSubtype TypeNode.customMethods (fun _ _ => rfl) fun _ _ => rfl]
      exact has.customMethods
    · rw [node_addSubtype TypeNode.methods (fun _ _ => rfl) fun _ _ => rfl,
        node_addSubtype TypeNode.customMethods (fun _ _ => rfl) fun _ _ => rfl]
      exact has.customKind
  | token =>
    rw [List.append_nil]
    refine filled.unchanged (ids_modify _) (fun id => (alike_addToken id).identity) fun id members has => ?_
    constructor
    · rw [node_addToken TypeNode.constants fun _ _ => rfl]
      exact has.constants
    · rw [node_addToken TypeNode.methods fun _ _ => rfl]
      exact has.getters
    · rw [node_addToken TypeNode.customMethods fun _ _ => rfl]
      exact has.customMethods
    · rw [node_addToken TypeNode.methods fun _ _ => rfl, node_addToken TypeNode.customMethods fun _ _ => rfl]
      exact has.customKind
  | root =>
    rw [List.append_nil]
    exact ⟨filled.has, filled.owners⟩
  | @fill owner change members inside adds =>
    have identity : ∀ id, ((graph.modify owner change).node id).identity = (graph.node id).identity :=
      fun id => (alike_modify adds.alike id).identity
    refine ⟨fun id member => ?_, fun addition member => ?_⟩
    · rw [ids_modify] at member
      rw [identity, membersOf_append, node_modify]
      split
      next same =>
        obtain ⟨rfl, _⟩ := same
        rw [membersOf_additions]
        exact adds.has _ _ (filled.has id member)
      next other =>
        -- Identities are distinct, so what is added under this one belongs to no other node.
        have different : (graph.node owner).identity ≠ (graph.node id).identity := fun same =>
          other ⟨formed.unique id member owner inside same.symm, inside⟩
        rw [membersOf_additions_of_ne different, List.append_nil]
        exact filled.has id member
    · rw [ids_modify]
      simp only [identity]
      rcases List.mem_append.mp member with old | new
      · exact filled.owners addition old
      · obtain ⟨_, _, rfl⟩ := List.mem_map.mp new
        exact ⟨owner, inside, rfl⟩

/-- What holds of every graph that a run leads to. -/
structure Reached (settings : Settings) (grammar : ValidGrammar) (all : List Addition) (graph : TypeGraph) : Prop where
  formed : Formed settings grammar graph
  layered : Layered settings grammar graph
  filled : Filled all graph

theorem Steps.reached (steps : Steps settings grammar empty all graph) : Reached settings grammar all graph := by
  induction steps with
  | refl => exact ⟨formed_empty, layered_empty, List.forall_mem_nil _, List.forall_mem_nil _⟩
  | tail _ step ih =>
    exact ⟨step.formed ih.formed, step.layered ih.layered, step.filled ih.formed ih.filled⟩

end TypeGraph

end TypedTree
