import TypedTree.Graph.Hierarchy
import TypedTree.Grammar.Validation
import TypedTree.Naming.Names

/-!
Building the types of a grammar. Each named node type gets a class or interface, and each of its slots a
getter; a slot that does not stand for one node type gets types of its own, nested in the class.
-/

namespace TypedTree

open Java (ClassName JavaType Ancestry)
open Naming (Names Scheme)

/-- What is needed besides the grammar to build its types. -/
structure Settings where
  names : Names
  package : String
  fallbackTypes : Table String String
  customMethods : CustomMethods
  /-- Marks optional children; without it they are in a `java.util.Optional`. -/
  nullable : Option ClassName
  /-- Marks lists that have an element. -/
  nonEmpty : ClassName
  /-- The class of tree nodes without a type of their own. -/
  nodeClass : ClassName

/-- Where a slot stands in its node type. -/
inductive Place where
  | children
  | field (name : String)
deriving DecidableEq, Repr

namespace Place

/-- The identity of the types of a slot. -/
def identity (parent : String) : Place → String
  | children => parent ++ ".*"
  | field name => parent ++ "." ++ name

/-- The field under which the tokens of a slot are named. -/
def tokenField : Place → String
  | children => anyKey
  | field name => name

def getter (multiple : Bool) : Place → String
  | children => Scheme.childrenGetter multiple
  | field name => Scheme.fieldGetter name

def interface : Place → String
  | children => Scheme.childrenInterface
  | field name => Scheme.fieldInterface name

def tokenClass : Place → String
  | children => Scheme.childrenTokens
  | field name => Scheme.fieldTokens name

def methodKind (slot : Slot) : Place → MethodKind
  | children => .children slot.multiple slot.required
  | field name => .field name slot.multiple slot.required

end Place

def javaUtil (name : String) : ClassName := .topLevel "java.util" name

namespace TypeGraph

def nodeTypeId? (graph : TypeGraph) (name : String) : Option TypeId :=
  graph.nodes.findIdx? fun node => node.identity = name && node.kind.isNodeType

/-- The node of a node type, or else that of the type to use instead. -/
def resolve? (graph : TypeGraph) (fallback : Table String String) (name : String) : Option TypeId :=
  graph.nodeTypeId? name <|> (fallback.get? name).bind graph.nodeTypeId?

def lookup (graph : TypeGraph) (settings : Settings) (name referencedBy : String) :
    Except Error TypeId :=
  match graph.resolve? settings.fallbackTypes name with
  | some id => .ok id
  | none => .error (.unknownType name referencedBy)

def addCustomMethods (graph : TypeGraph) (settings : Settings) (id : TypeId) (type : String) :
    Except Error TypeGraph := do
  let methods ← settings.customMethods.forNodeType type
  methods.foldlM (fun (graph : TypeGraph) custom => do
    let _ ← Names.memberName custom.method.signature.name
    return graph.addCustomMethod id custom) graph

/-- The getter of all children, typed or not, for a node type without fields. -/
def addUnnamedGetter (graph : TypeGraph) (settings : Settings) (id : TypeId) (type : NodeType) :
    TypeGraph :=
  match Scheme.unnamedChildrenGetter? type.hasFields with
  | none => graph
  | some getter =>
    let list := JavaType.parameterized [] (javaUtil "List") [.ofClass settings.nodeClass]
    graph.addMethod id ⟨.unnamedChildren, .getter getter, some ⟨list, .empty⟩⟩

def addNodeType (settings : Settings) (kind : TypeKind) (graph : TypeGraph) (type : NodeType) :
    Except Error TypeGraph := do
  let className ← settings.names.className type.name
  let (graph, id) ← graph.addNode type.name (.topLevel settings.package className) kind
  let graph := graph.setExtra id type.extra
  let graph := graph.addConstant id Scheme.typeNameConstant (some type.name)
  let graph := graph.addConstant id Scheme.typeIdConstant none
  let graph := if kind = .regular then graph.addUnnamedGetter settings id type else graph
  graph.addCustomMethods settings id type.name

def addSubtypes (settings : Settings) (graph : TypeGraph) (type : NodeType) :
    Except Error TypeGraph := do
  let supertype ← graph.lookup settings type.name type.name
  ((type.subtypes.getD []).filter (·.named)).foldlM (fun (graph : TypeGraph) mention => do
    return graph.addSubtype supertype (← graph.lookup settings mention.name type.name)) graph

/-- Adds a type nested in the class of a node type, where its simple name must not be reserved for another one. -/
def addNested (graph : TypeGraph) (parent : TypeId) (name identity : String) (kind : TypeKind) :
    Except Error (TypeGraph × TypeId) := do
  let name ← Names.typeName name
  match graph.reservedBy? parent name with
  | some owner => .error (.duplicateName name owner identity)
  | none => (graph.reserve parent name identity).addNode identity ((graph.node parent).name.nested name) kind

/-- Adds the constant of a token, which must differ from those before it in text and name. -/
def addSlotToken (settings : Settings) (parent field : String) (id : TypeId) (graph : TypeGraph)
    (indexed : String × Nat) : Except Error TypeGraph := do
  let (token, index) := indexed
  let name ← settings.names.scheme.tokens.name ⟨parent, field, token⟩ index
  let name ← Names.memberName name
  let present := (graph.node id).tokens
  if present.any (·.token = token) then .error (.invalidGrammar (.repeatedToken token parent))
  else match present.find? (·.name = name) with
    | some first => .error (.duplicateName name first.token token)
    | none => return graph.addToken id name token

def addTokens (settings : Settings) (parent : TypeId) (type : NodeType) (place : Place) (slot : Slot)
    (graph : TypeGraph) : Except Error (TypeGraph × Option TypeId) := do
  if slot.tokens.isEmpty then return (graph, none)
  else
    let identity := place.identity type.name ++ "#tokens"
    let (graph, id) ← graph.addNested parent place.tokenClass identity .tokens
    let graph ← slot.tokens.zipIdx.foldlM (addSlotToken settings type.name place.tokenField id) graph
    return (graph, some id)

def addInterface (settings : Settings) (parent : TypeId) (type : NodeType) (place : Place) (slot : Slot)
    (tokens : Option TypeId) (graph : TypeGraph) : Except Error (TypeGraph × TypeId) := do
  let (graph, id) ← graph.addNested parent place.interface (place.identity type.name) .childTypes
  let graph ← slot.nodeTypes.foldlM (fun (graph : TypeGraph) name => do
    return graph.addSubtype id (← graph.lookup settings name type.name)) graph
  match tokens with
  | some tokens => return (graph.addSubtype id tokens, id)
  | none => return (graph, id)

/-- The type of a slot: its only node type, the class of its tokens, or an interface. What is known of
supertypes is of use only for a node type. -/
def addTarget (settings : Settings) (ancestry : Ancestry) (parent : TypeId) (type : NodeType)
    (place : Place) (slot : Slot) (graph : TypeGraph) : Except Error (TypeGraph × TypeId × Ancestry) :=
  match slot.tokens, slot.nodeTypes with
  | [], [name] => do
    return (graph, ← graph.lookup settings name type.name, ancestry)
  | _, nodeTypes => do
    let (graph, tokens) ← graph.addTokens settings parent type place slot
    match nodeTypes, tokens with
    | [], some id => return (graph, id, .empty)
    | _, tokens => do
      let (graph, id) ← graph.addInterface settings parent type place slot tokens
      return (graph, id, .empty)

/-- What a getter returns for a slot whose elements have the given type. -/
def getterType (settings : Settings) (slot : Slot) (element : JavaType) : JavaType :=
  if slot.multiple then
    .parameterized (if slot.required then [settings.nonEmpty] else []) (javaUtil "List") [element]
  else if slot.required then element
  else match settings.nullable with
    | some label => element.annotate [label]
    | none => .parameterized [] (javaUtil "Optional") [element]

def addFieldConstants (graph : TypeGraph) (parent : TypeId) : Place → Except Error TypeGraph
  | .children => .ok graph
  | .field name => do
    let nameConstant ← Names.memberName (Scheme.fieldNameConstant name)
    let idConstant ← Names.memberName (Scheme.fieldIdConstant name)
    return (graph.addConstant parent nameConstant (some name)).addConstant parent idConstant none

/-- Adds the getter of a slot, and the types that it needs. -/
def addAccessor (settings : Settings) (ancestry : Ancestry) (parent : TypeId) (type : NodeType)
    (graph : TypeGraph) (entry : Place × Slot) : Except Error TypeGraph := do
  let (place, slot) := entry
  if slot.types.isEmpty then
    .error (.invalidGrammar (.emptySlot (place.identity type.name)))
  else
    let graph ← graph.addFieldConstants parent place
    let getter ← Names.memberName (place.getter slot.multiple)
    let (graph, target, ancestry) ← graph.addTarget settings ancestry parent type place slot
    let returns := getterType settings slot (.ofClass (graph.node target).name)
    return graph.addMethod parent ⟨place.methodKind slot, .getter getter, some ⟨returns, ancestry⟩⟩

/-- The slots of a node type: its unnamed children, then its fields. -/
def slots (type : NodeType) : List (Place × Slot) :=
  (match type.children with
    | some slot => [(Place.children, slot)]
    | none => [])
  ++ type.fieldSlots.map fun (name, slot) => (.field name, slot)

def addAccessors (settings : Settings) (ancestry : Ancestry) (graph : TypeGraph) (type : NodeType) :
    Except Error TypeGraph := do
  let parent ← graph.lookup settings type.name type.name
  (slots type).foldlM (addAccessor settings ancestry parent type) graph

/-- Custom methods must be meant for node types of the grammar. -/
def checkCustomTypes (settings : Settings) (grammar : ValidGrammar) : Except Error Unit :=
  match settings.customMethods.unknownTypes ((grammar.regular ++ grammar.supertypes).map (·.name)) with
  | unknown :: _ => .error (.unknownType unknown "custom methods config")
  | [] => .ok ()

/-- Builds the types of a grammar. The edges between node types are all there before the first getter is
added, so that what is known of supertypes is complete. -/
def build (settings : Settings) (grammar : ValidGrammar) : Except Error TypeGraph := do
  checkCustomTypes settings grammar
  let graph ← grammar.regular.foldlM (addNodeType settings .regular) empty
  let graph ← grammar.supertypes.foldlM (addNodeType settings .supertype) graph
  let graph ← grammar.supertypes.foldlM (addSubtypes settings) graph
  let graph ← grammar.regular.foldlM (addAccessors settings graph.ancestry) graph
  match grammar.root with
  | some root => return graph.setRoot (← graph.lookup settings root "root node")
  | none => return graph

end TypeGraph

end TypedTree
