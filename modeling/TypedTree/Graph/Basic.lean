import TypedTree.CustomMethod

/-!
The graph of generated types. Nodes are numbered in the order of their creation, and every edge between a
type and its supertype is kept at both of its ends.
-/

namespace TypedTree

open Java (ClassName)

inductive TypeKind where
  /-- A class for a node type. -/
  | regular
  /-- An interface for a supertype of the grammar. -/
  | supertype
  /-- An interface for all that may stand in one slot of a node. -/
  | childTypes
  /-- A class for the tokens of one slot of a node. -/
  | tokens
deriving DecidableEq, Repr, Inhabited

namespace TypeKind

def isInterface : TypeKind → Bool
  | supertype => true
  | childTypes => true
  | regular => false
  | tokens => false

def isNodeType : TypeKind → Bool
  | regular => true
  | supertype => true
  | childTypes => false
  | tokens => false

def text : TypeKind → String
  | regular => "regular"
  | supertype => "supertype"
  | childTypes => "child-types"
  | tokens => "tokens"

end TypeKind

structure Constant where
  name : String
  /-- Absent if the value is known at run time only. -/
  value : Option String
deriving DecidableEq, Repr

structure TokenConstant where
  name : String
  token : String
deriving DecidableEq, Repr

/-- The number of a node. Numbers have 32 bits, so graphs with fewer than `2 ^ 32` nodes are meant. -/
abbrev TypeId := Nat

structure TypeNode where
  /-- The name of a node type, or the place of a slot. -/
  identity : String
  name : ClassName
  kind : TypeKind
  extra : Bool
  supertypes : List TypeId
  subtypes : List TypeId
  /-- All methods of the type itself, custom methods included. -/
  methods : List Method
  customMethods : List CustomMethod
  constants : List Constant
  tokens : List TokenConstant
  /-- Methods that all subtypes share; absent until they are resolved. -/
  common : Option (List Method)
deriving Inhabited

namespace TypeNode

def new (identity : String) (name : ClassName) (kind : TypeKind) : TypeNode :=
  ⟨identity, name, kind, false, [], [], [], [], [], [], none⟩

def commonMethods (node : TypeNode) : List Method := node.common.getD []

def allMethods (node : TypeNode) : List Method := node.methods ++ node.commonMethods

end TypeNode

structure TypeGraph where
  nodes : Array TypeNode
  root : Option TypeId
  /-- The number of each node, by its identity. -/
  byIdentity : Table String TypeId := .ofList (nodes.toList.zipIdx.map fun (node, id) => (node.identity, id))
  /-- For each class, the simple names of the types nested in it, with the identities of these types. -/
  nestedNames : Table TypeId (Table String String) := .empty
deriving Inhabited

namespace TypeGraph

def empty : TypeGraph := ⟨#[], none, .empty, .empty⟩

def size (graph : TypeGraph) : Nat := graph.nodes.size

def ids (graph : TypeGraph) : List TypeId := List.range graph.size

/-- The node with a number; a blank one if the graph has none with it. -/
def node (graph : TypeGraph) (id : TypeId) : TypeNode := graph.nodes.getD id default

theorem node_eq_default {graph : TypeGraph} {id : TypeId} (absent : id ∉ graph.ids) :
    graph.node id = default := by
  have outside : ¬ id < graph.nodes.size := fun inside => absent (List.mem_range.mpr inside)
  simp [node, Array.getD, outside]

def id? (graph : TypeGraph) (identity : String) : Option TypeId :=
  graph.byIdentity.get? identity

def modify (graph : TypeGraph) (id : TypeId) (f : TypeNode → TypeNode) : TypeGraph :=
  { graph with nodes := graph.nodes.modify id f }

/-- Adds a node. No two nodes have the same identity. -/
def addNode (graph : TypeGraph) (identity : String) (name : ClassName) (kind : TypeKind) :
    Except Error (TypeGraph × TypeId) :=
  match graph.id? identity with
  | some _ => .error (.duplicateType identity)
  | none =>
    .ok ({ graph with
      nodes := graph.nodes.push (.new identity name kind)
      byIdentity := graph.byIdentity.insert identity graph.size }, graph.size)

/-- The type for which a simple name is reserved in the class of another type. -/
def reservedBy? (graph : TypeGraph) (parent : TypeId) (name : String) : Option String :=
  (graph.nestedNames.get? parent).bind (·.get? name)

def reserve (graph : TypeGraph) (parent : TypeId) (name identity : String) : TypeGraph :=
  { graph with
    nestedNames := graph.nestedNames.update parent fun names => (names.getD .empty).insert name identity }

/-- Adds an edge, at both of its ends. -/
def addSubtype (graph : TypeGraph) (supertype subtype : TypeId) : TypeGraph :=
  (graph.modify supertype fun node => { node with subtypes := Distinct.add node.subtypes subtype }).modify
    subtype fun node => { node with supertypes := Distinct.add node.supertypes supertype }

def addMethod (graph : TypeGraph) (id : TypeId) (method : Method) : TypeGraph :=
  graph.modify id fun node => { node with methods := node.methods ++ [method] }

/-- A custom method is one of the methods of its type too. -/
def addCustomMethod (graph : TypeGraph) (id : TypeId) (custom : CustomMethod) : TypeGraph :=
  graph.modify id fun node =>
    { node with
      methods := node.methods ++ [custom.method]
      customMethods := node.customMethods ++ [custom] }

def addConstant (graph : TypeGraph) (id : TypeId) (name : String) (value : Option String) : TypeGraph :=
  graph.modify id fun node => { node with constants := node.constants ++ [⟨name, value⟩] }

def addToken (graph : TypeGraph) (id : TypeId) (name token : String) : TypeGraph :=
  graph.modify id fun node => { node with tokens := node.tokens ++ [⟨name, token⟩] }

def setExtra (graph : TypeGraph) (id : TypeId) (extra : Bool) : TypeGraph :=
  graph.modify id fun node => { node with extra }

def setRoot (graph : TypeGraph) (id : TypeId) : TypeGraph := { graph with root := some id }

/-- Resolves the common methods of a node, which can be done once. -/
def setCommonMethods (graph : TypeGraph) (id : TypeId) (methods : List Method) :
    Except Error TypeGraph :=
  if (graph.node id).common.isSome then .error (.alreadyResolved (graph.node id).identity)
  else .ok (graph.modify id fun node => { node with common := some methods })

def interfaces (graph : TypeGraph) : List TypeId :=
  graph.ids.filter fun id => (graph.node id).kind.isInterface

def interfacesBelow (graph : TypeGraph) (node : TypeNode) : List TypeId :=
  node.subtypes.filter fun sub => (graph.node sub).kind.isInterface

def subInterfaces (graph : TypeGraph) (id : TypeId) : List TypeId :=
  graph.interfacesBelow (graph.node id)

end TypeGraph

end TypedTree
