import TypedTree.Table
import TypedTree.Distinct

/-!
Grammars as lists of node types. A node has named fields and unnamed children, and each of these slots
lists the types that may stand in it; types without a name are tokens.
-/

namespace TypedTree

structure TypeMention where
  name : String
  named : Bool
deriving DecidableEq, Repr, Inhabited

/-- What may stand in a field or among the unnamed children. -/
structure Slot where
  multiple : Bool
  required : Bool
  types : List TypeMention
deriving DecidableEq, Repr, Inhabited

namespace Slot

def typeNames (slot : Slot) : List String := slot.types.map (·.name)

def nodeTypes (slot : Slot) : List String := (slot.types.filter (·.named)).map (·.name)

def tokens (slot : Slot) : List String := (slot.types.filter (!·.named)).map (·.name)

end Slot

structure NodeType where
  name : String
  named : Bool
  extra : Bool
  root : Bool
  fields : Option (Table String Slot)
  children : Option Slot
  /-- Present for supertypes only. -/
  subtypes : Option (List TypeMention)
deriving DecidableEq, Inhabited

namespace NodeType

def isSupertype (node : NodeType) : Bool := node.subtypes.isSome

/-- The fields in their order; none if the node does not mention any. -/
def fieldSlots (node : NodeType) : List (String × Slot) :=
  match node.fields with
  | some fields => fields.entries
  | none => []

def hasFields (node : NodeType) : Bool := !node.fieldSlots.isEmpty

end NodeType

structure Grammar where
  nodeTypes : List NodeType
deriving DecidableEq, Inhabited

/-- A token in a field of a node type. Tokens among unnamed children have no field. -/
structure TokenUse where
  parent : String
  field : String
  token : String
deriving DecidableEq, Repr

/-- Stands for any parent or any field in a table of token names, and for the unnamed children. -/
def anyKey : String := ""

namespace Grammar

def namedNodes (grammar : Grammar) : List NodeType := grammar.nodeTypes.filter (·.named)

/-- The names of the node types that have one, supertypes included. -/
def typeNames (grammar : Grammar) : List String := grammar.namedNodes.map (·.name)

end Grammar

/-- The tokens of one node type, fields before unnamed children. -/
def NodeType.tokenUses (node : NodeType) : List TokenUse :=
  node.fieldSlots.flatMap (fun (field, slot) => slot.tokens.map (⟨node.name, field, ·⟩))
    ++ match node.children with
      | some slot => slot.tokens.map (⟨node.name, anyKey, ·⟩)
      | none => []

/-- Every use of a token, at its first occurrence. -/
def Grammar.tokenUses (grammar : Grammar) : List TokenUse :=
  Distinct.ofList (grammar.namedNodes.flatMap NodeType.tokenUses)

end TypedTree
