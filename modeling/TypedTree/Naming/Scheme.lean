import TypedTree.Naming.Token
import TypedTree.Naming.WordCase

/-! The names of everything that is generated for a node type, its fields and its children. -/

namespace TypedTree.Naming

/-- Types are called `Node` and their own name unless a pattern says otherwise. -/
structure Scheme where
  tokens : TokenNames
  typePattern : Option (NamePattern String)

/-- Type patterns know the name of the node type in camel case. -/
def typePlaceholders : Placeholders String := .ofList [("node", spell typeCase)]

namespace Scheme

def automatic : Scheme := ⟨.automatic, none⟩

def withPattern (scheme : Scheme) (pattern : String) : Except PatternError Scheme := do
  let pattern ← NamePattern.read typePlaceholders pattern
  return { scheme with typePattern := some pattern }

def className (scheme : Scheme) (type : String) : String :=
  match scheme.typePattern with
  | some pattern => pattern.apply type
  | none => "Node" ++ spell typeCase type

def typeNameConstant : String := "TYPE_NAME"

def typeIdConstant : String := "TYPE_ID"

def childrenInterface : String := "Child"

def childrenTokens : String := "ChildTokenType"

def childrenGetter (multiple : Bool) : String := if multiple then "getChildren" else "getChild"

private def fieldWord (field : String) : String := spell (fun name => upperFirst (camelCase name)) field

def fieldNameConstant (field : String) : String := "FIELD_" ++ spell constantCase field

def fieldIdConstant (field : String) : String := "FIELD_" ++ spell constantCase field ++ "_ID"

def fieldInterface (field : String) : String := "Field" ++ fieldWord field

def fieldTokens (field : String) : String := "FieldToken" ++ fieldWord field

def fieldGetter (field : String) : String := "getField" ++ fieldWord field

/-- A node with fields usually has its relevant children in them. -/
def unnamedChildrenGetter? (hasFields : Bool) : Option String :=
  if hasFields then none else some "getUnnamedChildren"

end Scheme

end TypedTree.Naming
