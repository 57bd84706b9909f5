import TypedTree.Graph.Hierarchy

/-!
The model that code is written from: the types of a graph in the order in which they are declared, with
names in place of edges.
-/

namespace TypedTree

open Java (ClassName)

structure Declaration where
  kind : TypeKind
  identity : String
  name : ClassName
  /-- The class around a nested type. -/
  enclosing : Option ClassName
  extra : Bool
  root : Bool
  supertypes : List ClassName
  /-- The permitted subtypes of an interface. -/
  subtypes : List ClassName
  constants : List Constant
  tokens : List TokenConstant
  /-- The methods of the type itself, without the custom ones. -/
  methods : List Method
  customMethods : List CustomMethod
  commonMethods : List Method

structure Model where
  root : Option ClassName
  declarations : List Declaration

namespace TypeGraph

def className (graph : TypeGraph) (id : TypeId) : ClassName := (graph.node id).name

def declaration (graph : TypeGraph) (id : TypeId) : Declaration :=
  let node := graph.node id
  { kind := node.kind
    identity := node.identity
    name := node.name
    enclosing := node.name.enclosing?
    extra := node.extra
    root := graph.root = some id
    supertypes := node.supertypes.map graph.className
    subtypes := if node.kind.isInterface then node.subtypes.map graph.className else []
    constants := node.constants
    tokens := node.tokens
    methods := node.methods.filter (·.kind ≠ .custom)
    customMethods := node.customMethods
    commonMethods := node.commonMethods }

def model (graph : TypeGraph) : Except Error Model := do
  let ids ← graph.declarationOrder
  return ⟨graph.root.map graph.className, ids.map graph.declaration⟩

end TypeGraph

def Constant.toJson (constant : Constant) : Json :=
  .object <| [("name", Json.string constant.name)]
    ++ match constant.value with
      | some value => [("value", Json.string value)]
      | none => []

def TokenConstant.toJson (constant : TokenConstant) : Json :=
  .object [("name", constant.name), ("token", constant.token)]

private def trueEntry (key : String) (value : Bool) : List (String × Json) :=
  if value then [(key, .bool true)] else []

private def classTexts (names : List ClassName) : List Json := names.map fun name => .string name.text

private def classEntry (key : String) (name : Option ClassName) : List (String × Json) :=
  match name with
  | some name => [(key, .string name.text)]
  | none => []

def Declaration.toJson (declaration : Declaration) : Json :=
  .object <|
    [("kind", Json.string declaration.kind.text), ("identity", Json.string declaration.identity),
      ("name", Json.string declaration.name.text)]
    ++ classEntry "enclosing" declaration.enclosing
    ++ trueEntry "extra" declaration.extra
    ++ trueEntry "root" declaration.root
    ++ nonEmptyEntry "supertypes" (classTexts declaration.supertypes)
    ++ nonEmptyEntry "subtypes" (classTexts declaration.subtypes)
    ++ nonEmptyEntry "constants" (declaration.constants.map Constant.toJson)
    ++ nonEmptyEntry "tokens" (declaration.tokens.map TokenConstant.toJson)
    ++ nonEmptyEntry "methods" (declaration.methods.map Method.toJson)
    ++ nonEmptyEntry "custom-methods" (declaration.customMethods.map CustomMethod.toJson)
    ++ nonEmptyEntry "common-methods" (declaration.commonMethods.map Method.toJson)

def Model.toJson (model : Model) : Json :=
  .object <| classEntry "root" model.root
    ++ [("declarations", .array (model.declarations.map Declaration.toJson))]

end TypedTree
