import TypedTree.Java.Ancestry
import TypedTree.Java.JavaType
import TypedTree.Json.Basic

/-!
The methods of generated types. What a method is for and its signature identify it; its return type may
be narrower in a subtype.
-/

namespace TypedTree

open Java (JavaType Ancestry)

inductive MethodKind where
  | custom
  | children (multiple required : Bool)
  | field (name : String) (multiple required : Bool)
  | unnamedChildren
deriving DecidableEq, Repr, Inhabited

structure TypeVariable where
  name : String
  bounds : List JavaType
deriving DecidableEq, Repr

structure Parameter where
  name : String
  type : JavaType
deriving DecidableEq, Repr

structure Signature where
  name : String
  typeVariables : List TypeVariable
  parameters : List Parameter
deriving DecidableEq, Repr, Inhabited

namespace Signature

def getter (name : String) : Signature := ⟨name, [], []⟩

def text (signature : Signature) : String :=
  (if signature.typeVariables.isEmpty then ""
    else "<" ++ ", ".intercalate (signature.typeVariables.map (·.name)) ++ "> ")
  ++ signature.name ++ "("
  ++ ", ".intercalate (signature.parameters.map fun parameter => parameter.type.text ++ " " ++ parameter.name)
  ++ ")"

end Signature

/-- A type and what is known about the supertypes of the classes in it. -/
structure ReturnType where
  type : JavaType
  ancestry : Ancestry
deriving Inhabited

structure Method where
  kind : MethodKind
  signature : Signature
  /-- None for a method that returns nothing. -/
  returns : Option ReturnType
deriving Inhabited

/-- What a method and those that override it have in common. -/
structure MethodKey where
  signature : Signature
  kind : MethodKind
deriving DecidableEq, Repr

namespace Method

def key (method : Method) : MethodKey := ⟨method.signature, method.kind⟩

def text (method : Method) : String :=
  (match method.returns with
    | some returns => returns.type.text
    | none => "void")
  ++ " " ++ method.signature.text

end Method

/-! The written forms leave out what is empty or absent. -/

/-- An entry unless its array is empty. -/
def nonEmptyEntry (key : String) (items : List Json) : List (String × Json) :=
  if items.isEmpty then [] else [(key, .array items)]

def MethodKind.toJson : MethodKind → Json
  | custom => .object [("name", "custom")]
  | children multiple required =>
    .object [("name", "children"), ("multiple", multiple), ("required", required)]
  | field name multiple required =>
    .object [("name", "field"), ("field", name), ("multiple", multiple), ("required", required)]
  | unnamedChildren => .object [("name", "unnamed-children")]

def TypeVariable.toJson (variableType : TypeVariable) : Json :=
  .object [("name", variableType.name),
    ("bounds", .array (variableType.bounds.map fun bound => .string bound.text))]

def Parameter.toJson (parameter : Parameter) : Json :=
  .object [("name", parameter.name), ("type", parameter.type.text)]

def Signature.toJson (signature : Signature) : Json :=
  .object <| [("name", Json.string signature.name)]
    ++ nonEmptyEntry "type-vars" (signature.typeVariables.map TypeVariable.toJson)
    ++ nonEmptyEntry "params" (signature.parameters.map Parameter.toJson)

def Method.jsonEntries (method : Method) : List (String × Json) :=
  [("kind", method.kind.toJson), ("signature", method.signature.toJson)]
    ++ match method.returns with
      | some returns => [("return-type", .object [("type", returns.type.text)])]
      | none => []

def Method.toJson (method : Method) : Json := .object method.jsonEntries

end TypedTree
