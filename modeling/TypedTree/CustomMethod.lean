import TypedTree.Error
import TypedTree.Method

/-!
Methods that a configuration adds to node types. The configuration describes their types as Java source,
and may name the method to which a custom method delegates.
-/

namespace TypedTree

open Java (ClassName JavaType)
open Json (Record Decoder)

structure VariableDescription where
  name : String
  bounds : List String
deriving DecidableEq, Repr

structure MethodDescription where
  name : String
  typeVariables : List VariableDescription
  parameters : Table String String
  returnType : Option String
  javadoc : Option String
  receiver : Option String
deriving DecidableEq

structure CustomMethods where
  nodeTypes : Table String (List MethodDescription)
deriving DecidableEq, Inhabited

/-- The method to which a custom method delegates. -/
structure Receiver where
  className : ClassName
  method : String
deriving DecidableEq, Repr

structure CustomMethod where
  method : Method
  javadoc : Option String
  receiver : Option Receiver
deriving Inhabited

def VariableDescription.decoder : Decoder VariableDescription :=
  Record.decode "TypeVariableConfig" true <|
    VariableDescription.mk <$> .required "name" .string <*> .withDefault "bounds" [] (.list .string)

def MethodDescription.decoder : Decoder MethodDescription :=
  Record.decode "MethodConfig" true <|
    MethodDescription.mk <$> .required "name" .string
      <*> .withDefault "type-variables" [] (.list VariableDescription.decoder)
      <*> .withDefault "parameters" .empty (.table .string)
      <*> .optional "return-type" .string <*> .optional "javadoc" .string
      <*> .optional "receiver" .string

def CustomMethods.decoder : Decoder CustomMethods :=
  Record.decode "CustomMethodsConfig" true <|
    CustomMethods.mk <$>
      .withDefault "node-types" .empty (.table (.list MethodDescription.decoder))

def typeOfText (text : String) : Except Error JavaType := (JavaType.ofText text).mapError .invalidType

/-- A receiver is a qualified class, a number sign, and the name of a method. -/
def Receiver.ofText (text : String) : Except Error Receiver :=
  let className := text.toList.takeWhile (· ≠ '#')
  match text.toList.dropWhile (· ≠ '#') with
  | [] => .error (.receiverWithoutMark text)
  | _ :: method =>
    if className.isEmpty ∨ method.isEmpty then .error (.incompleteReceiver text)
    else .ok ⟨.ofQualified (String.ofList className), String.ofList method⟩

namespace MethodDescription

def returns (description : MethodDescription) : Except Error (Option ReturnType) :=
  match description.returnType with
  | none => .ok none
  | some "void" => .ok none
  | some text => do return some ⟨← typeOfText text, .empty⟩

def toMethod (description : MethodDescription) : Except Error CustomMethod := do
  let typeVariables ← description.typeVariables.mapM fun described => do
    return TypeVariable.mk described.name (← described.bounds.mapM typeOfText)
  let parameters ← description.parameters.entries.mapM fun (name, type) => do
    return Parameter.mk name (← typeOfText type)
  let returns ← description.returns
  let receiver ← description.receiver.mapM Receiver.ofText
  return ⟨⟨.custom, ⟨description.name, typeVariables, parameters⟩, returns⟩, description.javadoc, receiver⟩

end MethodDescription

namespace CustomMethods

/-- The methods of a node type, in the order of the configuration. -/
def forNodeType (methods : CustomMethods) (type : String) : Except Error (List CustomMethod) :=
  ((methods.nodeTypes.get? type).getD []).mapM MethodDescription.toMethod

/-- The configured node types that are not among the given ones. -/
def unknownTypes (methods : CustomMethods) (known : List String) : List String :=
  methods.nodeTypes.keys.filter (· ∉ known)

end CustomMethods

def Receiver.toJson (receiver : Receiver) : Json :=
  .object [("type", receiver.className.text), ("method", receiver.method)]

def CustomMethod.toJson (custom : CustomMethod) : Json :=
  .object <| custom.method.jsonEntries
    ++ (match custom.javadoc with
      | some text => [("javadoc", Json.string text)]
      | none => [])
    ++ (match custom.receiver with
      | some receiver => [("receiver", receiver.toJson)]
      | none => [])

end TypedTree
