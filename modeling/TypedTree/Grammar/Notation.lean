import TypedTree.Error
import TypedTree.Json.Printer

/-!
Grammars in JSON. A grammar is the array of its node types; fields, children and subtypes that a node
type does not have are left out.
-/

namespace TypedTree

open Json (Record Decoder)

namespace TypeMention

def record : Record TypeMention :=
  TypeMention.mk <$> .required "type" .string <*> .required "named" .bool

def decoder : Decoder TypeMention := record.decode "TypeRefSpec" false

def toJson (mention : TypeMention) : Json :=
  .object [("type", mention.name), ("named", mention.named)]

end TypeMention

namespace Slot

def record : Record Slot :=
  Slot.mk <$> .required "multiple" .bool <*> .required "required" .bool
    <*> .required "types" (.list TypeMention.decoder)

def decoder : Decoder Slot := record.decode "ChildSpec" false

def toJson (slot : Slot) : Json :=
  .object [("multiple", slot.multiple), ("required", slot.required),
    ("types", .array (slot.types.map TypeMention.toJson))]

end Slot

namespace NodeType

def record : Record NodeType :=
  NodeType.mk <$> .required "type" .string <*> .required "named" .bool
    <*> .withDefault "extra" false .bool <*> .withDefault "root" false .bool
    <*> .optional "fields" (.table Slot.decoder) <*> .optional "children" Slot.decoder
    <*> .optional "subtypes" (.list TypeMention.decoder)

def decoder : Decoder NodeType := record.decode "NodeTypeSpec" false

def toJson (node : NodeType) : Json :=
  .object <|
    [("type", Json.string node.name), ("named", Json.bool node.named),
      ("extra", Json.bool node.extra), ("root", Json.bool node.root)]
    ++ (match node.fields with
      | some fields => [("fields", .object (fields.entries.map fun (name, slot) => (name, slot.toJson)))]
      | none => [])
    ++ (match node.children with
      | some slot => [("children", slot.toJson)]
      | none => [])
    ++ (match node.subtypes with
      | some subtypes => [("subtypes", .array (subtypes.map TypeMention.toJson))]
      | none => [])

end NodeType

namespace Grammar

def decoder : Decoder Grammar := fun document => (Decoder.list NodeType.decoder document).map .mk

def toJson (grammar : Grammar) : Json := .array (grammar.nodeTypes.map NodeType.toJson)

def ofJson (value : Json) : Except Error Grammar := (Json.decode decoder value).mapError .misfit

def ofText (text : String) : Except Error Grammar := (Json.decodeText decoder text).mapError .misfit

end Grammar

end TypedTree
