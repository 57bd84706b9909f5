import TypedTree.Grammar.Notation
import TypedTree.Proofs.JsonDecoding

/-! Grammars survive being written and read. -/

namespace TypedTree

open Json (Decoder Legible Record)
open Json.Record (reads_required reads_withDefault reads_optional takes_decode)

namespace TypeMention

theorem takes_toJson (mention : TypeMention) : decoder.Takes mention.toJson mention := by
  let entries : List (String × Json) := [("type", mention.name), ("named", mention.named)]
  have name : (Record.required "type" .string).Reads entries mention.name := reads_required rfl (Decoder.takes_string _)
  have named : (Record.required "named" .bool).Reads entries mention.named := reads_required rfl (Decoder.takes_bool _)
  have reads : record.Reads entries mention := (name.map _).seq named
  exact takes_decode reads (.refl _) (by decide)

theorem legible_toJson (mention : TypeMention) : Legible mention.toJson :=
  Json.legible_object (by simp [Json.legible_string, Json.legible_bool])

end TypeMention

namespace Slot

theorem takes_toJson (slot : Slot) : decoder.Takes slot.toJson slot := by
  let entries : List (String × Json) := [("multiple", slot.multiple), ("required", slot.required),
    ("types", .array (slot.types.map TypeMention.toJson))]
  have multiple : (Record.required "multiple" .bool).Reads entries slot.multiple :=
    reads_required rfl (Decoder.takes_bool _)
  have required : (Record.required "required" .bool).Reads entries slot.required :=
    reads_required rfl (Decoder.takes_bool _)
  have types : (Record.required "types" (.list TypeMention.decoder)).Reads entries slot.types :=
    reads_required rfl (Decoder.takes_list fun mention _ => mention.takes_toJson)
  have reads : record.Reads entries slot := ((multiple.map _).seq required).seq types
  exact takes_decode reads (.refl _) (by decide)

theorem legible_toJson (slot : Slot) : Legible slot.toJson := by
  have types : Legible (.array (slot.types.map TypeMention.toJson)) :=
    Json.legible_array (List.forall_mem_map.mpr fun mention _ => mention.legible_toJson)
  exact Json.legible_object (by simp [Json.legible_bool, types])

end Slot

namespace NodeType

def fieldsJson (fields : Table String Slot) : Json := .object (fields.entries.map fun (name, slot) => (name, slot.toJson))

def subtypesJson (subtypes : List TypeMention) : Json := .array (subtypes.map TypeMention.toJson)

theorem takes_fieldsJson (fields : Table String Slot) : (Decoder.table Slot.decoder).Takes (fieldsJson fields) fields :=
  Decoder.takes_table fun entry _ => entry.2.takes_toJson

theorem takes_subtypesJson (subtypes : List TypeMention) :
    (Decoder.list TypeMention.decoder).Takes (subtypesJson subtypes) subtypes :=
  Decoder.takes_list fun mention _ => mention.takes_toJson

def entries (type : NodeType) : List (String × Option Json) :=
  [("type", some (.string type.name)), ("named", some (.bool type.named)), ("extra", some (.bool type.extra)),
    ("root", some (.bool type.root)), ("fields", type.fields.map fieldsJson), ("children", type.children.map Slot.toJson),
    ("subtypes", type.subtypes.map subtypesJson)]

theorem toJson_eq (type : NodeType) : type.toJson = .object (Json.presentEntries type.entries) := by
  obtain ⟨name, named, extra, root, fields, children, subtypes⟩ := type
  cases fields <;> cases children <;> cases subtypes <;> rfl

theorem takes_toJson (type : NodeType) : decoder.Takes type.toJson type := by
  have distinct : (type.entries.map Prod.fst).Nodup := show record.fields.Nodup by decide
  have found := Json.find_presentEntries distinct
  have name := reads_required (found "type") (Decoder.takes_string type.name)
  have named := reads_required (found "named") (Decoder.takes_bool type.named)
  have extra := reads_withDefault false (found "extra") (Decoder.takes_bool type.extra)
  have root := reads_withDefault false (found "root") (Decoder.takes_bool type.root)
  have fields := reads_optional (found "fields") fun fields _ => ⟨takes_fieldsJson fields, nofun⟩
  have children := reads_optional (found "children") fun slot _ => ⟨slot.takes_toJson, nofun⟩
  have subtypes := reads_optional (found "subtypes") fun subtypes _ => ⟨takes_subtypesJson subtypes, nofun⟩
  have reads : record.Reads (Json.presentEntries type.entries) type :=
    ((((((name.map _).seq named).seq extra).seq root).seq fields).seq children).seq subtypes
  rw [toJson_eq]
  exact takes_decode reads (Json.sublist_presentEntries type.entries) distinct

theorem legible_toJson (type : NodeType) : Legible type.toJson := by
  have fields (fields : Table String Slot) : Legible (fieldsJson fields) :=
    Json.legible_object (List.forall_mem_map.mpr fun entry _ => entry.2.legible_toJson)
  have subtypes (subtypes : List TypeMention) : Legible (subtypesJson subtypes) :=
    Json.legible_array (List.forall_mem_map.mpr fun mention _ => mention.legible_toJson)
  rw [toJson_eq]
  apply Json.legible_presentEntries
  simp [entries, Json.legible_string, Json.legible_bool, fields, subtypes, Slot.legible_toJson]

end NodeType

namespace Grammar

theorem takes_toJson (grammar : Grammar) : decoder.Takes grammar.toJson grammar := by
  intro document shows
  have read := Decoder.takes_list (fun type (_ : type ∈ grammar.nodeTypes) => type.takes_toJson) document shows
  rw [decoder, read]
  rfl

theorem legible_toJson (grammar : Grammar) : Legible grammar.toJson :=
  Json.legible_array (List.forall_mem_map.mpr fun type _ => type.legible_toJson)

/-- A grammar that was written is read back as it was, with all fields in their order: from data in memory, from its
compact text, and from the bytes of this text. -/
theorem read_toJson (grammar : Grammar) :
    ofJson grammar.toJson = .ok grammar ∧
      ofText (Json.compact grammar.toJson) = .ok grammar ∧
      (String.fromUTF8? (Json.compact grammar.toJson).toUTF8).map ofText = some (.ok grammar) := by
  have text : ofText (Json.compact grammar.toJson) = .ok grammar := by
    rw [ofText, Json.decodeText, grammar.takes_toJson _ (Json.shows_ofText grammar.legible_toJson)]
    rfl
  refine ⟨?_, text, ?_⟩
  · rw [ofJson, Json.decode, grammar.takes_toJson _ (Json.Document.shows_ofJson _)]
    rfl
  · have decoded (text : String) : String.fromUTF8? text.toUTF8 = some text := dif_pos text.isValidUTF8
    rw [decoded, Option.map_some, text]

end Grammar

end TypedTree
