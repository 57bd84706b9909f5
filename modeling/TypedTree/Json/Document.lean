import TypedTree.Json.Basic
import TypedTree.Json.Fault
import TypedTree.Table

/-!
JSON data as it was found: a text may break off or go wrong at any place, and what comes before that
place can still be looked at. Data without any breach is a value.
-/

namespace TypedTree.Json

/-- How an array ends behind its last item. -/
inductive ArrayEnd where
  /-- The array is data in memory and was never text. -/
  | complete
  | closed
  /-- The text ends. -/
  | unfinished
  /-- The text ends behind a comma. -/
  | danglingComma
  /-- A closing bracket follows a comma. -/
  | trailingComma
  /-- Something that is neither a comma nor a closing bracket. -/
  | stray
deriving DecidableEq, Repr

/-- What stops someone who looks for one more item or the end. -/
def ArrayEnd.breach? : ArrayEnd → Option Breach
  | complete => none
  | closed => none
  | unfinished => some Fault.unfinishedList.always
  | danglingComma => some Fault.unfinishedValue.always
  | trailingComma => some ⟨.trailingComma, .valueExpected⟩
  | stray => some Fault.listEndExpected.always

/-- What stops someone who takes no more items. `count` is the number of items that are left. -/
def ArrayEnd.surplus? (count : Nat) : ArrayEnd → Option Fault
  | complete => none
  | ending =>
    if count ≠ 0 then some .trailingCharacters
    else match ending with
      | .unfinished => some .unfinishedList
      | .trailingComma => some .trailingComma
      | .danglingComma => some .trailingCharacters
      | .stray => some .trailingCharacters
      | _ => none

/-- How an object ends behind its last entry. -/
inductive ObjectEnd where
  | closed
  | broken (breach : Breach)
  /-- A key that has no colon behind it. -/
  | loneKey (key : Except Fault String) (fault : Fault)

/-- What stops someone who reads one more entry or the end. -/
def ObjectEnd.fault? : ObjectEnd → Option Fault
  | closed => none
  | broken breach => some breach.reading
  | loneKey (.error fault) _ => some fault
  | loneKey (.ok _) fault => some fault

/-- What stops someone who passes over the entries; a key may then be any. -/
def ObjectEnd.skipping? : ObjectEnd → Option Fault
  | closed => none
  | broken breach => some breach.skipping
  | loneKey _ fault => some fault

inductive Document where
  | null
  | bool (value : Bool)
  | number (value : Number)
  | string (value : String)
  | array (items : List Document) (ending : ArrayEnd)
  /-- A key may be well formed and still stand for no text. -/
  | object (entries : List (Except Fault String × Document)) (ending : ObjectEnd)
  /-- Well formed, but it stands for no value. -/
  | unreadable (fault : Fault)
  /-- Nothing behind this place was looked at. -/
  | broken (breach : Breach)

namespace Document

instance : Inhabited Document := ⟨null⟩

mutual

/-- Data in memory has no breach. -/
def ofJson : Json → Document
  | .null => .null
  | .bool value => .bool value
  | .number value => .number value
  | .string value => .string value
  | .array items => .array (ofItems items) .complete
  | .object entries => .object (ofEntries entries) .closed

def ofItems : List Json → List Document
  | [] => []
  | item :: rest => ofJson item :: ofItems rest

def ofEntries : List (String × Json) → List (Except Fault String × Document)
  | [] => []
  | (key, value) :: rest => (.ok key, ofJson value) :: ofEntries rest

end

mutual

/-- The value of a document, or the first fault. A key that occurs again gets the later value at the
earlier place. -/
def value : Document → Except Fault Json
  | .null => .ok .null
  | .bool value => .ok (.bool value)
  | .number value => .ok (.number value)
  | .string value => .ok (.string value)
  | .array items ending => do
    let items ← itemValues items
    match ending.breach? with
    | some breach => .error breach.reading
    | none => .ok (.array items)
  | .object entries ending => do
    let entries ← entryValues entries []
    match ending.fault? with
    | some fault => .error fault
    | none => .ok (.object entries)
  | .unreadable fault => .error fault
  | .broken breach => .error breach.reading

def itemValues : List Document → Except Fault (List Json)
  | [] => .ok []
  | item :: rest => do
    let item ← value item
    let rest ← itemValues rest
    .ok (item :: rest)

def entryValues : List (Except Fault String × Document) → List (String × Json) →
    Except Fault (List (String × Json))
  | [], written => .ok written
  | (key, item) :: rest, written => do
    let key ← key
    let item ← value item
    entryValues rest (Table.put key item written)

end

mutual

/-- What stops someone who only wants to get past a document. -/
def obstacle? : Document → Option Fault
  | .null => none
  | .bool _ => none
  | .number _ => none
  | .string _ => none
  | .unreadable _ => none
  | .array items ending => itemsObstacle? items <|> ending.breach?.map Breach.skipping
  | .object entries ending => entriesObstacle? entries <|> ending.skipping?
  | .broken breach => some breach.skipping

def itemsObstacle? : List Document → Option Fault
  | [] => none
  | item :: rest => obstacle? item <|> itemsObstacle? rest

def entriesObstacle? : List (Except Fault String × Document) → Option Fault
  | [] => none
  | (_, value) :: rest => obstacle? value <|> entriesObstacle? rest

end

end Document

end TypedTree.Json
