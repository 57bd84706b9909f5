import TypedTree.Json.Reader
import TypedTree.Text.Quoted

/-!
Reading typed data out of documents. A decoder reports the first thing in the order of the document that
does not fit, with the path to it.
-/

namespace TypedTree.Json

/-- A step from a document to one of its parts. -/
inductive Segment where
  | index (position : Nat)
  | key (name : String)
  /-- A part that has no name because its key could not be read. -/
  | unknown
deriving DecidableEq, Repr

/-- Why a document is not what it should be. -/
inductive Cause where
  | fault (fault : Fault)
  | wrongType (found expected : String)
  | missingField (name : String)
  | duplicateField (name : String)
  | unknownField (name : String) (known : List String)
  | tooShort (length : Nat) (expected : String) (size : Nat)
  | tooLong (length : Nat)
deriving DecidableEq, Repr

structure Misfit where
  path : List Segment
  cause : Cause
deriving DecidableEq, Repr

private def joinedPath : Bool → List Segment → String
  | _, [] => ""
  | _, .index position :: rest => s!"[{position}]" ++ joinedPath false rest
  | first, .key name :: rest => (if first then "" else ".") ++ name ++ joinedPath false rest
  | first, .unknown :: rest => (if first then "" else ".") ++ "?" ++ joinedPath false rest

/-- The path as text; a point stands for the whole document. -/
def pathText (path : List Segment) : String :=
  if path.isEmpty then "." else joinedPath true path

private def inTicks (name : String) : String := "`" ++ name ++ "`"

private def alternatives : List String → String
  | [] => "there are no fields"
  | [name] => "expected " ++ inTicks name
  | [first, second] => "expected " ++ inTicks first ++ " or " ++ inTicks second
  | names => "expected one of " ++ ", ".intercalate (names.map inTicks)

/-- What is wrong, without the line and the column of the place. -/
def Cause.message : Cause → String
  | fault found => found.message
  | wrongType found expected => s!"invalid type: {found}, expected {expected}"
  | missingField name => "missing field " ++ inTicks name
  | duplicateField name => "duplicate field " ++ inTicks name
  | unknownField name known => "unknown field " ++ inTicks name ++ ", " ++ alternatives known
  | tooShort length expected size =>
    s!"invalid length {length}, expected {expected} with {size} elements"
  | tooLong length => s!"invalid length {length}, expected fewer elements in array"

abbrev Decoder (α : Type) := Document → Except Misfit α

/-- Puts a step in front of the path of a misfit. -/
def within (segment : Segment) (result : Except Misfit α) : Except Misfit α :=
  result.mapError fun misfit => { misfit with path := segment :: misfit.path }

private def misfit (cause : Cause) : Misfit := ⟨[], cause⟩

/-- What a document holds, in the words of a message. -/
def Document.described : Document → Except Fault String
  | .null => .ok "null"
  | .bool value => .ok ("boolean " ++ inTicks (toString value))
  | .number (.whole value) => .ok ("integer " ++ inTicks (toString value))
  | .number (.decimal value) => .ok ("floating point " ++ inTicks (decimalText value))
  | .string text => .ok ("string " ++ Text.quoted text)
  | .array _ _ => .ok "sequence"
  | .object _ _ => .ok "map"
  | .unreadable fault => .error fault
  | .broken breach => .error breach.reading

/-- Refuses a document of another type; a fault in it comes first. -/
def refuse (expected : String) (document : Document) : Except Misfit α :=
  match document.described with
  | .ok found => .error (misfit (.wrongType found expected))
  | .error fault => .error (misfit (.fault fault))

namespace Decoder

def bool : Decoder Bool
  | .bool value => .ok value
  | other => refuse "a boolean" other

def string : Decoder String
  | .string value => .ok value
  | other => refuse "a string" other

/-- Null is none. -/
def option (decoder : Decoder α) : Decoder (Option α)
  | .null => .ok none
  | other => some <$> decoder other

def items (decoder : Decoder α) (ending : ArrayEnd) : Nat → List Document →
    Except Misfit (List α)
  | _, [] =>
    match ending.breach? with
    | some breach => .error (misfit (.fault breach.reading))
    | none => .ok []
  | position, item :: rest => do
    let value ← within (.index position) (decoder item)
    let values ← items decoder ending (position + 1) rest
    return value :: values

def list (decoder : Decoder α) : Decoder (List α)
  | .array documents ending => items decoder ending 0 documents
  | other => refuse "a sequence" other

def entries (decoder : Decoder α) (ending : ObjectEnd) (written : Table String α) :
    List (Except Fault String × Document) → Except Misfit (Table String α)
  | [] =>
    match ending with
    | .closed => .ok written
    | .broken breach => .error ⟨[.unknown], .fault breach.reading⟩
    | .loneKey (.error fault) _ => .error ⟨[.unknown], .fault fault⟩
    | .loneKey (.ok _) fault => .error (misfit (.fault fault))
  | (.error fault, _) :: _ => .error ⟨[.unknown], .fault fault⟩
  | (.ok key, document) :: rest => do
    let value ← within (.key key) (decoder document)
    entries decoder ending (written.insert key value) rest

def table (decoder : Decoder α) : Decoder (Table String α)
  | .object found ending => entries decoder ending .empty found
  | other => refuse "a map" other

end Decoder

/-- A misfit and its place in the order in which a document is read. -/
abbrev Placed := Nat × Misfit

/-- The part of a document that fills a field. -/
structure Cell where
  segment : Segment
  place : Nat
  document : Document

/-- What a document offers to the fields of a record, and what to say of a field without a cell. -/
structure Filling where
  cell? : String → Option Cell
  absent : String → Placed

/-- A record with named fields in a fixed order. -/
structure Record (α : Type) where
  fields : List String
  read : Filling → Except Placed α

namespace Record

/-- Applies what was read first to what was read second. Of two misfits the earlier one counts. -/
def combine : Except Placed (α → β) → Except Placed α → Except Placed β
  | .ok f, .ok x => .ok (f x)
  | .error found, .ok _ => .error found
  | .ok _, .error found => .error found
  | .error first, .error second => .error (if first.1 ≤ second.1 then first else second)

instance : Applicative Record where
  pure x := ⟨[], fun _ => .ok x⟩
  seq f x :=
    ⟨f.fields ++ (x ()).fields, fun filling => combine (f.read filling) ((x ()).read filling)⟩

def readCell (decoder : Decoder α) (cell : Cell) : Except Placed α :=
  (within cell.segment (decoder cell.document)).mapError fun misfit => (cell.place, misfit)

def required (name : String) (decoder : Decoder α) : Record α where
  fields := [name]
  read filling :=
    match filling.cell? name with
    | some cell => readCell decoder cell
    | none => .error (filling.absent name)

def withDefault (name : String) (default : α) (decoder : Decoder α) : Record α where
  fields := [name]
  read filling :=
    match filling.cell? name with
    | some cell => readCell decoder cell
    | none => .ok default

def optional (name : String) (decoder : Decoder α) : Record (Option α) :=
  withDefault name none decoder.option

def keyMisfit? (fields : List String) (strict : Bool) (seen : List String) (key : String) :
    Option Misfit :=
  if key ∈ fields then if key ∈ seen then some (misfit (.duplicateField key)) else none
  else if strict then some ⟨[.key key], .unknownField key fields⟩
  else none

def endMisfit? (fields : List String) (strict : Bool) (seen : List String) :
    ObjectEnd → Option Misfit
  | .closed => none
  | .broken breach => some ⟨[.unknown], .fault breach.reading⟩
  | .loneKey (.error fault) _ => some ⟨[.unknown], .fault fault⟩
  | .loneKey (.ok key) fault => keyMisfit? fields strict seen key <|> some (misfit (.fault fault))

/-- The first entry of an object that is at fault by its key, or by its value if no field takes it. -/
def entryMisfit? (fields : List String) (strict : Bool) (ending : ObjectEnd) :
    Nat → List String → List (Except Fault String × Document) → Option Placed
  | place, seen, [] => (endMisfit? fields strict seen ending).map (place, ·)
  | place, _, (.error fault, _) :: _ => some (place, ⟨[.unknown], .fault fault⟩)
  | place, seen, (.ok key, document) :: rest =>
    match keyMisfit? fields strict seen key with
    | some found => some (place, found)
    | none =>
      if key ∈ fields then entryMisfit? fields strict ending (place + 1) (key :: seen) rest
      else
        match document.obstacle? with
        | some fault => some (place, ⟨[.key key], .fault fault⟩)
        | none => entryMisfit? fields strict ending (place + 1) seen rest

def entryCell? (name : String) : Nat → List (Except Fault String × Document) → Option Cell
  | _, [] => none
  | place, (key, document) :: rest =>
    match key with
    | .ok key => if key = name then some ⟨.key key, place, document⟩ else entryCell? name (place + 1) rest
    | .error _ => none

/-- What is wrong with the end of an array that fills a record of the given size. -/
private def arrayMisfit? (size : Nat) (items : List Document) (ending : ArrayEnd) : Option Placed :=
  if items.length < size then
    ending.breach?.map fun breach => (items.length, misfit (.fault breach.reading))
  else
    match ending with
    | .complete => if size < items.length then some (size, misfit (.tooLong items.length)) else none
    | ending =>
      (ending.surplus? (items.length - size)).map fun fault => (size, misfit (.fault fault))

def settle (record : Record α) (found : Option Placed) (filling : Filling) :
    Except Misfit α :=
  let ends : Except Placed (α → α) :=
    match found with
    | some placed => .error placed
    | none => .ok id
  (combine ends (record.read filling)).mapError Prod.snd

/-- A record is an object, or an array of its fields in their order. A strict record has no other
keys; otherwise they are passed over. -/
def decode (name : String) (strict : Bool) (record : Record α) : Decoder α
  | .object entries ending =>
    settle record (entryMisfit? record.fields strict ending 0 [] entries)
      { cell? := fun field => entryCell? field 0 entries
        absent := fun field =>
          (entries.length + 1 + record.fields.idxOf field, misfit (.missingField field)) }
  | .array items ending =>
    settle record (arrayMisfit? record.fields.length items ending)
      { cell? := fun field =>
          let place := record.fields.idxOf field
          items[place]?.map fun item => ⟨.index place, place, item⟩
        absent := fun field =>
          let place := record.fields.idxOf field
          (place, misfit (.tooShort place ("struct " ++ name) record.fields.length)) }
  | other => refuse ("struct " ++ name) other

end Record

def decode (decoder : Decoder α) (value : Json) : Except Misfit α := decoder (.ofJson value)

def decodeText (decoder : Decoder α) (text : String) : Except Misfit α :=
  decoder (Document.ofText text)

end TypedTree.Json
