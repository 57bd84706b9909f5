import TypedTree.Json.Literal

/-!
Reading JSON texts. Reading never fails: where a text goes wrong, the document has a breach and ends.
What follows the first complete value is not looked at.
-/

namespace TypedTree.Json

def isBlank (c : Char) : Bool := c = ' ' || c = '\n' || c = '\t' || c = '\r'

def skipBlanks (text : List Char) : List Char := text.dropWhile isBlank

namespace Document

/-- A document and the text behind it; none if the document breaks off. -/
structure Reading where
  document : Document
  rest : Option (List Char)

structure ItemsReading where
  items : List Document
  ending : ArrayEnd
  rest : Option (List Char)

structure EntriesReading where
  entries : List (Except Fault String × Document)
  ending : ObjectEnd
  rest : Option (List Char)

/-- Compares a text with the rest of a word. -/
def readWord (meaning : Document) : List Char → List Char → Reading
  | [], rest => ⟨meaning, some rest⟩
  | _ :: _, [] => ⟨.broken Fault.unfinishedValue.always, none⟩
  | expected :: word, c :: rest =>
    if c = expected then readWord meaning word rest
    else ⟨.broken Fault.wordExpected.always, none⟩

def readNumber (text : List Char) : Reading :=
  match scanNumeral text with
  | .broken breach => ⟨.broken breach, none⟩
  | .closed numeral rest =>
    match numeral.value with
    | .ok value => ⟨.number value, some rest⟩
    | .error fault => ⟨.unreadable fault, some rest⟩

mutual

/-- Reads one value. The first argument bounds the number of nested and following values. -/
def readValue : Nat → List Char → Reading
  | 0, _ => ⟨.broken Fault.valueExpected.always, none⟩
  | fuel + 1, text =>
    match skipBlanks text with
    | [] => ⟨.broken Fault.unfinishedValue.always, none⟩
    | c :: rest =>
      if c = 'n' then readWord .null ['u', 'l', 'l'] rest
      else if c = 't' then readWord (.bool true) ['r', 'u', 'e'] rest
      else if c = 'f' then readWord (.bool false) ['a', 'l', 's', 'e'] rest
      else if c = '"' then
        match readString rest with
        | .broken breach => ⟨.broken breach, none⟩
        | .closed (.ok text) rest => ⟨.string text, some rest⟩
        | .closed (.error fault) rest => ⟨.unreadable fault, some rest⟩
      else if c = '[' then
        let found := readItems fuel true rest
        ⟨.array found.items found.ending, found.rest⟩
      else if c = '\x7b' then
        let found := readEntries fuel true rest
        ⟨.object found.entries found.ending, found.rest⟩
      else if c = '-' ∨ c.isDigit then readNumber (c :: rest)
      else ⟨.broken Fault.valueExpected.always, none⟩

/-- Reads the items of an array up to its closing bracket. -/
def readItems : Nat → Bool → List Char → ItemsReading
  | 0, _, _ => ⟨[], .unfinished, none⟩
  | fuel + 1, first, text =>
    match skipBlanks text with
    | [] => ⟨[], .unfinished, none⟩
    | c :: rest =>
      if c = ']' then ⟨[], .closed, some rest⟩
      else if first then readItem fuel (c :: rest)
      else if c = ',' then
        match skipBlanks rest with
        | [] => ⟨[], .danglingComma, none⟩
        | next :: rest =>
          if next = ']' then ⟨[], .trailingComma, none⟩ else readItem fuel (next :: rest)
      else ⟨[], .stray, none⟩

def readItem : Nat → List Char → ItemsReading
  | 0, _ => ⟨[], .unfinished, none⟩
  | fuel + 1, text =>
    let found := readValue fuel text
    match found.rest with
    | none => ⟨[found.document], .closed, none⟩
    | some rest =>
      let others := readItems fuel false rest
      ⟨found.document :: others.items, others.ending, others.rest⟩

/-- Reads the entries of an object up to its closing brace. -/
def readEntries : Nat → Bool → List Char → EntriesReading
  | 0, _, _ => ⟨[], .broken Fault.unfinishedObject.always, none⟩
  | fuel + 1, first, text =>
    match skipBlanks text with
    | [] => ⟨[], .broken Fault.unfinishedObject.always, none⟩
    | c :: rest =>
      if c = '\x7d' then ⟨[], .closed, some rest⟩
      else if first then
        if c = '"' then readEntry fuel rest else ⟨[], .broken Fault.keyExpected.always, none⟩
      else if c = ',' then
        match skipBlanks rest with
        | [] => ⟨[], .broken ⟨.unfinishedValue, .unfinishedObject⟩, none⟩
        | next :: rest =>
          if next = '"' then readEntry fuel rest
          else if next = '\x7d' then ⟨[], .broken ⟨.trailingComma, .keyExpected⟩, none⟩
          else ⟨[], .broken Fault.keyExpected.always, none⟩
      else ⟨[], .broken Fault.objectEndExpected.always, none⟩

/-- Reads an entry, whose opening quote was just passed, and those behind it. -/
def readEntry : Nat → List Char → EntriesReading
  | 0, _ => ⟨[], .broken Fault.unfinishedObject.always, none⟩
  | fuel + 1, text =>
    match readString text with
    | .broken breach => ⟨[], .broken breach, none⟩
    | .closed key rest =>
      match skipBlanks rest with
      | [] => ⟨[], .loneKey key .unfinishedObject, none⟩
      | c :: rest =>
        if c = ':' then
          let found := readValue fuel rest
          match found.rest with
          | none => ⟨[(key, found.document)], .closed, none⟩
          | some rest =>
            let others := readEntries fuel false rest
            ⟨(key, found.document) :: others.entries, others.ending, others.rest⟩
        else ⟨[], .loneKey key .colonExpected, none⟩

end

/-- The document that a text holds. A value, an item and an entry are entered at most once for each
character, so three steps to a character are enough. -/
def ofText (text : String) : Document :=
  (readValue (3 * text.length + 3) text.toList).document

end Document

def ofText (text : String) : Except Fault Json := (Document.ofText text).value

end TypedTree.Json
