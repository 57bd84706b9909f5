/-! What can be wrong with a text that should be JSON. -/

namespace TypedTree.Json

inductive Fault where
  | unfinishedList
  | unfinishedObject
  | unfinishedString
  | unfinishedValue
  | colonExpected
  | listEndExpected
  | objectEndExpected
  | wordExpected
  | valueExpected
  | invalidEscape
  | invalidNumber
  | outOfRange
  | controlCharacter
  | keyExpected
  | loneSurrogate
  | missingSurrogate
  | trailingComma
  | trailingCharacters
deriving DecidableEq, Repr

/-- What is wrong. The line and the column of the place, which a user is told behind it, are not kept. -/
def Fault.message : Fault → String
  | unfinishedList => "EOF while parsing a list"
  | unfinishedObject => "EOF while parsing an object"
  | unfinishedString => "EOF while parsing a string"
  | unfinishedValue => "EOF while parsing a value"
  | colonExpected => "expected `:`"
  | listEndExpected => "expected `,` or `]`"
  | objectEndExpected => "expected `,` or `\x7d`"
  | wordExpected => "expected ident"
  | valueExpected => "expected value"
  | invalidEscape => "invalid escape"
  | invalidNumber => "invalid number"
  | outOfRange => "number out of range"
  | controlCharacter => "control character (\\u0000-\\u001F) found while parsing a string"
  | keyExpected => "key must be a string"
  | loneSurrogate => "lone leading surrogate in hex escape"
  | missingSurrogate => "unexpected end of hex escape"
  | trailingComma => "trailing comma"
  | trailingCharacters => "trailing characters"

/-- What is wrong at one place of a text: as it shows to someone who reads the place for its value,
and to someone who only wants to get past it. -/
structure Breach where
  reading : Fault
  skipping : Fault
deriving DecidableEq, Repr

/-- A breach that looks the same either way. -/
def Fault.always (fault : Fault) : Breach := ⟨fault, fault⟩

end TypedTree.Json
