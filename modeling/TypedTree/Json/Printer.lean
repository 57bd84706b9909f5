import TypedTree.Json.Basic

/-!
The written forms of JSON data: a compact one without blanks, and one with an entry to a line. Only
quotes, backslashes and control characters are escaped.
-/

namespace TypedTree.Json

def hexDigit (n : Nat) : Char := (Nat.toDigits 16 (n % 16)).headD '0'

def escapeChar (c : Char) : List Char :=
  if c = '"' then ['\\', '"']
  else if c = '\\' then ['\\', '\\']
  else if c = '\n' then ['\\', 'n']
  else if c = '\r' then ['\\', 'r']
  else if c = '\t' then ['\\', 't']
  else if c = '\x08' then ['\\', 'b']
  else if c = '\x0c' then ['\\', 'f']
  else if c.toNat < 32 then ['\\', 'u', '0', '0', hexDigit (c.toNat / 16), hexDigit c.toNat]
  else [c]

def writeString (text : String) : List Char :=
  ['"'] ++ text.toList.flatMap escapeChar ++ ['"']

mutual

/-- The compact form. -/
def write : Json → List Char
  | null => ['n', 'u', 'l', 'l']
  | bool true => ['t', 'r', 'u', 'e']
  | bool false => ['f', 'a', 'l', 's', 'e']
  | number value => value.text.toList
  | string value => writeString value
  | array items => ['['] ++ writeItems items ++ [']']
  | object entries => ['\x7b'] ++ writeEntries entries ++ ['\x7d']

def writeItems : List Json → List Char
  | [] => []
  | [item] => write item
  | item :: rest => write item ++ [','] ++ writeItems rest

def writeEntries : List (String × Json) → List Char
  | [] => []
  | [(key, value)] => writeString key ++ [':'] ++ write value
  | (key, value) :: rest => writeString key ++ [':'] ++ write value ++ [','] ++ writeEntries rest

end

def compact (value : Json) : String := String.ofList (write value)

private def newLine (depth : Nat) : List Char := '\n' :: List.replicate (2 * depth) ' '

mutual

/-- The form with an entry to a line; empty arrays and objects stay on one. -/
def writeLines (depth : Nat) : Json → List Char
  | array [] => ['[', ']']
  | object [] => ['\x7b', '\x7d']
  | array items => ['['] ++ itemLines (depth + 1) items ++ newLine depth ++ [']']
  | object entries => ['\x7b'] ++ entryLines (depth + 1) entries ++ newLine depth ++ ['\x7d']
  | null => ['n', 'u', 'l', 'l']
  | bool value => write (bool value)
  | number value => value.text.toList
  | string value => writeString value

def itemLines (depth : Nat) : List Json → List Char
  | [] => []
  | [item] => newLine depth ++ writeLines depth item
  | item :: rest => newLine depth ++ writeLines depth item ++ [','] ++ itemLines depth rest

def entryLines (depth : Nat) : List (String × Json) → List Char
  | [] => []
  | [(key, value)] => newLine depth ++ writeString key ++ [':', ' '] ++ writeLines depth value
  | (key, value) :: rest =>
    newLine depth ++ writeString key ++ [':', ' '] ++ writeLines depth value ++ [',']
      ++ entryLines depth rest

end

def indented (value : Json) : String := String.ofList (writeLines 0 value)

end TypedTree.Json
