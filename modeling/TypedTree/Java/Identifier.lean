import TypedTree.Text.Letter

/-! Which names can be declared in Java. -/

namespace TypedTree.Java

inductive NameFlaw where
  | empty
  | noIdentifier
  | keyword
  | restricted
deriving DecidableEq, Repr

def NameFlaw.message : NameFlaw → String
  | empty => "name is empty"
  | noIdentifier => "not a Java identifier"
  | keyword => "reserved Java keyword"
  | restricted => "restricted identifier cannot name a type"

def isIdentifierStart (c : Char) : Bool := Text.isLetter c || c = '_' || c = '$'

def isIdentifierPart (c : Char) : Bool :=
  Text.isLetter c || Text.isNumber c || c = '_' || c = '$'

def isIdentifier : List Char → Bool
  | [] => false
  | first :: rest => isIdentifierStart first && rest.all isIdentifierPart

def keywords : List String := [
  "abstract", "assert", "boolean", "break", "byte", "case", "catch", "char", "class", "const",
  "continue", "default", "do", "double", "else", "enum", "extends", "final", "finally", "float",
  "for", "goto", "if", "implements", "import", "instanceof", "int", "interface", "long", "native",
  "new", "package", "private", "protected", "public", "return", "short", "static", "strictfp",
  "super", "switch", "synchronized", "this", "throw", "throws", "transient", "try", "void",
  "volatile", "while", "true", "false", "null", "_"]

/-- Identifiers that members may have and types may not. -/
def restrictedTypeNames : List String := ["var", "record", "yield", "sealed", "permits"]

def memberNameFlaw? (name : String) : Option NameFlaw :=
  if name.isEmpty then some .empty
  else if !isIdentifier name.toList then some .noIdentifier
  else if name ∈ keywords then some .keyword
  else none

def typeNameFlaw? (name : String) : Option NameFlaw :=
  match memberNameFlaw? name with
  | some flaw => some flaw
  | none => if name ∈ restrictedTypeNames then some .restricted else none

end TypedTree.Java
