import TypedTree.Java.JavaType
import TypedTree.Text.Letter

/-!
Reading Java types. Nested classes are written with a dollar sign, and an unqualified name that starts
with an upper case letter is a type variable. A flaw is reported with the number of characters from its
place to the end of the text.
-/

namespace TypedTree.Java

inductive TypeFlaw where
  | emptyName
  | invalidName
  | unexpectedSpace
  | voidType
  | invalidDot
  | dotInNestedName
  | invalidDollar
  | enclosingNameMissing
  | trailingDot
  | trailingDollar
  | annotationUnended
  | primitiveNotAllowed
  | variableWithArguments
  | argumentsUnended
  | dimensionMissing
  | bracketMissing
  | trailingCharacter
deriving DecidableEq, Repr

def TypeFlaw.message : TypeFlaw → String
  | emptyName => "Empty name"
  | invalidName => "Empty name or invalid char"
  | unexpectedSpace => "Unexpected space"
  | voidType => "'void' is not valid"
  | invalidDot => "Invalid dot"
  | dotInNestedName => "Invalid dot in nested name"
  | invalidDollar => "Invalid $"
  | enclosingNameMissing => "Missing enclosing name for nested name"
  | trailingDot => "Invalid trailing dot"
  | trailingDollar => "Invalid trailing $"
  | annotationUnended => "Expected space after annotation"
  | primitiveNotAllowed => "Primitive type is not allowed here"
  | variableWithArguments => "Cannot specify type arguments for type variable"
  | argumentsUnended => "Expected ', ' or '>'"
  | dimensionMissing => "Missing '[]'"
  | bracketMissing => "Missing ']'"
  | trailingCharacter => "Invalid trailing character"

namespace TypeParser

/-- A flaw, and how many characters are left at its place. -/
structure Problem where
  flaw : TypeFlaw
  left : Nat
deriving DecidableEq, Repr

def isNameChar (c : Char) : Bool := Text.isAlphanumeric c || c = '_'

def fail (flaw : TypeFlaw) (text : List Char) : Except Problem α := .error ⟨flaw, text.length⟩

/-- A qualified name in parts: the packages, the enclosing classes, and the class, whose last character
comes first. -/
structure NameParts where
  packages : List (List Char)
  outer : List (List Char)
  last : List Char

def NameParts.simple (parts : NameParts) : List Char := parts.last.reverse

def finishName (parts : NameParts) (text : List Char) : Except Problem (NameParts × List Char) :=
  if !parts.last.isEmpty then .ok (parts, text)
  else if !parts.outer.isEmpty then .error ⟨.trailingDollar, text.length + 1⟩
  else if !parts.packages.isEmpty then .error ⟨.trailingDot, text.length + 1⟩
  else match text with
    | [] => fail .emptyName text
    | c :: _ => fail (if c = ' ' then .unexpectedSpace else .invalidName) text

/-- Reads on behind the parts that were read before. -/
def scanName (parts : NameParts) : List Char → Except Problem (NameParts × List Char)
  | [] => finishName parts []
  | c :: rest =>
    if c = '.' then
      if !parts.outer.isEmpty then fail .dotInNestedName (c :: rest)
      else if parts.last.isEmpty then fail .invalidDot (c :: rest)
      else scanName ⟨parts.packages ++ [parts.simple], [], []⟩ rest
    else if c = '$' then
      if !parts.last.isEmpty then
        scanName ⟨parts.packages, parts.outer ++ [parts.simple], []⟩ rest
      else if parts.outer.isEmpty then fail .enclosingNameMissing (c :: rest)
      else fail .invalidDollar (c :: rest)
    else if isNameChar c then scanName { parts with last := c :: parts.last } rest
    else finishName parts (c :: rest)

/-- A name is a class or a primitive type. -/
inductive Named where
  | classType (name : ClassName)
  /-- `left` is the number of characters from its start to the end of the text. -/
  | primitive (kind : Primitive) (left : Nat)

def NameParts.className (parts : NameParts) : ClassName where
  package := String.ofList (['.'].intercalate parts.packages)
  names := (parts.outer ++ [parts.simple]).map String.ofList

def readName (text : List Char) : Except Problem (Named × List Char) := do
  let (parts, rest) ← scanName ⟨[], [], []⟩ text
  if parts.packages.isEmpty ∧ parts.outer.isEmpty then
    let word := String.ofList parts.simple
    if word = "void" then fail .voidType text
    else match Primitive.ofKeyword? word with
      | some kind => return (.primitive kind text.length, rest)
      | none => return (.classType parts.className, rest)
  else return (.classType parts.className, rest)

/-- The class of a name where primitive types are not allowed. -/
def Named.className : Named → Except Problem ClassName
  | classType name => .ok name
  | primitive _ left => .error ⟨.primitiveNotAllowed, left⟩

/-- Reads annotations, each with a space behind it. The number bounds how many there are. -/
def readAnnotations : Nat → List Char → Except Problem (List ClassName × List Char)
  | fuel + 1, '@' :: text => do
    let (name, rest) ← readName text
    let label ← name.className
    match rest with
    | ' ' :: rest => do
      let (others, rest) ← readAnnotations fuel rest
      return (label :: others, rest)
    | rest => fail .annotationUnended rest
  | _, text => .ok ([], text)

/-- A type variable starts with an upper case letter and is not part of a qualified name. -/
def typeVariable? (text : List Char) : Option (List Char × List Char) :=
  if text.head?.any Text.isUpperCase then
    let rest := text.dropWhile isNameChar
    if rest.head? = some '.' ∨ rest.head? = some '$' then none
    else some (text.takeWhile isNameChar, rest)
  else none

/-- Reads the annotations of a dimension, with the space before them. -/
def readLabels (fuel : Nat) : List Char → Except Problem (List ClassName × List Char)
  | ' ' :: text => do
    let (annotations, rest) ← readAnnotations fuel text
    if annotations.isEmpty then fail .unexpectedSpace (' ' :: text) else return (annotations, rest)
  | text => .ok ([], text)

/-- Reads the dimensions of an array: the annotations of each, the outermost one first. The number
bounds how many dimensions and annotations there are. -/
def readDimensions : Nat → List Char → Except Problem (List (List ClassName) × List Char)
  | 0, text => .ok ([], text)
  | fuel + 1, text => do
    let (annotations, rest) ← readLabels fuel text
    match rest with
    | '[' :: ']' :: rest => do
      let (others, rest) ← readDimensions fuel rest
      return (annotations :: others, rest)
    | '[' :: rest => fail .bracketMissing rest
    | rest => if annotations.isEmpty then return ([], rest) else fail .dimensionMissing rest

/-- Puts dimensions around an element type. -/
def inArrays (dimensions : List (List ClassName)) (element : JavaType) : JavaType :=
  dimensions.foldr .array element

/-- The text behind a word that it starts with. -/
def afterWord? (word : String) (text : List Char) : Option (List Char) :=
  if word.toList.isPrefixOf text then some (text.drop word.length) else none

/-- Reads the type arguments of a name, if it has any, with a reader for them. -/
def readElement (readArguments : List Char → Except Problem (List JavaType × List Char))
    (annotations : List ClassName) (name : Named) : List Char → Except Problem (JavaType × List Char)
  | '<' :: text => do
    let raw ← name.className
    let (arguments, rest) ← readArguments text
    match rest with
    | '>' :: rest => return (.parameterized annotations raw arguments, rest)
    | rest => fail .argumentsUnended rest
  | text =>
    match name with
    | .classType name => .ok (.classType annotations name, text)
    | .primitive kind _ => .ok (.primitive annotations kind, text)

/-- An argument is not primitive, but it may be an array of primitive values. -/
def Named.checkPlace (asArgument : Bool) (dimensions : List (List ClassName)) (name : Named) : Except Problem Unit :=
  if asArgument ∧ dimensions.isEmpty then name.className.map fun _ => () else .ok ()

mutual

/-- Reads a type other than a wildcard. As an argument it may not be primitive. The number bounds the
depth of the type, and how many annotations or dimensions it has. -/
def readType : Nat → Bool → List Char → Except Problem (JavaType × List Char)
  | 0, _, text => fail .emptyName text
  | fuel + 1, asArgument, text => do
    let (annotations, text) ← readAnnotations fuel text
    match typeVariable? text with
    | some (name, rest) =>
      if rest.head? = some '<' then fail .variableWithArguments rest
      else
        let (dimensions, rest) ← readDimensions fuel rest
        return (inArrays dimensions (.typeVariable annotations (String.ofList name)), rest)
    | none =>
      let (name, rest) ← readName text
      let (element, rest) ← readElement (readArguments fuel) annotations name rest
      let (dimensions, rest) ← readDimensions fuel rest
      name.checkPlace asArgument dimensions
      return (inArrays dimensions element, rest)

/-- Reads type arguments up to the one without a comma behind it. -/
def readArguments : Nat → List Char → Except Problem (List JavaType × List Char)
  | 0, text => fail .emptyName text
  | fuel + 1, text => do
    let (argument, rest) ← readArgument fuel text
    match rest with
    | ',' :: ' ' :: rest => do
      let (others, rest) ← readArguments fuel rest
      return (argument :: others, rest)
    | rest => return ([argument], rest)

def readArgument : Nat → List Char → Except Problem (JavaType × List Char)
  | 0, text => fail .emptyName text
  | fuel + 1, text =>
    match text with
    | '?' :: rest =>
      match afterWord? " extends " rest with
      | some bound => do
        let (bound, rest) ← readType fuel true bound
        return (.wildcardExtends [] bound, rest)
      | none =>
        match afterWord? " super " rest with
        | some bound => do
          let (bound, rest) ← readType fuel true bound
          return (.wildcardSuper [] bound, rest)
        | none => .ok (.wildcard [], rest)
    | text => readType fuel true text

end

/-- Reads a whole text. Every type, argument, annotation and dimension takes a character at least, so three
steps to a character are enough. -/
def readAll (text : List Char) : Except Problem JavaType := do
  let (type, rest) ← readType (3 * text.length + 2) false text
  if rest.isEmpty then return type else fail .trailingCharacter rest

end TypeParser

/-- A text that is not a type. The position is an index into the characters of the text. -/
structure TypeTextError where
  text : String
  flaw : TypeFlaw
  position : Nat
deriving DecidableEq, Repr

def JavaType.ofText (text : String) : Except TypeTextError JavaType :=
  (TypeParser.readAll text.toList).mapError fun problem =>
    ⟨text, problem.flaw, text.length - problem.left⟩

end TypedTree.Java
