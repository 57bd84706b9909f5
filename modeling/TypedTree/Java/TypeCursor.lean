import TypedTree.Java.TypeParser

/-!
Reading Java types by position. A cursor is moved over the characters of the text, also back to places that were remembered,
and names are cut out between such places. Each move and each cut is checked against the ends of the text.
-/

namespace TypedTree.Java.TypeCursor

open TypeParser (isNameChar inArrays)

/-- Why reading stops. -/
inductive Stop where
  | flawed (flaw : TypeFlaw) (position : Nat)
  /-- A move or a cut that leaves the text. -/
  | outOfRange
  /-- More steps than were expected. -/
  | unfinished
deriving DecidableEq, Repr

/-- A name that was read, with the place where it starts if it is that of a primitive type. -/
inductive Found where
  | classType (name : ClassName)
  | primitive (kind : Primitive) (start : Nat)

/-- Places in a name: where its current segment starts, its last dot, and its dollars. -/
structure Marks where
  segment : Nat
  dot : Option Nat
  dollars : List Nat

variable (chars : List Char)

/-- The cursor is moved to a place, which may be the end of the text. -/
def moveTo (position : Nat) : Except Stop Nat :=
  if position ≤ chars.length then .ok position else .error .outOfRange

def stepBack (position : Nat) : Except Stop Nat :=
  if 1 ≤ position then moveTo chars (position - 1) else .error .outOfRange

def slice (first last : Nat) : Except Stop (List Char) :=
  if first ≤ last ∧ last ≤ chars.length then .ok ((chars.take last).drop first) else .error .outOfRange

/-- Moves over a character if it comes next. -/
def consume (c : Char) (i : Nat) : Except Stop (Bool × Nat) :=
  if chars[i]? = some c then return (true, ← moveTo chars (i + 1)) else return (false, i)

/-- Moves over a word if it comes next. -/
def consumeWord (word : String) (i : Nat) : Except Stop (Bool × Nat) :=
  let last := i + word.length
  if last ≤ chars.length then do
    if (← slice chars i last) = word.toList then return (true, ← moveTo chars last) else return (false, i)
  else return (false, i)

/-- Moves to the end of a name. -/
def passName : Nat → Marks → Nat → Except Stop (Marks × Nat)
  | 0, _, _ => .error .unfinished
  | fuel + 1, marks, i =>
    match chars[i]? with
    | none => .ok (marks, i)
    | some c =>
      if c = '.' then
        if i = marks.segment then .error (.flawed .invalidDot i)
        else if !marks.dollars.isEmpty then .error (.flawed .dotInNestedName i)
        else do passName fuel { marks with dot := some i, segment := i + 1 } (← moveTo chars (i + 1))
      else if c = '$' then
        if marks.dollars.getLast?.any (i = · + 1) then .error (.flawed .invalidDollar i)
        else if i = marks.segment then .error (.flawed .enclosingNameMissing i)
        else do passName fuel { marks with dollars := marks.dollars ++ [i] } (← moveTo chars (i + 1))
      else if isNameChar c then do passName fuel marks (← moveTo chars (i + 1))
      else .ok (marks, i)

/-- The package of a name, which ends at its last dot. -/
def cutPackage (start : Nat) : Option Nat → Except Stop (List Char)
  | some dot => slice chars start dot
  | none => .ok []

/-- The names of the enclosing classes, which end at dollars, and where the name behind them starts. -/
def cutOuter (segment : Nat) (dollars : List Nat) : Except Stop (List (List Char) × Nat) :=
  dollars.foldlM (fun (names, first) dollar => return (names ++ [← slice chars first dollar], dollar + 1)) ([], segment)

/-- The package and the names of a class from where its name starts to the cursor behind it. -/
def cutName (start : Nat) (marks : Marks) (i : Nat) : Except Stop ((List Char × List (List Char)) × Nat) :=
  if start = i then
    .error (.flawed (match chars[i]? with | none => .emptyName | some ' ' => .unexpectedSpace | some _ => .invalidName) i)
  else if marks.segment = i then do .error (.flawed .trailingDot (← stepBack chars i))
  else if marks.dollars.getLast?.any (i = · + 1) then do .error (.flawed .trailingDollar (← stepBack chars i))
  else do
    let package ← cutPackage chars start marks.dot
    let (outer, first) ← cutOuter chars marks.segment marks.dollars
    return ((package, outer ++ [← slice chars first i]), i)

/-- What a name stands for that was cut out. -/
def identify (start : Nat) (i : Nat) : List Char × List (List Char) → Except Stop (Found × Nat)
  | ([], [name]) =>
    let word := String.ofList name
    if word = "void" then do .error (.flawed .voidType (← moveTo chars start))
    else match Primitive.ofKeyword? word with
      | some kind => return (.primitive kind start, i)
      | none => return (.classType ⟨"", [word]⟩, i)
  | (package, names) => return (.classType ⟨String.ofList package, names.map String.ofList⟩, i)

def readName (start : Nat) : Except Stop (Found × Nat) := do
  let (marks, i) ← passName chars (chars.length + 1) ⟨start, none, []⟩ start
  let (cut, i) ← cutName chars start marks i
  identify chars start i cut

/-- The class of a name where primitive types are not allowed. The cursor is moved back to the start of one. -/
def Found.className : Found → Except Stop ClassName
  | classType name => .ok name
  | primitive _ start => do .error (.flawed .primitiveNotAllowed (← moveTo chars start))

def readAnnotations : Nat → Nat → Except Stop (List ClassName × Nat)
  | 0, _ => .error .unfinished
  | fuel + 1, i => do
    match ← consume chars '@' i with
    | (false, i) => return ([], i)
    | (true, i) =>
      let (name, i) ← readName chars i
      let label ← name.className chars
      match ← consume chars ' ' i with
      | (false, i) => .error (.flawed .annotationUnended i)
      | (true, i) =>
        let (others, i) ← readAnnotations fuel i
        return (label :: others, i)

/-- The end of the word at a place, if it is not part of a qualified name. -/
def wordEnd? : Nat → Nat → Except Stop (Option Nat)
  | 0, _ => .error .unfinished
  | fuel + 1, last =>
    match chars[last]? with
    | none => .ok (some last)
    | some c => if c = '.' ∨ c = '$' then .ok none else if isNameChar c then wordEnd? fuel (last + 1) else .ok (some last)

def readVariable (i : Nat) : Except Stop (Option (List Char) × Nat) :=
  if chars[i]?.any Text.isUpperCase then do
    match ← wordEnd? chars (chars.length + 1) i with
    | none => return (none, i)
    | some last =>
      let name ← slice chars i last
      return (some name, ← moveTo chars last)
  else return (none, i)

/-- Reads the annotations of a dimension, with the space before them. -/
def readLabels (i : Nat) : Except Stop (List ClassName × Nat) := do
  match ← consume chars ' ' i with
  | (false, i) => return ([], i)
  | (true, i) =>
    let (annotations, i) ← readAnnotations chars (chars.length + 1) i
    if annotations.isEmpty then .error (.flawed .unexpectedSpace (← stepBack chars i)) else return (annotations, i)

def readDimensions : Nat → Nat → Except Stop (List (List ClassName) × Nat)
  | 0, _ => .error .unfinished
  | fuel + 1, i => do
    let (annotations, i) ← readLabels chars i
    match ← consume chars '[' i with
    | (false, i) => if annotations.isEmpty then return ([], i) else .error (.flawed .dimensionMissing i)
    | (true, i) =>
      match ← consume chars ']' i with
      | (false, i) => .error (.flawed .bracketMissing i)
      | (true, i) =>
        let (others, i) ← readDimensions fuel i
        return (annotations :: others, i)

/-- Reads the type arguments of a name, if it has any, with a reader for them. -/
def readElement (readArguments : Nat → Except Stop (List JavaType × Nat)) (annotations : List ClassName) (name : Found)
    (i : Nat) : Except Stop (JavaType × Nat) := do
  match ← consume chars '<' i with
  | (true, i) =>
    let raw ← name.className chars
    let (arguments, i) ← readArguments i
    match ← consume chars '>' i with
    | (false, i) => .error (.flawed .argumentsUnended i)
    | (true, i) => return (.parameterized annotations raw arguments, i)
  | (false, i) =>
    match name with
    | .classType name => return (.classType annotations name, i)
    | .primitive kind _ => return (.primitive annotations kind, i)

/-- An argument is not primitive, but it may be an array of primitive values. -/
def Found.checkPlace (asArgument : Bool) (dimensions : List (List ClassName)) (name : Found) : Except Stop Unit :=
  if asArgument ∧ dimensions.isEmpty then (name.className chars).map fun _ => () else .ok ()

mutual

def readType : Nat → Bool → Nat → Except Stop (JavaType × Nat)
  | 0, _, _ => .error .unfinished
  | fuel + 1, asArgument, i => do
    let (annotations, i) ← readAnnotations chars (chars.length + 1) i
    match ← readVariable chars i with
    | (some name, i) =>
      if chars[i]? = some '<' then .error (.flawed .variableWithArguments i)
      else
        let (dimensions, i) ← readDimensions chars (chars.length + 1) i
        return (inArrays dimensions (.typeVariable annotations (String.ofList name)), i)
    | (none, i) =>
      let (name, i) ← readName chars i
      let (element, i) ← readElement chars (readArguments fuel) annotations name i
      let (dimensions, i) ← readDimensions chars (chars.length + 1) i
      name.checkPlace chars asArgument dimensions
      return (inArrays dimensions element, i)

def readArguments : Nat → Nat → Except Stop (List JavaType × Nat)
  | 0, _ => .error .unfinished
  | fuel + 1, i => do
    let (argument, i) ← readArgument fuel i
    match ← consumeWord chars ", " i with
    | (true, i) =>
      let (others, i) ← readArguments fuel i
      return (argument :: others, i)
    | (false, i) => return ([argument], i)

def readArgument : Nat → Nat → Except Stop (JavaType × Nat)
  | 0, _ => .error .unfinished
  | fuel + 1, i => do
    match ← consume chars '?' i with
    | (false, i) => readType fuel true i
    | (true, i) =>
      match ← consumeWord chars " extends " i with
      | (true, i) =>
        let (bound, i) ← readType fuel true i
        return (.wildcardExtends [] bound, i)
      | (false, i) =>
        match ← consumeWord chars " super " i with
        | (true, i) =>
          let (bound, i) ← readType fuel true i
          return (.wildcardSuper [] bound, i)
        | (false, i) => return (.wildcard [], i)

end

/-- Reads a whole text. -/
def readAll : Except Stop JavaType := do
  let (type, i) ← readType chars (3 * chars.length + 2) false 0
  if i = chars.length then return type else .error (.flawed .trailingCharacter i)

end TypedTree.Java.TypeCursor
