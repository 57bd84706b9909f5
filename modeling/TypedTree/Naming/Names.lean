import TypedTree.Naming.Scheme

/-!
The names of one run. Each must be usable in Java, and no two node types may share the name of a class.
-/

namespace TypedTree.Naming

open Java (NameFlaw)

/-- The classes of node types, in the order of the types. -/
abbrev ClassTable := Table String String

/-- Two node types whose classes would have the same name. -/
structure Clash where
  name : String
  first : String
  second : String
deriving DecidableEq, Repr

/-- Names node types one after the other. `owners` has the type of each class. -/
def assignClasses (scheme : Scheme) (owners classes : ClassTable) : List String →
    Except Clash ClassTable
  | [] => .ok classes
  | type :: rest =>
    let name := scheme.className type
    match owners.get? name with
    | some first => .error ⟨name, first, type⟩
    | none => assignClasses scheme (owners.insert name type) (classes.insert type name) rest

structure Names where
  scheme : Scheme
  classes : Except Clash ClassTable

namespace Names

/-- The names for a grammar with the given named node types. -/
def forTypes (scheme : Scheme) (types : List String) : Names :=
  ⟨scheme, assignClasses scheme .empty .empty types⟩

def memberName (name : String) : Except Error String :=
  match Java.memberNameFlaw? name with
  | some flaw => .error (.invalidName name flaw)
  | none => .ok name

def typeName (name : String) : Except Error String :=
  match Java.typeNameFlaw? name with
  | some flaw => .error (.invalidName name flaw)
  | none => .ok name

/-- The class of a node type. A clash between any two node types leaves none of them with a class. -/
def className (names : Names) (type : String) : Except Error String :=
  match names.classes with
  | .error clash => .error (.duplicateName clash.name clash.first clash.second)
  | .ok classes =>
    match classes.get? type with
    | none => .error (.unknownType type "name generator")
    | some name => typeName name

end Names

end TypedTree.Naming
