import TypedTree.Error

/-!
Validation of grammars. A valid grammar has distinct names, well-formed supertypes and at most one root,
and is split into its supertypes and its other named node types.
-/

namespace TypedTree

structure ValidGrammar where
  /-- Named node types without subtypes. -/
  regular : List NodeType
  supertypes : List NodeType
  root : Option String
deriving DecidableEq, Inhabited

namespace Grammar

/-- A token may not be described like a node. -/
def tokenFlaw? (node : NodeType) : Option GrammarFlaw :=
  if node.isSupertype then some (.tokenWithSubtypes node.name)
  else if node.children.isSome then some (.tokenWithChildren node.name)
  else if node.hasFields then some (.tokenWithFields node.name)
  else if node.root then some (.tokenAsRoot node.name)
  else none

/-- A supertype has nothing but subtypes, and more than one. -/
def supertypeFlaw? (node : NodeType) (subtypes : List TypeMention) : Option GrammarFlaw :=
  if node.children.isSome then some (.supertypeWithChildren node.name)
  else if node.hasFields then some (.supertypeWithFields node.name)
  else if subtypes.length < 2 then some (.tooFewSubtypes node.name)
  else none

/-- The named node types that were checked so far, and the one that is marked as root. -/
structure Checked where
  names : List String
  regular : List NodeType
  supertypes : List NodeType
  marked : Option String
deriving Inhabited

private def refuse (flaw : GrammarFlaw) : Except Error α := .error (.invalidGrammar flaw)

/-- The root after a node type, which may be marked as root itself. -/
def checkRoot (requested marked : Option String) (node : NodeType) :
    Except Error (Option String) :=
  if !node.root then .ok marked
  else if requested.isSome then refuse (.rootGivenTwice node.name)
  else match marked with
    | some previous => refuse (.secondRoot previous node.name)
    | none => .ok (some node.name)

def checkNamed (requested : Option String) (checked : Checked) (node : NodeType) :
    Except Error Checked := do
  if node.name ∈ checked.names then .error (.duplicateType node.name)
  else
    let marked ← checkRoot requested checked.marked node
    let checked := { checked with names := checked.names ++ [node.name], marked }
    match node.subtypes with
    | some subtypes =>
      match supertypeFlaw? node subtypes with
      | some flaw => refuse flaw
      | none => return { checked with supertypes := checked.supertypes ++ [node] }
    | none => return { checked with regular := checked.regular ++ [node] }

def checkNode (requested : Option String) (checked : Checked) (node : NodeType) :
    Except Error Checked :=
  if node.named then checkNamed requested checked node
  else match tokenFlaw? node with
    | some flaw => refuse flaw
    | none => .ok checked

/-- Checks the node types in their order. A root may be requested if the grammar marks none. -/
def validate (grammar : Grammar) (requested : Option String) : Except Error ValidGrammar := do
  let checked ← grammar.nodeTypes.foldlM (checkNode requested) ⟨[], [], [], none⟩
  match requested with
  | some root =>
    if root ∈ checked.names then return ⟨checked.regular, checked.supertypes, some root⟩
    else refuse (.unknownRoot root)
  | none => return ⟨checked.regular, checked.supertypes, checked.marked⟩

end Grammar

end TypedTree
