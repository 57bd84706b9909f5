import TypedTree.Grammar.Basic
import TypedTree.Java.Identifier
import TypedTree.Java.TypeParser
import TypedTree.Json.Decode
import TypedTree.Naming.Pattern

/-! Why no types can be generated, and the wording of each cause. -/

namespace TypedTree

inductive GrammarFlaw where
  | tokenWithSubtypes (name : String)
  | tokenWithChildren (name : String)
  | tokenWithFields (name : String)
  | tokenAsRoot (name : String)
  | rootGivenTwice (name : String)
  | secondRoot (first second : String)
  | supertypeWithChildren (name : String)
  | supertypeWithFields (name : String)
  | tooFewSubtypes (name : String)
  | unknownRoot (name : String)
  | emptySlot (slot : String)
  | repeatedToken (token parent : String)
deriving DecidableEq, Repr

def GrammarFlaw.message : GrammarFlaw → String
  | tokenWithSubtypes name => s!"Non-named node type '{name}' should not have subtypes"
  | tokenWithChildren name => s!"Non-named node type '{name}' should not have children"
  | tokenWithFields name => s!"Non-named node type '{name}' should not have fields"
  | tokenAsRoot name => s!"Non-named node type '{name}' should not be root node"
  | rootGivenTwice name =>
    "Should not explicitly specify root node type when 'node-types.json' already specifies root node "
      ++ s!"('{name}')"
  | secondRoot first second =>
    s!"Only a single root node type is supported; found node types: {first}, {second}"
  | supertypeWithChildren name => s!"Supertype '{name}' should not have children"
  | supertypeWithFields name => s!"Supertype '{name}' should not have fields"
  | tooFewSubtypes name => s!"Supertype '{name}' has less than 2 subtypes"
  | unknownRoot name => s!"Root node type '{name}' not found"
  | emptySlot slot => s!"Child type '{slot}' has no types"
  | repeatedToken token parent =>
    s!"Duplicate non-named type '{token}' for enclosing type '{parent}'"

inductive Error where
  | invalidPattern (error : Naming.PatternError)
  /-- Tokens that a table of all token names does not name. -/
  | unmappedTokens (uses : List TokenUse)
  | unknownType (name referencedBy : String)
  | duplicateType (name : String)
  | duplicateName (name first second : String)
  | invalidName (name : String) (flaw : Java.NameFlaw)
  | invalidGrammar (flaw : GrammarFlaw)
  | receiverWithoutMark (receiver : String)
  | incompleteReceiver (receiver : String)
  | alreadyResolved (owner : String)
  | duplicateMethod (owner method : String)
  | unknownReference (source target : String)
  | invalidType (error : Java.TypeTextError)
  | misfit (misfit : Json.Misfit)
  /-- A failure of the system, in its own words. -/
  | system (text : String)
deriving DecidableEq, Repr

def TokenUse.unmappedMessage (use : TokenUse) : String :=
  s!"Token type not mapped: type = {use.parent}, field = {use.field}, token = {use.token}"

/-- The caret of the last line stands below the place of the flaw. -/
def typeTextMessage (error : Java.TypeTextError) : String :=
  "Invalid type string " ++ Text.quoted error.text ++ ": " ++ error.flaw.message
    ++ "\n\t" ++ error.text ++ "\n\t"
    ++ String.ofList (List.replicate error.position ' ') ++ "^"

def Error.message : Error → String
  | invalidPattern error => "Invalid name pattern: " ++ error.message
  | unmappedTokens uses => "\n".intercalate (uses.map TokenUse.unmappedMessage)
  | unknownType name referencedBy => s!"Unknown type name: {name} (referenced by '{referencedBy}')"
  | duplicateType name => s!"Duplicate node type name: {name}"
  | duplicateName name first second =>
    s!"Duplicate generated type name '{name}' for '{first}' and '{second}'"
  | invalidName name flaw => s!"Invalid generated name '{name}': {flaw.message}"
  | invalidGrammar flaw => flaw.message
  | receiverWithoutMark receiver => s!"Missing '#': {receiver}"
  | incompleteReceiver receiver => s!"Invalid receiver: {receiver}"
  | alreadyResolved owner => s!"Common methods have already been set for '{owner}'"
  | duplicateMethod owner method => s!"Duplicate method {method} in '{owner}'"
  | unknownReference source target =>
    s!"Element '{source}' references unknown element '{target}'"
  | invalidType error => typeTextMessage error
  | misfit found => s!"at JSON path {Json.pathText found.path} → {found.cause.message}"
  | system text => text

end TypedTree
