import TypedTree.Table
import TypedTree.Text.Quoted

/-!
Name patterns: text with placeholders in braces. A pattern is read once against the placeholders that it
may use, and can then be applied to any number of values.
-/

namespace TypedTree.Naming

inductive PatternFlaw where
  | noPlaceholders
  | emptyPattern
  | unpairedBrace
  | missingBrace
  | braceInName
  | emptyName
  | unknownName (name : String)
deriving DecidableEq, Repr

def PatternFlaw.message : PatternFlaw → String
  | noPlaceholders => "Must specify at least one placeholder"
  | emptyPattern => "Pattern string must not be empty"
  | unpairedBrace => "Unpaired closing '\x7d'"
  | missingBrace => "Missing closing '\x7d'"
  | braceInName => "Unexpected '\x7b' in placeholder name"
  | emptyName => "Placeholder name cannot be empty"
  | unknownName name => "Unknown placeholder: " ++ name

structure PatternError where
  pattern : String
  flaw : PatternFlaw
deriving DecidableEq, Repr

def PatternError.message (error : PatternError) : String :=
  error.flaw.message ++ " (pattern: " ++ Text.quoted error.pattern ++ ")"

/-- What stands for a placeholder, by its name. -/
abbrev Placeholders (α : Type) := Table String (α → String)

inductive Piece (α : Type) where
  | literal (text : List Char)
  | placeholder (value : α → String)

structure NamePattern (α : Type) where
  source : String
  pieces : List (Piece α)

namespace NamePattern

variable {α : Type}

/-- The literal as a piece, unless it is empty. -/
def literalPiece (text : List Char) : List (Piece α) :=
  if text.isEmpty then [] else [.literal text]

/-- Reads text up to an opening brace, the placeholder in the braces, and then the rest. -/
def readPieces (placeholders : Placeholders α) (text : List Char) :
    Except PatternFlaw (List (Piece α)) :=
  let literal := text.takeWhile (· ≠ '\x7b')
  if '\x7d' ∈ literal then .error .unpairedBrace
  else
    match _opened : text.dropWhile (· ≠ '\x7b') with
    | [] => .ok (literalPiece literal)
    | _ :: behind =>
      let name := behind.takeWhile (· ≠ '\x7d')
      match _closed : behind.dropWhile (· ≠ '\x7d') with
      | [] => .error .missingBrace
      | _ :: rest =>
        if '\x7b' ∈ name then .error .braceInName
        else if name.isEmpty then .error .emptyName
        else match placeholders.get? (String.ofList name) with
          | none => .error (.unknownName (String.ofList name))
          | some value => do
            let pieces ← readPieces placeholders rest
            return literalPiece literal ++ .placeholder value :: pieces
termination_by text.length
decreasing_by
  have shorter := (List.dropWhile_suffix (p := (· ≠ '\x7b')) (l := text)).length_le
  have shortest := (List.dropWhile_suffix (p := (· ≠ '\x7d')) (l := behind)).length_le
  rw [_opened] at shorter
  rw [_closed] at shortest
  simp only [List.length_cons] at shorter shortest
  omega

def read (placeholders : Placeholders α) (pattern : String) : Except PatternError (NamePattern α) :=
  if placeholders.isEmpty then .error ⟨pattern, .noPlaceholders⟩
  else if pattern.isEmpty then .error ⟨pattern, .emptyPattern⟩
  else
    match readPieces placeholders pattern.toList with
    | .ok pieces => .ok ⟨pattern, pieces⟩
    | .error flaw => .error ⟨pattern, flaw⟩

def applyPiece (value : α) : Piece α → List Char
  | .literal text => text
  | .placeholder replace => (replace value).toList

def apply (pattern : NamePattern α) (value : α) : String :=
  String.ofList (pattern.pieces.flatMap (applyPiece value))

end NamePattern

end TypedTree.Naming
