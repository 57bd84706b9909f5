import TypedTree.CommandLine.Host

/-!
Patterns for file names. A question mark stands for any character, an asterisk for any text, brackets for
one of some characters, and two asterisks for any folders.
-/

namespace TypedTree.CommandLine

inductive GlobFlaw where
  | tooManyAsterisks
  | partOfComponent
  | invalidRange
deriving DecidableEq, Repr

def GlobFlaw.message : GlobFlaw → String
  | tooManyAsterisks => "wildcards are either regular `*` or recursive `**`"
  | partOfComponent => "recursive wildcards must form a single path component"
  | invalidRange => "invalid range pattern"

structure GlobError where
  position : Nat
  flaw : GlobFlaw
deriving DecidableEq, Repr

def GlobError.message (error : GlobError) : String :=
  s!"Pattern syntax error near position {error.position}: {error.flaw.message}"

namespace Glob

/-- Characters from the first to the last one. -/
structure CharRange where
  first : Char
  last : Char
deriving DecidableEq, Repr

inductive Token where
  | char (c : Char)
  | anyChar
  | anyText
  | anyFolders
  | oneOf (ranges : List CharRange)
  | noneOf (ranges : List CharRange)
deriving DecidableEq, Repr

/-- The ranges in brackets. A hyphen between two characters makes a range of them. -/
def readRanges : List Char → List CharRange
  | first :: '-' :: last :: rest => ⟨first, last⟩ :: readRanges rest
  | c :: rest => ⟨c, c⟩ :: readRanges rest
  | [] => []

/-- The characters up to a closing bracket, and those behind it. The first one is never the bracket. -/
def readBrackets : List Char → Option (List Char × List Char)
  | first :: rest =>
    match rest.dropWhile (· ≠ ']') with
    | [] => none
    | _ :: behind => some (first :: rest.takeWhile (· ≠ ']'), behind)
  | [] => none

/-- Adds a recursive wildcard, unless it follows another one that is not the first token. -/
private def addFolders : List Token → List Token
  | .anyFolders :: earlier :: rest => .anyFolders :: earlier :: rest
  | tokens => .anyFolders :: tokens

/-- Reads the tokens of a pattern. Those that were read come with the last one first. `position` is the number
of characters before the text, and `previous` the last one of them. -/
def readTokens (fuel : Nat) (tokens : List Token) (position : Nat) (previous : Option Char)
    (text : List Char) : Except GlobError (List Token) :=
  match fuel, text with
  | 0, _ => .ok tokens.reverse
  | _, [] => .ok tokens.reverse
  | fuel + 1, c :: rest =>
    if c = '?' then readTokens fuel (.anyChar :: tokens) (position + 1) (some c) rest
    else if c = '*' then
      let count := (text.takeWhile (· = '*')).length
      let behind := text.drop count
      if 2 < count then .error ⟨position + 2, .tooManyAsterisks⟩
      else if count = 2 then
        if previous.isSome ∧ previous ≠ some '/' then .error ⟨position - 1, .partOfComponent⟩
        else match behind with
          | [] => .ok (addFolders tokens).reverse
          | next :: behind =>
            if next = '/' then
              readTokens fuel (addFolders tokens) (position + 3) (some '/') behind
            else .error ⟨position + 2, .partOfComponent⟩
      else readTokens fuel (.anyText :: tokens) (position + 1) (some c) rest
    else if c = '[' then
      let (negated, inside) :=
        match rest with
        | '!' :: inside => (true, inside)
        | inside => (false, inside)
      match readBrackets inside with
      | none => .error ⟨position, .invalidRange⟩
      | some (chars, behind) =>
        let token := if negated then Token.noneOf (readRanges chars) else .oneOf (readRanges chars)
        let size := chars.length + if negated then 3 else 2
        readTokens fuel (token :: tokens) (position + size) (some ']') behind
    else readTokens fuel (.char c :: tokens) (position + 1) (some c) rest

/-- A pattern for one component of a path. -/
structure Pattern where
  text : String
  tokens : List Token
deriving DecidableEq, Repr

namespace Pattern

def read (text : String) : Except GlobError Pattern := do
  return ⟨text, ← readTokens text.length [] 0 none text.toList⟩

def isWild (pattern : Pattern) : Bool :=
  pattern.tokens.any fun token =>
    match token with
    | .char _ => false
    | _ => true

def isRecursive (pattern : Pattern) : Bool := .anyFolders ∈ pattern.tokens

end Pattern

private def inRanges (ranges : List CharRange) (c : Char) : Bool :=
  ranges.any fun range => range.first ≤ c && c ≤ range.last

def Token.allows : Token → Char → Bool
  | char c, d => c = d
  | oneOf ranges, d => inRanges ranges d
  | noneOf ranges, d => !inRanges ranges d
  | _, _ => true

/-- Whether a token stands for texts of any length. -/
def Token.isLoose : Token → Bool
  | anyText => true
  | anyFolders => true
  | _ => false

/-- The ends of a text, from the text itself to the empty one. -/
def ends : List Char → List (List Char)
  | [] => [[]]
  | c :: rest => (c :: rest) :: ends rest

/-- What is left of a text behind one character that a token stands for. -/
private def behindOne (token : Token) : List Char → Option (List Char)
  | [] => none
  | c :: rest => if token.allows c then some rest else none

/-- What may be left of a name behind a token, given what may be left in front of it. All of this are ends of
the name, the longest one first, so that no end has to be looked at twice. -/
def leave (left : List (List Char)) (token : Token) : List (List Char) :=
  if token.isLoose then (left.head?.map ends).getD [] else left.filterMap (behindOne token)

def matchTokens (tokens : List Token) (name : List Char) : Bool :=
  (tokens.foldl leave [name]).any List.isEmpty

def Pattern.matches (pattern : Pattern) (name : String) : Bool := matchTokens pattern.tokens name.toList

/-- Whether a path is a pattern. -/
def isPattern (path : String) : Bool :=
  path.toList.any fun c => c = '*' || c = '?' || c = '[' || c = '\x7b'

variable {m : Type → Type} [Monad m] [Host m]

/-- The current folder is left out of the paths that are found. -/
private def under (folder name : String) : String :=
  if isHere folder then name else joinPath folder name

/-- Keeps a path unless it must be a folder and is not. -/
private def keepFolder (folderOnly : Bool) (path : String) : m (List String) := do
  if folderOnly && !(← Host.isFolder path) then return [] else return [path]

private def concatMapM (f : String → m (List String)) (names : List String) : m (List String) := do
  return (← names.mapM f).flatten

/-- Two patterns for any folders in a row are the same as one. -/
private def dropRecursive (patterns : List Pattern) : List Pattern := patterns.dropWhile Pattern.isRecursive

mutual

/-- The paths below a folder that match. The number bounds the depth of the search. -/
def search (folderOnly : Bool) : Nat → List Pattern → String → m (List String)
  | 0, _, _ => return []
  | _, [], _ => return []
  | fuel + 1, pattern :: rest, folder => do
    let isFolder ← Host.isFolder folder
    if !pattern.isWild then
      let path := under folder pattern.text
      let here := pattern.text = "." || pattern.text = ".."
      if (here && isFolder) || (!here && (← Host.isPresent path)) then
        searchRest folderOnly fuel rest path
      else return []
    else if isFolder then
      let special := [("..", joinPath folder ".."), (".", joinPath folder ".")].filter fun (name, _) =>
        pattern.tokens.head? = some (.char '.') && pattern.matches name
      let above ← concatMapM (searchRest folderOnly fuel rest) (special.map (·.2))
      let below ← concatMapM (fun name => visit folderOnly fuel (pattern :: rest) (under folder name))
        (← Host.names folder)
      return above ++ below
    else return []

/-- A path that matches all patterns but the rest. -/
def searchRest (folderOnly : Bool) : Nat → List Pattern → String → m (List String)
  | 0, _, _ => return []
  | _, [], path => keepFolder folderOnly path
  | fuel + 1, rest, path => search folderOnly fuel rest path

def matchName (folderOnly : Bool) : Nat → List Pattern → String → m (List String)
  | 0, _, _ => return []
  | _, [], _ => return []
  | fuel + 1, pattern :: rest, path =>
    if (fileName? path).any pattern.matches then searchRest folderOnly fuel rest path else return []

def visit (folderOnly : Bool) : Nat → List Pattern → String → m (List String)
  | 0, _, _ => return []
  | _, [], _ => return []
  | fuel + 1, pattern :: rest, path => do
    if !pattern.isRecursive then matchName folderOnly fuel (pattern :: rest) path
    else
      let rest := dropRecursive rest
      if ← Host.isFolder path then
        let below ← search folderOnly fuel (pattern :: rest) path
        if rest.isEmpty then return path :: below
        else return (← matchName folderOnly fuel rest path) ++ below
      else if rest.isEmpty then return []
      else matchName folderOnly fuel rest path

end

/-- Paths have at most this many characters, and so at most as many components. -/
def pathLimit : Nat := 4096

/-- The components of a pattern, without the slash of an absolute path and the one at the end. -/
def components (pattern : String) : List String :=
  let parts := pathParts pattern
  let parts := if isAbsolute pattern then parts.drop 1 else parts
  if 1 < parts.length ∧ parts.getLast? = some "" then parts.dropLast else parts

/-- The paths that match a pattern, in the order of their names. -/
def expand (pattern : String) : m (Except GlobError (List String)) := do
  let patterns := do
    let _ ← Pattern.read pattern
    (components pattern).mapM Pattern.read
  match patterns with
  | .error error => return .error error
  | .ok patterns =>
    let folderOnly := pattern.toList.getLast? = some '/'
    let folder := if isAbsolute pattern then "/" else "."
    return .ok (← search folderOnly (3 * (pathLimit + patterns.length)) patterns folder)

end Glob

end TypedTree.CommandLine
