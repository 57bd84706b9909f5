/-!
What the program needs of the system it runs on. Paths are texts, as they were given to the program.
-/

namespace TypedTree.CommandLine

inductive SystemError where
  | notFound
  | alreadyExists
  | notFolder
  | isFolder
  | nameTooLong
  | other (text : String)
deriving DecidableEq, Repr

def SystemError.message : SystemError → String
  | notFound => "No such file or directory (os error 2)"
  | alreadyExists => "File exists (os error 17)"
  | notFolder => "Not a directory (os error 20)"
  | isFolder => "Is a directory (os error 21)"
  | nameTooLong => "File name too long (os error 36)"
  | other text => text

class Host (m : Type → Type) where
  /-- The text of a file. Files are texts here; those that are not UTF-8 are left out. -/
  read : String → m (Except SystemError String)
  write : String → String → m (Except SystemError Unit)
  /-- Makes a folder in one that is there. -/
  makeFolder : String → m (Except SystemError Unit)
  isPresent : String → m Bool
  isFolder : String → m Bool
  /-- The names in a folder, in their order. -/
  names : String → m (List String)
  print : String → m Unit
  complain : String → m Unit

/-! Paths. -/

/-- The parts of a path between slashes, empty ones included. -/
def pathParts (path : String) : List String :=
  (path.toList.splitOnP (· = '/')).map String.ofList

/-- The parts of a path that lead somewhere. -/
def pathSteps (path : String) : List String :=
  (pathParts path).filter fun part => part ≠ "" ∧ part ≠ "."

def isAbsolute (path : String) : Bool := path.toList.head? = some '/'

def joinPath (folder name : String) : String :=
  if folder.isEmpty then name
  else if folder.toList.getLast? = some '/' then folder ++ name
  else folder ++ "/" ++ name

/-- Whether a path is the current folder and says so. -/
def isHere (path : String) : Bool := path.toList.head? = some '.' && (pathSteps path).isEmpty

/-- The paths to the parts of a path, from the last one to the first. The parts come in that order. -/
private def pathsFrom (first : String) : List String → List String
  | [] => if first = "" then [] else [first]
  | part :: before =>
    if part = "" ∨ part = "." then pathsFrom first before
    else "/".intercalate (first :: (part :: before).reverse) :: pathsFrom first before

/-- The folders that a path names around a file, the nearest one first. -/
def foldersAround (path : String) : List String :=
  match pathParts path with
  | [] => []
  | first :: rest => (pathsFrom first rest.reverse).drop 1

def fileName? (path : String) : Option String :=
  match (pathSteps path).getLast? with
  | some ".." => none
  | name => name

/-- The name of a file without what follows its last dot. A dot in front is part of the name. -/
def fileStem? (path : String) : Option String :=
  (fileName? path).map fun name =>
    let backwards := name.toList.reverse
    let stem := ((backwards.dropWhile (· ≠ '.')).drop 1).reverse
    if stem.isEmpty then name else String.ofList stem

variable {m : Type → Type} [Monad m] [Host m]

/-- A folder that could not be made is as good as a new one if it is there. -/
def acceptFolder (folder : String) (result : Except SystemError Unit) :
    m (Except SystemError Unit) := do
  if ← Host.isFolder folder then return .ok () else return result

/-- Makes a folder and those around it as far as they are missing. They are given from the inside out. -/
def makeFolders : List String → m (Except SystemError Unit)
  | [] => return .ok ()
  | folder :: around => do
    match ← Host.makeFolder folder with
    | .error .notFound =>
      match ← makeFolders around with
      | .ok () => acceptFolder folder (← Host.makeFolder folder)
      | failed => return failed
    | result => acceptFolder folder result

end TypedTree.CommandLine
