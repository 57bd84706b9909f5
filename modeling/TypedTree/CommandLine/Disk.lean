import TypedTree.CommandLine.Host
import TypedTree.Table

/-!
A host in memory: a tree of files and folders with a current folder in it, and the texts written so far. Outside
the current folder there is only what every system has.
-/

namespace TypedTree.CommandLine

inductive Entry where
  /-- A file with a text. No other bytes have a place on a disk. -/
  | file (text : String)
  | folder (entries : List (String × Entry))

namespace Entry

def isFolder : Entry → Bool
  | file _ => false
  | folder _ => true

def entries : Entry → List (String × Entry)
  | file _ => []
  | folder entries => entries

/-- Puts an entry where some names lead to, and folders on the way where they are missing. -/
def put : Entry → List String → Entry → Entry
  | _, [], entry => entry
  | around, name :: rest, entry =>
    let inner := (Table.find name around.entries).getD (folder [])
    folder (Table.put name (inner.put rest entry) around.entries)

mutual

/-- The files in an entry, each with its path and its text. -/
def texts (path : String) : Entry → List (String × String)
  | file text => [(path, text)]
  | folder entries => textsIn path entries

def textsIn (path : String) : List (String × Entry) → List (String × String)
  | [] => []
  | (name, entry) :: rest => texts (joinPath path name) entry ++ textsIn path rest

end

end Entry

def nameLimit : Nat := 255

def pathLimit : Nat := 4095

/-- Where a part of a path leads. -/
structure Spot where
  /-- The names from the root on, the last one first, each with the folder around it. -/
  trail : List (String × Entry)
  entry : Option Entry

namespace Spot

def names (spot : Spot) : List String := (spot.trail.map (·.1)).reverse

/-- The folder around a spot; the root is in itself. -/
def around (spot : Spot) : Spot :=
  match spot.trail with
  | [] => spot
  | (_, folder) :: rest => ⟨rest, some folder⟩

/-- Where a part of a path leads from a spot, which must be a folder. -/
def follow (spot : Spot) (part : String) : Except SystemError Spot :=
  match spot.entry with
  | none => .error .notFound
  | some (.file _) => .error .notFolder
  | some (.folder entries) =>
    if part = "" ∨ part = "." then .ok spot
    else if part = ".." then .ok spot.around
    else if nameLimit < part.utf8ByteSize then .error .nameTooLong
    else .ok ⟨(part, .folder entries) :: spot.trail, Table.find part entries⟩

end Spot

structure Disk where
  root : Entry
  /-- The names that lead from the root to the current folder. -/
  current : List String

namespace Disk

/-- What every system has: the folders at its root, a file that is empty, and a current folder. -/
def bare : Disk :=
  let folders := ["bin", "dev", "etc", "home", "lib", "proc", "root", "tmp", "usr", "var"]
  let root := Entry.folder (folders.map fun name => (name, .folder []))
  let current := ["tmp", "work", "here"]
  ⟨(root.put ["dev", "null"] (.file "")).put current (.folder []), current⟩

/-- Paths that are never looked up. -/
def pathError? (path : String) : Option SystemError :=
  if path.isEmpty then some .notFound
  else if pathLimit < path.utf8ByteSize then some .nameTooLong
  else none

/-- The parts of a path from the root on. -/
def partsFromRoot (disk : Disk) (path : String) : List String :=
  if isAbsolute path then pathParts path else disk.current ++ pathParts path

def follow (disk : Disk) (parts : List String) : Except SystemError Spot :=
  parts.foldlM Spot.follow ⟨[], some disk.root⟩

def spot (disk : Disk) (path : String) : Except SystemError Spot :=
  match pathError? path with
  | some error => .error error
  | none => disk.follow (disk.partsFromRoot path)

/-- The folder in which the last part of a path is looked up, and that part. Where a path leads through is
checked, the part itself is not. It is empty if the path is that of the root. -/
def locate (disk : Disk) (path : String) : Except SystemError (Spot × String) := do
  if let some error := pathError? path then throw error
  let parts := (disk.partsFromRoot path).reverse.dropWhile (· = "")
  let folder ← disk.follow (parts.drop 1).reverse
  return (← folder.follow ".", parts.headD "")

def entry? (disk : Disk) (path : String) : Option Entry :=
  match disk.spot path with
  | .ok spot => spot.entry
  | .error _ => none

def read (disk : Disk) (path : String) : Except SystemError String := do
  match (← disk.spot path).entry with
  | some (.file text) => return text
  | some (.folder _) => throw .isFolder
  | none => throw .notFound

def put (disk : Disk) (folder : Spot) (name : String) (entry : Entry) : Disk :=
  { disk with root := disk.root.put (folder.names ++ [name]) entry }

def inside (folder : Spot) (name : String) : Option Entry :=
  folder.entry.bind fun entry => Table.find name entry.entries

/-- A path that ends with a slash or with dots can only belong to a folder. -/
def write (disk : Disk) (path text : String) : Except SystemError Disk := do
  let (folder, name) ← disk.locate path
  if path.toList.getLast? = some '/' ∨ name = "." ∨ name = ".." then throw .isFolder
  else if nameLimit < name.utf8ByteSize then throw .nameTooLong
  else if (inside folder name).any Entry.isFolder then throw .isFolder
  else return disk.put folder name (.file text)

def makeFolder (disk : Disk) (path : String) : Except SystemError Disk := do
  let (folder, name) ← disk.locate path
  if name = "" ∨ name = "." ∨ name = ".." ∨ (inside folder name).isSome then throw .alreadyExists
  else if nameLimit < name.utf8ByteSize then throw .nameTooLong
  else return disk.put folder name (.folder [])

def addFile (disk : Disk) (path text : String) : Disk :=
  { disk with root := disk.root.put (disk.current ++ pathSteps path) (.file text) }

def texts (disk : Disk) : List (String × String) := ((disk.entry? ".").map (Entry.texts "")).getD []

end Disk

/-- A disk and what was written to the standard output and the standard error. -/
structure World where
  disk : Disk
  output : String
  errors : String

def World.start (disk : Disk) : World := ⟨disk, "", ""⟩

def change (f : Disk → Except SystemError Disk) : StateM World (Except SystemError Unit) := do
  match f (← get).disk with
  | .ok disk =>
    modify fun world => { world with disk }
    return .ok ()
  | .error error => return .error error

instance : Host (StateM World) where
  read path := do return (← get).disk.read path
  write path text := change fun disk => disk.write path text
  makeFolder path := change fun disk => disk.makeFolder path
  isPresent path := do return ((← get).disk.entry? path).isSome
  isFolder path := do return ((← get).disk.entry? path).any Entry.isFolder
  names path := do
    let entries := (((← get).disk.entry? path).map Entry.entries).getD []
    return (entries.map (·.1)).mergeSort fun first second => decide (first ≤ second)
  print text := modify fun world => { world with output := world.output ++ text }
  complain text := modify fun world => { world with errors := world.errors ++ text }

end TypedTree.CommandLine
