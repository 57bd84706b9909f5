import TypedTree.CommandLine.Run

/-! The program on the files of the system. -/

namespace TypedTree.CommandLine

/-- The number of an error, which may come with a minus sign. -/
private def errorNumber (code : UInt32) : UInt32 := min code (-code)

private def systemErrorOf : IO.Error → SystemError
  | error@(.invalidArgument _ code _) =>
    if errorNumber code = 36 then .nameTooLong else .other (toString error)
  | .noFileOrDirectory .. => .notFound
  | .alreadyExists .. => .alreadyExists
  | .inappropriateType _ code _ => if errorNumber code = 21 then .isFolder else .notFolder
  | .permissionDenied .. => .other "Permission denied (os error 13)"
  | error => .other (toString error)

private def tryIO (action : IO α) : IO (Except SystemError α) := do
  return (← action.toBaseIO).mapError systemErrorOf

instance : Host IO where
  read path := tryIO (IO.FS.readFile path)
  write path text := tryIO (IO.FS.writeFile path text)
  makeFolder path := tryIO (IO.FS.createDir path)
  isPresent path := do
    if path.isEmpty then return false else ((← IO.currentDir) / path).pathExists
  isFolder path := do
    if path.isEmpty then return false else ((← IO.currentDir) / path).isDir
  names path := do
    let entries ← tryIO do ((← IO.currentDir) / path).readDir
    match entries with
    | .ok entries =>
      let names := entries.toList.map (·.fileName)
      return names.mergeSort fun first second => decide (first ≤ second)
    | .error _ => return []
  print text := IO.print text
  complain text := IO.eprint text

def usage : String := "expected generate or tokens, and --input with one file or more"

end TypedTree.CommandLine

def main (arguments : List String) : IO UInt32 := do
  let exitCode ← TypedTree.CommandLine.run (m := IO) arguments
  if exitCode = 2 then IO.eprintln ("error: " ++ TypedTree.CommandLine.usage)
  if TypedTree.CommandLine.Command.ofArguments arguments = some .help then IO.println TypedTree.CommandLine.usage
  return exitCode.toUInt32
