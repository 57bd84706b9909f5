import TypedTree.CommandLine.Arguments
import TypedTree.CommandLine.Glob
import TypedTree.Generation
import TypedTree.Grammar.Notation
import TypedTree.Json.Printer

/-!
The commands of the program. One grammar that cannot be used does not keep `generate` from the others.
-/

namespace TypedTree.CommandLine

inductive Failure where
  | configUnusable (path : String) (error : Error)
  | unreadable (path : String) (error : SystemError)
  | unparsable (path : String) (error : Error)
  | invalidPattern (error : GlobError)
  | nothingMatched (pattern : String)
  | grammarUnusable (path : String) (error : Error)
  | unresolved (path : String) (error : Error)
  | unwritable (path : String) (error : SystemError)
  | system (error : SystemError)
  | grammarsFailed (count total : Nat)
deriving DecidableEq, Repr

/-- The message of an error, followed by that of its cause if it has one. -/
def chainMessage (error : Error) : String :=
  match error with
  | .invalidPattern cause => error.message ++ ": " ++ cause.message
  | _ => error.message

def Failure.message : Failure → String
  | configUnusable path error => s!"failed to load config file ({path}): {chainMessage error}"
  | unreadable path error => s!"failed to read {path}: {error.message}"
  | unparsable path error => s!"failed to parse {path}: {chainMessage error}"
  | invalidPattern error => error.message
  | nothingMatched pattern => s!"glob pattern matched no files: {pattern}"
  | grammarUnusable path error => s!"failed to load grammar ({path}): {chainMessage error}"
  | unresolved path error => s!"failed to resolve grammar ({path}): {chainMessage error}"
  | unwritable path error => s!"failed to write {path}: {error.message}"
  | system error => error.message
  | grammarsFailed count total => s!"{count} of {total} grammars failed"

variable {m : Type → Type} [Monad m] [Host m]

def load (path : String) (ofText : String → Except Error α) : m (Except Error α) := do
  match ← Host.read path with
  | .error error => return .error (.system error.message)
  | .ok text => return ofText text

/-- Turns the failure of a step into that of the command. -/
def attempt (step : m (Except ε α)) (failure : ε → Failure) : ExceptT Failure m α := do
  match ← step with
  | .ok value => return value
  | .error error => throw (failure error)

def loadOption (path : String) (decoder : Json.Decoder α) : ExceptT Failure m α := do
  let text ← attempt (Host.read path) (.unreadable path)
  match Json.decodeText decoder text with
  | .ok value => return value
  | .error misfit => throw (.unparsable path (.misfit misfit))

/-- The configuration with what the file of an option holds, if there is such an option. -/
def replaceFrom (path : Option String) (decoder : Json.Decoder α) (replace : α → Config) (config : Config) :
    ExceptT Failure m Config :=
  match path with
  | some path => return replace (← loadOption path decoder)
  | none => return config

/-- The configuration of the file, or else the default. -/
def ConfigOptions.loadFile (options : ConfigOptions) : ExceptT Failure m Config :=
  match options.config with
  | some path => attempt (CommandLine.load path Config.ofText) (.configUnusable path)
  | none => return .default

/-- The configuration of the file, with the entries that options replace. -/
def ConfigOptions.load (options : ConfigOptions) : ExceptT Failure m Config := do
  let config ← options.loadFile
  let config := { config with
    package := options.package.getD config.package
    typeNamePattern := options.typeNamePattern <|> config.typeNamePattern }
  let config ← replaceFrom options.tokenNames TokenTable.decoder
    (fun table => { config with tokenNames := some table }) config
  let config ← replaceFrom options.fallbackTypes (.table .string)
    (fun table => { config with fallbackTypes := table }) config
  let config ← replaceFrom options.customMethods CustomMethods.decoder
    (fun methods => { config with customMethods := methods }) config
  return { config with
    rootNode := options.rootNode <|> config.rootNode
    nullable := options.nullable <|> config.nullable }

def expandInput (input : String) : ExceptT Failure m (List String) := do
  if Glob.isPattern input then
    let paths ← attempt (Glob.expand input) .invalidPattern
    if paths.isEmpty then throw (.nothingMatched input) else return paths
  else return [input]

def expandInputs (inputs : List String) : ExceptT Failure m (List String) := do
  return (← inputs.mapM expandInput).flatten

def generateFile (config : Config) (path : String) : m (Except Failure String) := do
  match ← load path Grammar.ofText with
  | .error error => return .error (.grammarUnusable path error)
  | .ok grammar =>
    match generate grammar config with
    | .error error => return .error (.unresolved path error)
    | .ok model => return .ok model.toJson.indented

def writeFile (path text : String) : ExceptT Failure m Unit := do
  attempt (makeFolders (foldersAround path)) .system
  attempt (Host.write path text) (.unwritable path)

/-- The name of the file for what is made of an input. -/
def outputName (path : String) : String := (fileStem? path).getD "node-types" ++ ".types.json"

def outputPath (folder path : String) : String := joinPath folder (outputName path)

/-- Prints a model, or writes it to a file in a folder. -/
def writeOutput (out : Option String) (path text : String) : ExceptT Failure m Unit := do
  match out with
  | none => Host.print (m := m) (text ++ "\n")
  | some folder =>
    let file := outputPath folder path
    writeFile file text
    Host.complain (m := m) ("✓ " ++ file ++ "\n")

/-- Writes the models that there are, and reports the others. Returns how many those are. -/
def writeResults (out : Option String) : List (String × Except Failure String) → ExceptT Failure m Nat
  | [] => return 0
  | (path, .ok text) :: rest => do
    writeOutput out path text
    writeResults out rest
  | (_, .error failure) :: rest => do
    Host.complain (m := m) ("✗ " ++ failure.message ++ "\n")
    return (← writeResults out rest) + 1

/-- All grammars are read before the first model is written. -/
def runGenerate (options : GenerateOptions) : ExceptT Failure m Unit := do
  let config ← options.config.load
  let paths ← expandInputs options.inputs
  let results ← paths.mapM fun path => do
    let result ← liftM (generateFile config path : m (Except Failure String))
    return (path, result)
  let failed ← writeResults options.out results
  if failed ≠ 0 then throw (.grammarsFailed failed paths.length)

def tokenTableJson (table : Naming.TokenTable) : Json :=
  .object <| table.entries.map fun (parent, fields) =>
    (parent, .object <| fields.entries.map fun (field, tokens) =>
      (field, .object <| tokens.entries.map fun (token, name) => (token, .string name)))

/-- One table for the tokens of all grammars. -/
def runTokens (inputs : List String) (out : Option String) : ExceptT Failure m Unit := do
  let paths ← expandInputs inputs
  let table ← paths.foldlM (fun table path => do
    let grammar ← attempt (load path Grammar.ofText) (.grammarUnusable path)
    return Naming.mergeTables table (Naming.skeleton grammar)) .empty
  let text := (tokenTableJson table).indented
  match out with
  | some path => writeFile path text
  | none => Host.print (m := m) (text ++ "\n")

def Command.run (command : Command) : ExceptT Failure m Unit :=
  match command with
  | .generate options =>
    if options.noOp then Host.complain (m := m) (options.shown ++ "\n") else runGenerate options
  | .tokens inputs out => runTokens inputs out
  | .help => return ()

/-- Runs the program. Returns its exit code: 2 for arguments that it does not understand. -/
def run (arguments : List String) : m Nat := do
  match Command.ofArguments arguments with
  | none => return 2
  | some command =>
    match ← (command.run : ExceptT Failure m Unit).run with
    | .ok () => return 0
    | .error failure =>
      Host.complain ("error: " ++ failure.message ++ "\n")
      return 1

end TypedTree.CommandLine
