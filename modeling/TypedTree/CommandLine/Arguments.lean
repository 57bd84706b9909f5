import TypedTree.Text.Quoted

/-!
The arguments of the program: a command and its options. Options may be given in any order; all of them
take one value, except for inputs, which take any number, and a switch, which takes none. Help may be asked for
instead.
-/

namespace TypedTree.CommandLine

inductive Flag where
  | input
  | config
  | package
  | typeNamePattern
  | tokenNames
  | fallbackTypes
  | customMethods
  | rootNode
  | nullable
  | out
  | noOp
deriving DecidableEq, Repr

namespace Flag

def longName : Flag → String
  | input => "input"
  | config => "config"
  | package => "package"
  | typeNamePattern => "type-name-pattern"
  | tokenNames => "token-names"
  | fallbackTypes => "fallback-node-types"
  | customMethods => "custom-methods"
  | rootNode => "root-node"
  | nullable => "nullable-annotation"
  | out => "out"
  | noOp => "no-op"

def shortName? : Flag → Option Char
  | input => some 'i'
  | out => some 'o'
  | _ => none

def isSwitch : Flag → Bool
  | noOp => true
  | _ => false

/-- Whether the option may be repeated and takes several values at once. -/
def isMany : Flag → Bool
  | input => true
  | _ => false

/-- Whether the value is a path, which may not be empty. -/
def isPath : Flag → Bool
  | config => true
  | tokenNames => true
  | fallbackTypes => true
  | customMethods => true
  | out => true
  | _ => false

def ofGenerate : List Flag :=
  [input, config, package, typeNamePattern, tokenNames, fallbackTypes, customMethods, rootNode, nullable,
    out, noOp]

def ofTokens : List Flag := [input, out]

end Flag

structure Occurrence where
  flag : Flag
  values : List String
deriving DecidableEq, Repr

/-- An argument by its form. A value may be attached to the name of an option. -/
inductive Word where
  | long (name : List Char) (value : Option (List Char))
  | short (name : Char) (value : Option (List Char))
  /-- Two hyphens, behind which no options are expected. -/
  | separator
  | plain (text : String)
deriving DecidableEq, Repr

def Word.ofArgument (argument : String) : Word :=
  match argument.toList with
  | '-' :: '-' :: [] => .separator
  | '-' :: '-' :: name =>
    match name.dropWhile (· ≠ '=') with
    | [] => .long name none
    | _ :: value => .long (name.takeWhile (· ≠ '=')) (some value)
  | '-' :: name :: [] => .short name none
  | '-' :: name :: '=' :: value => .short name (some value)
  | '-' :: name :: value => .short name (some value)
  | _ => .plain argument

def Word.flag? (flags : List Flag) : Word → Option Flag
  | long name _ => flags.find? (·.longName.toList = name)
  | short name _ => flags.find? (·.shortName? = some name)
  | _ => none

def Word.attached? : Word → Option (List Char)
  | long _ value => value
  | short _ value => value
  | _ => none

/-- Whether the argument asks for help. What is attached to the short form does not matter. -/
def Word.isHelp : Word → Bool
  | long name none => name = "help".toList
  | short name _ => name = 'h'
  | _ => false

private def addValue (value : String) : List Occurrence → List Occurrence
  | [] => []
  | [latest] => [{ latest with values := latest.values ++ [value] }]
  | occurrence :: rest => occurrence :: addValue value rest

/-- Assigns arguments to options. The latest option is `waiting` if it may take another value. -/
def collect (flags : List Flag) : Option Flag → List Occurrence → List String → Option (List Occurrence)
  | _, found, [] => some found
  | waiting, found, argument :: rest =>
    match Word.ofArgument argument with
    | .separator => if rest.isEmpty then some found else none
    | .plain value =>
      match waiting with
      | none => none
      | some flag => collect flags (if flag.isMany then waiting else none) (addValue value found) rest
    | word =>
      match word.flag? flags with
      | none => none
      | some flag =>
        match word.attached? with
        | some value =>
          if flag.isSwitch then none
          else collect flags none (found ++ [⟨flag, [String.ofList value]⟩]) rest
        | none =>
          collect flags (if flag.isSwitch then none else some flag) (found ++ [⟨flag, []⟩]) rest

/-- Whether the options have the values that they need, and no more. -/
def wellFormed (found : List Occurrence) : Bool :=
  found.all fun occurrence =>
    (occurrence.flag.isSwitch || !occurrence.values.isEmpty)
      && !(occurrence.flag.isPath && occurrence.values.contains "")
      && (occurrence.flag.isMany || (found.filter (·.flag = occurrence.flag)).length = 1)

structure ConfigOptions where
  config : Option String
  package : Option String
  typeNamePattern : Option String
  tokenNames : Option String
  fallbackTypes : Option String
  customMethods : Option String
  rootNode : Option String
  nullable : Option String
deriving DecidableEq, Repr

structure GenerateOptions where
  inputs : List String
  config : ConfigOptions
  out : Option String
  /-- Whether the program only tells how it understood its arguments. -/
  noOp : Bool
deriving DecidableEq, Repr

inductive Command where
  | generate (options : GenerateOptions)
  | tokens (inputs : List String) (out : Option String)
  /-- Asks how the program is used. What is told then is not modelled. -/
  | help
deriving DecidableEq, Repr

private def inputsOf (found : List Occurrence) : List String :=
  (found.filter (·.flag = .input)).flatMap (·.values)

private def valueOf (found : List Occurrence) (flag : Flag) : Option String :=
  (found.find? (·.flag = flag)).bind (·.values.head?)

def readOptions (flags : List Flag) (arguments : List String) : Option (List Occurrence) :=
  (collect flags none [] arguments).filter wellFormed

/-- The arguments before the first one that asks for help, if there is one. -/
def beforeHelp? : List String → Option (List String)
  | [] => none
  | argument :: rest =>
    match Word.ofArgument argument with
    | .separator => none
    | word => if word.isHelp then some [] else (beforeHelp? rest).map (argument :: ·)

/-- What the options of a command come to. Help is given as soon as it is asked for, if all is well until then, and even
if there are no inputs. -/
def readCommand (flags : List Flag) (arguments : List String) (make : List Occurrence → Command) : Option Command :=
  match beforeHelp? arguments with
  | some before => (readOptions flags before).map fun _ => .help
  | none => ((readOptions flags arguments).filter (·.any (·.flag = .input))).map make

def GenerateOptions.ofFound (found : List Occurrence) : GenerateOptions :=
  let value := valueOf found
  let config : ConfigOptions :=
    ⟨value .config, value .package, value .typeNamePattern, value .tokenNames, value .fallbackTypes,
      value .customMethods, value .rootNode, value .nullable⟩
  ⟨inputsOf found, config, value .out, found.any (·.flag = .noOp)⟩

/-- Reads the arguments of the program; none if they are not used as they should be. -/
def Command.ofArguments : List String → Option Command
  | "generate" :: rest => readCommand Flag.ofGenerate rest fun found => .generate (.ofFound found)
  | "tokens" :: rest => readCommand Flag.ofTokens rest fun found => .tokens (inputsOf found) (valueOf found .out)
  | "help" :: rest => if rest ∈ [[], ["generate"], ["tokens"], ["help"]] then some .help else none
  | first :: _ => if (Word.ofArgument first).isHelp then some .help else none
  | [] => none

/-! The arguments as they were understood, with a part to a line. -/

inductive Shown where
  | text (text : String)
  | record (name : String) (fields : List (String × Shown))
  | wrapped (name : String) (item : Shown)
  | list (items : List Shown)

mutual

def Shown.lines (indent : String) : Shown → String
  | text shown => shown
  | record name fields => name ++ " \x7b\n" ++ Shown.fieldLines (indent ++ "    ") fields ++ indent ++ "\x7d"
  | wrapped name item =>
    name ++ "(\n" ++ indent ++ "    " ++ Shown.lines (indent ++ "    ") item ++ ",\n" ++ indent ++ ")"
  | list items => "[\n" ++ Shown.itemLines (indent ++ "    ") items ++ indent ++ "]"

def Shown.fieldLines (indent : String) : List (String × Shown) → String
  | [] => ""
  | (name, value) :: rest =>
    indent ++ name ++ ": " ++ Shown.lines indent value ++ ",\n" ++ Shown.fieldLines indent rest

def Shown.itemLines (indent : String) : List Shown → String
  | [] => ""
  | item :: rest => indent ++ Shown.lines indent item ++ ",\n" ++ Shown.itemLines indent rest

end

private def shownOption : Option String → Shown
  | some value => .wrapped "Some" (.text (Text.quoted value))
  | none => .text "None"

private def ConfigOptions.shown (options : ConfigOptions) : Shown :=
  .record "ConfigSettings" [
    ("config", shownOption options.config),
    ("package", shownOption options.package),
    ("type_name_pattern", shownOption options.typeNamePattern),
    ("token_names", shownOption options.tokenNames),
    ("fallback_node_types", shownOption options.fallbackTypes),
    ("custom_methods", shownOption options.customMethods),
    ("root_node", shownOption options.rootNode),
    ("nullable_annotation", shownOption options.nullable)]

def GenerateOptions.shown (options : GenerateOptions) : String :=
  let inputs := options.inputs.map fun input => Shown.text (Text.quoted input)
  (Shown.record "CommandLineInterface" [("cmd", .wrapped "Generate" (.record "GenerateOut" [
    ("input_settings", .record "InputSettings" [("input", .list inputs)]),
    ("config_settings", options.config.shown),
    ("out", shownOption options.out),
    ("no_op", .text (toString options.noOp))]))]).lines ""

end TypedTree.CommandLine
