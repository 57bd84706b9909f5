import TypedTree.CustomMethod
import TypedTree.Naming.Scheme

/-! The configuration of a run. Everything in it has a default. -/

namespace TypedTree

open Json (Record Decoder)

structure Config where
  package : String
  typeNamePattern : Option String
  /-- Names for all tokens of the grammar; without them tokens are named after their text. -/
  tokenNames : Option Naming.TokenTable
  /-- Types to use instead of types that a grammar mentions but does not describe. -/
  fallbackTypes : Table String String
  /-- The root, for grammars that do not mark one. -/
  rootNode : Option String
  customMethods : CustomMethods
  /-- Marks getters of optional children. Without it they return an `Optional`. -/
  nullable : Option String
  /-- The class of tree nodes without a type of their own. -/
  nodeClass : String
deriving DecidableEq

def defaultPackage : String := "org.example.treesitter"

def defaultNodeClass : String := "io.github.treesitter.jtreesitter.Node"

def TokenTable.decoder : Decoder Naming.TokenTable := .table (.table (.table .string))

namespace Config

def default : Config :=
  ⟨defaultPackage, none, none, .empty, none, ⟨.empty⟩, none, defaultNodeClass⟩

instance : Inhabited Config := ⟨default⟩

def decoder : Decoder Config :=
  Record.decode "GenConfig" true <|
    Config.mk <$> .withDefault "package" defaultPackage .string
      <*> .optional "type-name-pattern" .string
      <*> .optional "token-names" TokenTable.decoder
      <*> .withDefault "fallback-node-types" .empty (.table .string)
      <*> .optional "root-node" .string
      <*> .withDefault "custom-methods" ⟨.empty⟩ CustomMethods.decoder
      <*> .optional "nullable-annotation" .string
      <*> .withDefault "node-class" defaultNodeClass .string

def ofJson (value : Json) : Except Error Config := (Json.decode decoder value).mapError .misfit

def ofText (text : String) : Except Error Config := (Json.decodeText decoder text).mapError .misfit

def scheme (config : Config) : Except Error Naming.Scheme :=
  let tokens : Naming.TokenNames :=
    match config.tokenNames with
    | some table => ⟨table, true⟩
    | none => .automatic
  match config.typeNamePattern with
  | some pattern => ((⟨tokens, none⟩ : Naming.Scheme).withPattern pattern).mapError .invalidPattern
  | none => .ok ⟨tokens, none⟩

end Config

end TypedTree
