import TypedTree.Config
import TypedTree.Graph.Build
import TypedTree.Graph.Hoisting
import TypedTree.Model

/-! One run: from a grammar and a configuration to the model of its types. -/

namespace TypedTree

open Java (ClassName)

def Config.settings (config : Config) (scheme : Naming.Scheme) (grammar : Grammar) : Settings where
  names := .forTypes scheme grammar.typeNames
  package := config.package
  fallbackTypes := config.fallbackTypes
  customMethods := config.customMethods
  nullable := config.nullable.map ClassName.ofQualified
  nonEmpty := .topLevel config.package "NonEmpty"
  nodeClass := .ofQualified config.nodeClass

/-- The graph of the types of a grammar, with all common methods resolved. -/
def buildGraph (grammar : Grammar) (config : Config) : Except Error TypeGraph := do
  let scheme ← config.scheme
  scheme.tokens.validate grammar.tokenUses
  let valid ← grammar.validate config.rootNode
  let graph ← TypeGraph.build (config.settings scheme grammar) valid
  match Hoisting.resolve graph with
  | (graph, .ok ()) => return graph
  | (_, .error error) => .error error

def generate (grammar : Grammar) (config : Config) : Except Error Model := do
  (← buildGraph grammar config).model

end TypedTree
