import TypedTree.CommonType
import TypedTree.Graph.Hierarchy

/-!
Hoisting: a method that all subtypes of an interface share is declared by the interface too. Interfaces
are treated from the bottom up, so that a method hoisted into one can be hoisted further.
-/

namespace TypedTree.Hoisting

/-- The methods of a type by their keys. None stands for a method that returns nothing. -/
abbrev Offers := Table MethodKey (Option ReturnType)

/-- The return types that subtypes offer for a method. Equal types occur once. -/
abbrev Candidates := Table MethodKey (List (Option ReturnType))

/-- The methods that were hoisted into interfaces so far. -/
abbrev Hoisted := Table TypeId (List Method)

/-- What a subtype offers. No two of its methods have the same key. -/
def offers (owner : String) (methods : List Method) : Except Error Offers :=
  methods.foldlM (fun (offers : Offers) method =>
    if offers.contains method.key then .error (.duplicateMethod owner method.text)
    else .ok (offers.insert method.key method.returns)) .empty

def typeOf (returns : Option ReturnType) : Option Java.JavaType := returns.map (·.type)

/-- Adds a return type unless an equal one is present. -/
def addReturn (present : List (Option ReturnType)) (returns : Option ReturnType) :
    List (Option ReturnType) :=
  if present.any (typeOf · = typeOf returns) then present else present ++ [returns]

/-- Every method of the first subtype is a candidate. -/
def firstCandidates (offers : Offers) : Candidates := offers.mapValues fun _ returns => [returns]

def keepKeys (keep : MethodKey → Bool) (candidates : Candidates) : Candidates where
  entries := candidates.entries.filter (keep ·.1)
  distinct := candidates.distinct.sublist (List.filter_sublist.map Prod.fst)

/-- Drops what a further subtype does not offer, and takes in its return types. -/
def narrow (candidates : Candidates) (offers : Offers) : Candidates :=
  (keepKeys offers.contains candidates).mapValues fun key present =>
    match offers.get? key with
    | some returns => addReturn present returns
    | none => present

/-- The candidates that a list of subtypes leaves. Once none is left, no more subtypes are looked at. -/
def candidatesFrom (graph : TypeGraph) (hoisted : Hoisted) (candidates : Option Candidates) :
    List TypeId → Except Error (Option Candidates)
  | [] => .ok candidates
  | subtype :: rest => do
    let node := graph.node subtype
    let offers ← offers node.identity (node.methods ++ (hoisted.get? subtype).getD [])
    let candidates := match candidates with
      | none => firstCandidates offers
      | some candidates => narrow candidates offers
    if candidates.isEmpty then return some candidates
    else candidatesFrom graph hoisted (some candidates) rest

/-- The return type of the hoisted method: none if there is no common one, and some none if all the
methods return nothing. -/
def commonReturn (returns : List (Option ReturnType)) : Option (Option ReturnType) :=
  match returns with
  | [none] => some none
  | returns => do
    let types ← returns.mapM id
    let common ← ReturnType.common? types
    return some common

def hoist (declared : List MethodKey) (candidate : MethodKey × List (Option ReturnType)) :
    Option Method :=
  if candidate.1 ∈ declared then none
  else (commonReturn candidate.2).map (⟨candidate.1.kind, candidate.1.signature, ·⟩)

/-- The keys of the methods of an interface and of all interfaces above it. -/
def declaredKeys (graph : TypeGraph) (interface : TypeId) : Except Error (List MethodKey) := do
  let ancestors ← graph.ancestors interface
  return (interface :: ancestors).flatMap fun id => (graph.node id).methods.map Method.key

def commonMethods (graph : TypeGraph) (hoisted : Hoisted) (interface : TypeId) :
    Except Error (List Method) := do
  let declared ← declaredKeys graph interface
  let candidates ← candidatesFrom graph hoisted none (graph.node interface).subtypes
  match candidates with
  | none => return []
  | some candidates => return candidates.entries.filterMap (hoist declared)

def hoistAll (graph : TypeGraph) : Except Error Hoisted := do
  let interfaces ← graph.interfacesUpward
  interfaces.foldlM (fun (hoisted : Hoisted) interface => do
    return hoisted.insert interface (← commonMethods graph hoisted interface)) .empty

/-- Records the hoisted methods. Interfaces before the first one that is resolved already are resolved
even so. -/
def record (graph : TypeGraph) : List (TypeId × List Method) → TypeGraph × Except Error Unit
  | [] => (graph, .ok ())
  | (interface, methods) :: rest =>
    match graph.setCommonMethods interface methods with
    | .ok graph => record graph rest
    | .error error => (graph, .error error)

/-- Resolves the common methods of all interfaces. The graph is the one that a failure leaves behind. -/
def resolve (graph : TypeGraph) : TypeGraph × Except Error Unit :=
  match hoistAll graph with
  | .ok hoisted => record graph hoisted.entries
  | .error error => (graph, .error error)

end TypedTree.Hoisting
