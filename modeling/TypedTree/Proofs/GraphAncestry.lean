import TypedTree.Proofs.BuildRuns
import TypedTree.Proofs.CommonTypeReversal
import TypedTree.Proofs.HoistingSafety
import TypedTree.Proofs.KnownSupertypes

/-! What is known of supertypes in a graph that was built for a grammar without cycles: supertypes come before their own
supertypes. Supertypes that are not related may come in one order for one class and in the other order for another one,
and this is what common types depend on. -/

namespace TypedTree

open Java (ClassName)
open Naming (Scheme Names)
open ListEffects (exists_ok_of_map)

/-- No node type is listed below itself. -/
def ValidGrammar.Acyclic (grammar : ValidGrammar) (fallback : Table String String) : Prop :=
  ∀ type, ¬ Relation.TransGen (grammar.Lists fallback) type type

/-- Ranks that grow from subtypes to supertypes rule out cycles. -/
theorem ValidGrammar.acyclic_of_ranks {grammar : ValidGrammar} (fallback : Table String String) (rank : String → Nat)
    (described : ∀ type ∈ grammar.supertypes, ∀ mention ∈ type.subtypes.getD [],
      mention.name ∈ grammar.names .regular ++ grammar.names .supertype)
    (grow : ∀ type ∈ grammar.supertypes, ∀ mention ∈ type.subtypes.getD [], rank mention.name < rank type.name) :
    grammar.Acyclic fallback := by
  have less : ∀ {below above}, Relation.TransGen (grammar.Lists fallback) below above → rank below < rank above := by
    have step : ∀ {below above}, grammar.Lists fallback below above → rank below < rank above := by
      rintro below above ⟨type, member, rfl, mention, listed, _, ⟨_, rfl⟩ | ⟨absent, _⟩⟩
      · exact grow type member mention listed
      · exact absurd (List.mem_append.mp (described type member mention listed)) absent
    intro below above path
    induction path with
    | single edge => exact step edge
    | tail _ edge ih => exact Nat.lt_trans ih (step edge)
  exact fun type cycle => Nat.lt_irrefl _ (less cycle)

namespace TypeGraph

variable {settings : Settings} {grammar : ValidGrammar} {graph : TypeGraph} {passes : Method → Prop}

/-- A type with something below it and something above it is neither a class nor the interface of a slot. -/
theorem kind_of_between (layered : Layered settings grammar graph) (valid : graph.Valid passes)
    {lower middle upper : TypeId} (edge : graph.Above lower middle) (onward : graph.Above middle upper) :
    (graph.node middle).kind = .supertype := by
  have interface := layered.upper middle lower ((valid.mirrored middle lower).mpr edge)
  have slot := layered.lower middle upper onward
  cases kind : (graph.node middle).kind with
  | regular =>
    rw [kind] at interface
    cases interface
  | supertype => rfl
  | childTypes => exact absurd kind slot
  | tokens =>
    rw [kind] at interface
    cases interface

/-- What is above a type that is itself below others was listed by the grammar. -/
private theorem listed_of_path (layered : Layered settings grammar graph) (valid : graph.Valid passes)
    {lower upper : TypeId} (path : Relation.TransGen graph.Above lower upper) {top : TypeId}
    (onward : graph.Above upper top) : Relation.TransGen (grammar.Lists settings.fallbackTypes)
      (graph.node lower).identity (graph.node upper).identity := by
  have listed : ∀ {below above next}, graph.Above below above → graph.Above above next →
      grammar.Lists settings.fallbackTypes (graph.node below).identity (graph.node above).identity := by
    intro below above next edge onward
    exact layered.listed below above edge (kind_of_between layered valid edge onward)
  induction path generalizing top with
  | single edge => exact .single (listed edge onward)
  | tail _ edge ih => exact (ih edge).tail (listed edge onward)

theorem acyclic_above (layered : Layered settings grammar graph) (valid : graph.Valid passes)
    (acyclic : grammar.Acyclic settings.fallbackTypes) (id : TypeId) : ¬ Relation.TransGen graph.Above id id := by
  intro cycle
  obtain ⟨next, edge, _⟩ := Relation.TransGen.head'_iff.mp cycle
  exact acyclic _ (listed_of_path layered valid cycle edge)

theorem acyclic_listedAbove (layered : Layered settings grammar graph) (valid : graph.Valid passes)
    (acyclic : grammar.Acyclic settings.fallbackTypes) (name : ClassName) :
    ¬ Relation.TransGen graph.ListedAbove name name := by
  intro cycle
  obtain ⟨lower, upper, inside, named, upperInside, upperNamed, path⟩ := valid.exists_path cycle
  cases valid.named lower inside upper upperInside (named.trans upperNamed.symm)
  exact acyclic_above layered valid acyclic lower path

theorem ordered_ancestry (acyclic : ∀ name, ¬ Relation.TransGen graph.ListedAbove name name) :
    graph.ancestry.Ordered := by
  refine ⟨fun name => (graph.told_ancestry name).distinct, fun name above => ?_, fun name middle top lower upper => ?_⟩
  · exact acyclic name (((graph.told_ancestry name).complete name).mp above)
  · have path := ((graph.told_ancestry middle).complete top).mp upper
    refine (graph.told_ancestry name).settled.sublist_of_path (fun name _ cycle => acyclic name ?_) lower ?_
    · exact Relation.TransGen.mono (fun _ _ => mem_directSupertypes.mp) _ _ cycle
    · exact Relation.TransGen.mono (fun _ _ => mem_directSupertypes.mpr) _ _ path

theorem ordered_of_build {scheme : Scheme} {types : List String} (names : settings.names = Names.forTypes scheme types)
    (built : build settings grammar = .ok graph) (acyclic : grammar.Acyclic settings.fallbackTypes) :
    graph.ancestry.Ordered := by
  obtain ⟨snapshot, construction⟩ := exists_built (distinctClasses_of_names names) built
  have layered := (steps_of_build built).reached.layered
  exact ordered_ancestry (acyclic_listedAbove layered construction.valid acyclic)

end TypeGraph

open ReturnType (typeOfGetters?)

/-- Turning the getters around keeps their common type unless the first and the last class tell their supertypes in
orders that differ on which common class comes first. -/
theorem typeOfGetters?_reverse (settings : Settings) (grammar : ValidGrammar) (graph : TypeGraph) (scheme : Scheme)
    (types : List String) (names : settings.names = Names.forTypes scheme types)
    (built : TypeGraph.build settings grammar = .ok graph) (acyclic : grammar.Acyclic settings.fallbackTypes)
    (getters : List GetterType) : ReturnType.Reversal graph.ancestry getters :=
  ReturnType.reversal_of_ordered (TypeGraph.ordered_of_build names built acyclic) getters

/-- Cats are pets and hunters, and so are strays. Dogs and foxes are strays. -/
def kennel : Grammar where
  nodeTypes := [describe "cat" [] none, describe "dog" [] none, describe "fox" [] none,
    describe "pet" [] (some ["cat", "stray"]), describe "hunter" [] (some ["cat", "stray"]),
    describe "stray" [] (some ["dog", "fox"])]

def validKennel : ValidGrammar where
  regular := [describe "cat" [] none, describe "dog" [] none, describe "fox" [] none]
  supertypes := [describe "pet" [] (some ["cat", "stray"]), describe "hunter" [] (some ["cat", "stray"]),
    describe "stray" [] (some ["dog", "fox"])]
  root := none

def kennelSettings : Settings := Config.default.settings .automatic kennel

def kennelClass (name : String) : ClassName := .topLevel defaultPackage name

theorem acyclic_kennel : validKennel.Acyclic kennelSettings.fallbackTypes :=
  ValidGrammar.acyclic_of_ranks _ ["cat", "dog", "fox", "stray", "pet", "hunter"].idxOf (by decide) (by decide)

/-- Lists of dogs and of foxes are led by strays in both orders. -/
theorem typeOfGetters?_reverse_kennel :
    validKennel.Acyclic kennelSettings.fallbackTypes ∧
    ∃ graph, TypeGraph.build kennelSettings validKennel = .ok graph ∧
      let getters := [GetterType.list (kennelClass "NodeDog"), .list (kennelClass "NodeFox")]
      typeOfGetters? graph.ancestry getters = some (.parameterized [] (javaUtil "List")
        [.wildcardExtends [] (.ofClass (kennelClass "NodeStray"))]) ∧
      ReturnType.Reversal graph.ancestry getters := by
  have common : (TypeGraph.build kennelSettings validKennel).toOption.map (fun graph =>
      typeOfGetters? graph.ancestry [.list (kennelClass "NodeDog"), .list (kennelClass "NodeFox")]) =
        some (some (.parameterized [] (javaUtil "List")
          [.wildcardExtends [] (.ofClass (kennelClass "NodeStray"))])) := by
    decide +kernel
  obtain ⟨graph, built, told⟩ := exists_ok_of_map common
  exact ⟨acyclic_kennel, graph, built, told,
    typeOfGetters?_reverse kennelSettings validKennel graph _ _ rfl built acyclic_kennel _⟩

/-- Cats are pets before they are hunters, and dogs, which are strays, are hunters before they are pets. -/
theorem disputed_kennel :
    kennel.validate none = .ok validKennel ∧ validKennel.Acyclic kennelSettings.fallbackTypes ∧
    ∃ graph, TypeGraph.build kennelSettings validKennel = .ok graph ∧
      typeOfGetters? graph.ancestry [.plain (kennelClass "NodeCat"), .plain (kennelClass "NodeDog")] =
        some (.ofClass (kennelClass "NodePet")) ∧
      typeOfGetters? graph.ancestry [.plain (kennelClass "NodeDog"), .plain (kennelClass "NodeCat")] =
        some (.ofClass (kennelClass "NodeHunter")) := by
  have common : (TypeGraph.build kennelSettings validKennel).toOption.map (fun graph =>
      (typeOfGetters? graph.ancestry [.plain (kennelClass "NodeCat"), .plain (kennelClass "NodeDog")],
        typeOfGetters? graph.ancestry [.plain (kennelClass "NodeDog"), .plain (kennelClass "NodeCat")])) =
        some (some (.ofClass (kennelClass "NodePet")), some (.ofClass (kennelClass "NodeHunter"))) := by
    decide +kernel
  obtain ⟨graph, built, told⟩ := exists_ok_of_map common
  obtain ⟨forward, backward⟩ := Prod.mk.inj told
  exact ⟨rfl, acyclic_kennel, graph, built, forward, backward⟩

end TypedTree
