import TypedTree.Generation
import TypedTree.Proofs.HoistedReturns
import TypedTree.Proofs.ReturnSafety

/-! Hoisting is safe: each subtype has one method for every method that was hoisted into an interface, and may
return what it returns there. This holds in the presence of cycles too. -/

namespace TypedTree

open Java (ClassName Ancestry)
open TypeGraph (Trusted Built)

namespace Hoisting

/-- One method returns something exactly if another one does, and what it returns is assignable. -/
structure Overrides (graph : TypeGraph) (own declared : Option ReturnType) : Prop where
  void : own = none ↔ declared = none
  assignable : ∀ lower upper, own = some lower → declared = some upper → graph.Assignable lower.type upper.type

variable {graph : TypeGraph} {kind : MethodKind} {returns : List (Option ReturnType)} {result : Option ReturnType}

theorem CommonReturn.overrides (common : CommonReturn returns result)
    (sound : ∀ type, some type ∈ returns → graph.Sound kind type) {own : Option ReturnType} (offered : own ∈ returns) :
    Overrides graph own result := by
  cases common with
  | void all =>
    rw [all own offered]
    exact ⟨Iff.rfl, fun _ _ none => nomatch none⟩
  | @typed types common all found =>
    rw [all] at offered
    obtain ⟨type, member, rfl⟩ := List.mem_map.mp offered
    refine ⟨by simp, fun lower upper same given => ?_⟩
    cases same
    cases given
    obtain ⟨kept, inside, equal⟩ := (distinctTypes_mem types).2 type member
    rw [← equal]
    refine TypeGraph.assignable_of_common? (fun candidate kept => sound candidate ?_) found inside
    rw [all]
    exact List.mem_map_of_mem ((distinctTypes_mem types).1 candidate kept)

def SoundMethod (world : TypeGraph) (method : Method) : Prop :=
  ∀ returns, method.returns = some returns → world.Sound method.kind returns

variable {world resolved : TypeGraph} {hoisted final : Hoisted} {interface : TypeId} {methods : List Method}

theorem closed_sound (world : TypeGraph) : Closed world.Sound := fun _ _ _ => TypeGraph.sound_of_common?

/-- An interface that is reached from below is among what is above. -/
theorem atOrAbove_of_interfaceBelow (mirrored : ∀ above below, graph.Below above below ↔ graph.Above below above)
    {above below : TypeId} (path : Relation.ReflTransGen graph.InterfaceBelow above below) :
    Relation.ReflTransGen graph.Above below above := by
  induction path with
  | refl => exact .refl
  | tail _ target ih =>
    exact .head ((mirrored _ _).mp (TypeGraph.mem_subInterfaces.mp target).1) ih

/-- When an interface has its turn, the subtypes that share a method which is hoisted then offer what they
offer in the end. Of a subtype in a cycle the interface would see its own methods only, and those are declared
above the interface. -/
theorem offeredBy_of_turn (mirrored : ∀ above below, graph.Below above below ↔ graph.Above below above)
    {upward before after : List TypeId} (order : graph.Upward upward) (split : upward = before ++ interface :: after)
    (outside : ∀ type, type ∉ graph.interfaces → final.get? type = none)
    (turn : Turn graph final before interface hoisted methods) {key : MethodKey} {returns : Option ReturnType}
    (hoistable : Hoistable graph (offeredBy graph hoisted) interface key returns) {subtype : TypeId}
    (member : subtype ∈ (graph.node interface).subtypes) :
    offeredBy graph hoisted subtype = offeredBy graph final subtype := by
  have known : hoisted.get? subtype = final.get? subtype := by
    rw [turn.known]
    split
    · rfl
    next absent =>
      by_cases isInterface : subtype ∈ graph.interfaces
      · have target : graph.InterfaceBelow interface subtype := TypeGraph.mem_subInterfaces.mpr ⟨member, isInterface⟩
        have path : Relation.ReflTransGen graph.InterfaceBelow subtype interface :=
          Classical.byContradiction fun apart => absent (order.behind before interface after split subtype target apart)
        have own := hoistable.shared subtype member
        rw [offeredBy, turn.known, if_neg absent, Option.getD_none, List.append_nil] at own
        exact absurd own (hoistable.fresh subtype (atOrAbove_of_interfaceBelow mirrored path))
      · exact (outside subtype isInterface).symm
  rw [offeredBy, offeredBy, known]

/-- In a valid graph every subtype of an interface overrides what was hoisted into the interface. -/
theorem overrides_of_resolves {passes : Method → Prop} (valid : graph.Valid passes)
    (sound : ∀ id, ∀ method ∈ (graph.node id).methods, SoundMethod world method)
    (resolves : Resolves graph resolved final) {method : Method} (inside : interface ∈ graph.interfaces)
    (member : method ∈ (resolved.node interface).commonMethods) {subtype : TypeId}
    (below : subtype ∈ (graph.node interface).subtypes) :
    ∃ own, (resolved.node subtype).allMethods.filter (·.key = method.key) = [own] ∧
      Overrides world own.returns method.returns := by
  obtain ⟨upward, order, outside, turns⟩ := upward_of_hoistAll resolves.hoists
  obtain ⟨before, after, split⟩ := List.append_of_mem ((order.complete interface).mpr inside)
  obtain ⟨table, methods, turn⟩ := turns before interface after split
  rw [resolves.commonMethods turn.kept] at member
  have hoists := hoists_of_commonMethods turn.run
  have hoistable := (hoists.exact method).mp member
  have offered : offeredBy graph table subtype = (resolved.node subtype).allMethods := by
    rw [offeredBy_of_turn valid.mirrored order split outside turn hoistable below, TypeNode.allMethods,
      TypeNode.commonMethods, resolves.node, valid.pending, Option.or_none]
    rfl
  have distinct := hoists.single (List.ne_nil_of_mem member) subtype below
  obtain ⟨own, here, same⟩ := List.mem_map.mp (hoistable.shared subtype below)
  have offeredSound : ∀ type, ∀ method ∈ offeredBy graph table type, SoundMethod world method := by
    refine returning_offeredBy sound fun type methods found => ?_
    rw [turn.known] at found
    split at found
    next => exact returning_of_hoistAll (closed_sound world) sound resolves.hoists type methods found
    next => cases found
  refine ⟨own, ?_, hoistable.common.overrides (fun type => passes_of_offered offeredSound) ?_⟩
  · rw [← offered, ← same]
    exact Distinct.filter_eq_singleton distinct here
  · exact mem_offeredReturns.mpr ⟨_, List.mem_map_of_mem below, own, here, same, rfl⟩

theorem Resolves.above (resolves : Resolves graph resolved final) {below above : TypeId} :
    resolved.Above below above ↔ graph.Above below above := by
  rw [TypeGraph.Above, TypeGraph.Above, resolves.node]

theorem Resolves.classAbove (resolves : Resolves graph resolved final) {below above : ClassName}
    (path : graph.ClassAbove below above) : resolved.ClassAbove below above := by
  have named : ∀ {name id}, graph.Named name id → resolved.Named name id := by
    intro name id ⟨inside, same, only⟩
    refine ⟨resolves.ids ▸ inside, by rw [resolves.node]; exact same, fun other member equal => ?_⟩
    rw [resolves.ids] at member
    rw [resolves.node] at equal
    exact only other member equal
  obtain ⟨lower, upper, lowerNamed, upperNamed, path⟩ := path
  exact ⟨lower, upper, named lowerNamed, named upperNamed,
    Relation.TransGen.mono (fun _ _ edge => resolves.above.mpr edge) _ _ path⟩

/-- Getters and custom methods of a built graph are sound. -/
theorem soundMethod_of_trusted {snapshot : TypeGraph} (built : Built snapshot graph)
    (resolves : Resolves graph resolved final) {method : Method} (trusted : Trusted snapshot.ancestry method) :
    SoundMethod resolved method := by
  intro returns given
  obtain ⟨source, raw⟩ := trusted returns given
  refine ⟨fun below above lists => ?_, fun free below above lists => ?_, raw⟩
  · rcases source with ⟨empty, _⟩ | ⟨known, _⟩
    · rw [empty] at lists
      exact absurd lists Ancestry.not_lists_empty
    · rw [known] at lists
      exact resolves.classAbove (TypeGraph.classAbove_of_lists built.start built.grows
        built.valid lists)
  · rcases source with ⟨empty, _⟩ | ⟨_, fixed⟩
    · rw [empty] at lists
      exact Ancestry.not_lists_empty lists
    · exact fixed free

end Hoisting

open Hoisting in
/-- In every graph that is built for a grammar, each subtype of an interface has exactly one method for every
method that was hoisted into the interface, and what it returns there may be returned for the hoisted one. -/
theorem buildGraph_overrides (grammar : Grammar) (config : Config) (graph : TypeGraph)
    (built : buildGraph grammar config = .ok graph) :
    ∀ interface ∈ graph.interfaces, ∀ method ∈ (graph.node interface).commonMethods,
      ∀ subtype ∈ (graph.node interface).subtypes,
        ∃ own, (graph.node subtype).allMethods.filter (·.key = method.key) = [own] ∧
          Overrides graph own.returns method.returns := by
  obtain ⟨scheme, _, built⟩ := ListEffects.bind_eq_ok.mp built
  obtain ⟨_, _, built⟩ := ListEffects.bind_eq_ok.mp built
  obtain ⟨valid, _, built⟩ := ListEffects.bind_eq_ok.mp built
  obtain ⟨plain, run, built⟩ := ListEffects.bind_eq_ok.mp built
  have distinct : TypeGraph.DistinctClasses (config.settings scheme grammar) :=
    fun _ _ _ first second => Naming.className_injective first second
  obtain ⟨snapshot, construction⟩ := TypeGraph.exists_built distinct run
  have validPlain := construction.valid
  have resolved : resolve plain = (graph, .ok ()) := by
    cases outcome : resolve plain with
    | mk final result =>
      rw [outcome] at built
      cases result with
      | ok => cases built; rfl
      | error error => cases built
  obtain ⟨final, resolves⟩ := exists_resolves resolved
  intro interface inside method member subtype below
  rw [TypeGraph.mem_interfaces, resolves.node] at inside
  rw [resolves.node] at below
  exact overrides_of_resolves validPlain
    (fun id own ownMember => soundMethod_of_trusted construction resolves (validPlain.methods id own ownMember))
    resolves (TypeGraph.mem_interfaces.mpr inside) member below

/-- A named node type with fields for any number of nodes. -/
def describe (name : String) (fields : List (String × List String)) (subtypes : Option (List String)) : NodeType where
  name := name
  named := true
  extra := false
  root := false
  fields := some <| .ofList <| fields.map fun (field, types) => (field, ⟨true, false, types.map (⟨·, true⟩)⟩)
  children := none
  subtypes := subtypes.map (·.map (⟨·, true⟩))

/-- Cats and dogs are pets, and pets and cows are animals. Each eats food of its own. -/
def farm : Grammar where
  nodeTypes := [describe "cat" [("food", ["fish"])] none, describe "dog" [("food", ["bone"])] none,
    describe "cow" [("food", ["grass"])] none, describe "fish" [] none, describe "bone" [] none,
    describe "grass" [] none, describe "food" [] (some ["fish", "bone", "grass"]),
    describe "pet" [] (some ["cat", "dog"]), describe "animal" [] (some ["pet", "cow"])]

def hoistedTexts (graph : TypeGraph) : List (List String) :=
  graph.interfaces.map fun interface => (graph.node interface).commonMethods.map (·.text)

open Hoisting in
theorem buildGraph_overrides_farm :
    ∃ graph, buildGraph farm .default = .ok graph ∧
      hoistedTexts graph =
        [["java.util.List<io.github.treesitter.jtreesitter.Node> getUnnamedChildren()"],
          ["java.util.List<? extends org.example.treesitter.NodeFood> getFieldFood()"],
          ["java.util.List<? extends org.example.treesitter.NodeFood> getFieldFood()"]] ∧
      ∀ interface ∈ graph.interfaces, ∀ method ∈ (graph.node interface).commonMethods,
        ∀ subtype ∈ (graph.node interface).subtypes,
          ∃ own, (graph.node subtype).allMethods.filter (·.key = method.key) = [own] ∧
            Overrides graph own.returns method.returns := by
  have texts : (buildGraph farm .default).toOption.map hoistedTexts = some
      [["java.util.List<io.github.treesitter.jtreesitter.Node> getUnnamedChildren()"],
        ["java.util.List<? extends org.example.treesitter.NodeFood> getFieldFood()"],
        ["java.util.List<? extends org.example.treesitter.NodeFood> getFieldFood()"]] := by
    decide +kernel
  cases built : buildGraph farm .default with
  | error error =>
    rw [built] at texts
    cases texts
  | ok graph =>
    rw [built] at texts
    exact ⟨graph, rfl, Option.some.inj texts, buildGraph_overrides farm .default graph built⟩

end TypedTree
