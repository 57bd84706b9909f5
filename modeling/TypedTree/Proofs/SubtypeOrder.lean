import TypedTree.Proofs.EmittedModels
import TypedTree.Proofs.HoistingExact
import TypedTree.Proofs.HoistingSafety
import TypedTree.Proofs.ReorderedGrammars
import TypedTree.Proofs.ReturnKnowledge
import TypedTree.Proofs.SingleInheritance

/-! The order of subtypes does not matter where node types have one supertype each: the same methods are hoisted, and
they return the same types. -/

namespace TypedTree

open Java (JavaType Ancestry)
open TypeGraph (Similar TrustedReturn Trusted knownFor)

namespace Hoisting

/-- What a method is for, its signature, and the type that it returns. -/
def described (method : Method) : MethodKey × Option JavaType := (method.key, typeOf method.returns)

/-- Methods that are the same, in any order. -/
def SameMethods (methods others : List Method) : Prop :=
  ∀ description, description ∈ methods.map described ↔ description ∈ others.map described

theorem SameMethods.symm {methods others : List Method} (same : SameMethods methods others) :
    SameMethods others methods := fun description => (same description).symm

theorem mem_described {methods : List Method} {key : MethodKey} {type : Option JavaType} :
    (key, type) ∈ methods.map described ↔ ∃ method ∈ methods, method.key = key ∧ typeOf method.returns = type := by
  simp only [List.mem_map, described, Prod.mk.injEq]

theorem SameMethods.mem_keysOf {methods others : List Method} (same : SameMethods methods others) {key : MethodKey} :
    key ∈ keysOf methods ↔ key ∈ keysOf others := by
  have keys : ∀ methods, key ∈ keysOf methods ↔ ∃ type, (key, type) ∈ methods.map described := by
    intro methods
    simp only [keysOf, List.mem_map, described, Prod.mk.injEq]
    constructor
    · rintro ⟨method, member, rfl⟩
      exact ⟨_, method, member, rfl, rfl⟩
    · rintro ⟨_, method, member, rfl, _⟩
      exact ⟨method, member, rfl⟩
  rw [keys, keys]
  exact exists_congr fun type => same (key, type)

theorem mem_types_distinctTypes {types : List ReturnType} {type : JavaType} :
    type ∈ (distinctTypes types).map (·.type) ↔ type ∈ types.map (·.type) := by
  obtain ⟨given, found⟩ := distinctTypes_mem types
  simp only [List.mem_map]
  constructor
  · rintro ⟨kept, member, rfl⟩
    exact ⟨kept, given kept member, rfl⟩
  · rintro ⟨one, member, rfl⟩
    exact found one member

variable {known : Ancestry} {kind : MethodKind}

theorem chained_knownFor (chained : known.Chained) (kind : MethodKind) : (knownFor known kind).Chained := by
  rw [knownFor]
  split
  · exact ⟨fun _ => List.nodup_nil, fun _ => List.not_mem_nil, fun _ position => position.elim0⟩
  · exact chained

/-- Trusted return types have the same common type if they are the same types. -/
theorem commonType?_of_same (chained : known.Chained) {types others : List ReturnType} (present : types ≠ [])
    (trusted : ∀ type ∈ types, TrustedReturn known kind type)
    (otherTrusted : ∀ type ∈ others, TrustedReturn known kind type)
    (same : ∀ type, type ∈ types.map (·.type) ↔ type ∈ others.map (·.type)) :
    ReturnType.commonType? types = ReturnType.commonType? others := by
  rw [TypeGraph.commonType?_of_trusted trusted, TypeGraph.commonType?_of_trusted otherTrusted]
  exact ReturnType.commonType?_of_members (chained_knownFor chained kind) (by simpa using present) same

theorem CommonReturn.of_same (chained : known.Chained) {returns others : List (Option ReturnType)}
    {result : Option ReturnType} (trusted : ∀ type, some type ∈ returns → TrustedReturn known kind type)
    (otherTrusted : ∀ type, some type ∈ others → TrustedReturn known kind type)
    (same : ∀ type, type ∈ returns.map typeOf ↔ type ∈ others.map typeOf) (common : CommonReturn returns result) :
    ∃ other, CommonReturn others other ∧ typeOf other = typeOf result := by
  cases common with
  | void all =>
    refine ⟨none, .void fun offered member => ?_, rfl⟩
    obtain ⟨one, inside, equal⟩ := List.mem_map.mp ((same _).mpr (List.mem_map_of_mem member))
    rw [all one inside] at equal
    exact Option.map_eq_none_iff.mp equal.symm
  | @typed types common all found =>
    subst all
    obtain ⟨type, commonType, rfl⟩ := Option.map_eq_some_iff.mp found
    have typed : none ∉ others := by
      intro untyped
      obtain ⟨_, inside, none⟩ := List.mem_map.mp ((same none).mpr (List.mem_map_of_mem untyped))
      obtain ⟨_, _, rfl⟩ := List.mem_map.mp inside
      cases none
    obtain ⟨otherTypes, rfl⟩ := exists_types typed
    have told : ∀ types : List ReturnType, (types.map some).map typeOf = (types.map (·.type)).map some := by
      intro types
      rw [List.map_map, List.map_map]
      rfl
    have present : distinctTypes types ≠ [] := by
      intro none
      rw [none] at commonType
      cases commonType
    have kept : ∀ {types : List ReturnType}, (∀ type, some type ∈ types.map some → TrustedReturn known kind type) →
        ∀ type ∈ distinctTypes types, TrustedReturn known kind type :=
      fun trusted type member => trusted type (List.mem_map_of_mem ((distinctTypes_mem _).1 type member))
    have equal : ReturnType.commonType? (distinctTypes types) = ReturnType.commonType? (distinctTypes otherTypes) := by
      refine commonType?_of_same chained present (kept trusted) (kept otherTrusted) fun type => ?_
      have both := same (some type)
      rw [told, told, List.mem_map_of_injective fun _ _ => Option.some.inj,
        List.mem_map_of_injective fun _ _ => Option.some.inj] at both
      rwa [mem_types_distinctTypes, mem_types_distinctTypes]
    exact ⟨_, .typed rfl (Option.map_eq_some_iff.mpr ⟨type, equal ▸ commonType, rfl⟩), rfl⟩

variable {graph other : TypeGraph} {interface : TypeId} {offered others : TypeId → List Method} {key : MethodKey}

theorem mem_types_offered {subtypes : List TypeId} {type : Option JavaType} :
    type ∈ (offeredReturns (subtypes.map offered) key).map typeOf ↔
      ∃ subtype ∈ subtypes, (key, type) ∈ (offered subtype).map described := by
  simp only [List.mem_map, mem_offeredReturns, described, Prod.mk.injEq]
  constructor
  · rintro ⟨_, ⟨_, ⟨subtype, row, rfl⟩, method, member, same, rfl⟩, told⟩
    exact ⟨subtype, row, method, member, same, told⟩
  · rintro ⟨subtype, row, method, member, same, told⟩
    exact ⟨_, ⟨_, ⟨subtype, row, rfl⟩, method, member, same, rfl⟩, told⟩

/-- What is hoisted depends on which methods the subtypes offer, in whichever order. -/
theorem Hoistable.of_similar (similar : Similar graph other) (chained : known.Chained)
    (trusted : ∀ subtype, ∀ method ∈ offered subtype, Trusted known method)
    (otherTrusted : ∀ subtype, ∀ method ∈ others subtype, Trusted known method)
    (same : ∀ subtype, graph.Below interface subtype → SameMethods (offered subtype) (others subtype))
    {returns : Option ReturnType} (hoistable : Hoistable graph offered interface key returns) :
    ∃ otherReturns, Hoistable other others interface key otherReturns ∧ typeOf otherReturns = typeOf returns := by
  have types : ∀ type, type ∈ (offeredReturns ((graph.node interface).subtypes.map offered) key).map typeOf ↔
      type ∈ (offeredReturns ((other.node interface).subtypes.map others) key).map typeOf := by
    intro type
    rw [mem_types_offered, mem_types_offered]
    refine exists_congr fun subtype => ?_
    have listed : subtype ∈ (graph.node interface).subtypes ↔ subtype ∈ (other.node interface).subtypes :=
      similar.below interface subtype
    rw [← listed]
    exact and_congr_right fun below => same subtype below (key, type)
  obtain ⟨otherReturns, common, told⟩ := hoistable.common.of_same chained
    (fun _ inside => passes_of_offered trusted inside) (fun _ inside => passes_of_offered otherTrusted inside) types
  refine ⟨otherReturns, ⟨?_, ?_, ?_, common⟩, told⟩
  · obtain ⟨subtype, member⟩ := List.exists_mem_of_ne_nil _ hoistable.present
    exact List.ne_nil_of_mem ((similar.below interface subtype).mp member)
  · intro subtype member
    have below := (similar.below interface subtype).mpr member
    exact (same subtype below).mem_keysOf.mp (hoistable.shared subtype below)
  · intro type path
    rw [← similar.above] at path
    rw [← similar.methods]
    exact hoistable.fresh type path

variable {final otherFinal : Hoisted}

theorem interfaces_of_similar (similar : Similar graph other) : graph.interfaces = other.interfaces := by
  simp only [TypeGraph.interfaces, similar.ids, similar.kind]

theorem interfaceBelow_of_similar (similar : Similar graph other) : graph.InterfaceBelow = other.InterfaceBelow := by
  funext above below
  rw [TypeGraph.InterfaceBelow, TypeGraph.InterfaceBelow, TypeGraph.mem_subInterfaces, TypeGraph.mem_subInterfaces,
    interfaces_of_similar similar]
  exact propext (and_congr_left fun _ => similar.below above below)

theorem Acyclic.of_similar (similar : Similar graph other) (acyclic : Acyclic graph) : Acyclic other := by
  rw [Acyclic, ← interfaces_of_similar similar, ← interfaceBelow_of_similar similar]
  exact acyclic

/-- The methods of trusted types, and those that are hoisted into them. -/
theorem trusted_offeredBy (own : ∀ id, ∀ method ∈ (graph.node id).methods, Trusted known method)
    (run : hoistAll graph = .ok final) : ∀ type, ∀ method ∈ offeredBy graph final type, Trusted known method :=
  returning_offeredBy own (returning_of_hoistAll (fun _ _ _ => TypeGraph.trusted_of_common?) own run)

theorem sameMethods_offeredBy (similar : Similar graph other) {type : TypeId}
    (same : SameMethods ((final.get? type).getD []) ((otherFinal.get? type).getD [])) :
    SameMethods (offeredBy graph final type) (offeredBy other otherFinal type) := by
  intro description
  rw [offeredBy, offeredBy, similar.methods, List.map_append, List.map_append, List.mem_append, List.mem_append,
    same description]

/-- What is hoisted into one interface, given that the same is hoisted below it. -/
theorem sameMethods_of_hoists (similar : Similar graph other) (chained : known.Chained)
    (trusted : ∀ subtype, ∀ method ∈ offered subtype, Trusted known method)
    (otherTrusted : ∀ subtype, ∀ method ∈ others subtype, Trusted known method)
    (same : ∀ subtype, graph.Below interface subtype → SameMethods (offered subtype) (others subtype))
    {methods otherMethods : List Method} (hoists : Hoists graph offered interface methods)
    (otherHoists : Hoists other others interface otherMethods) : SameMethods methods otherMethods := by
  rintro ⟨key, type⟩
  rw [mem_described, mem_described]
  constructor
  · rintro ⟨method, member, rfl, rfl⟩
    obtain ⟨returns, hoistable, told⟩ :=
      ((hoists.exact method).mp member).of_similar similar chained trusted otherTrusted same
    exact ⟨⟨method.kind, method.signature, returns⟩, (otherHoists.exact _).mpr hoistable, rfl, told⟩
  · rintro ⟨method, member, rfl, rfl⟩
    obtain ⟨returns, hoistable, told⟩ := ((otherHoists.exact method).mp member).of_similar similar.symm chained
      otherTrusted trusted fun subtype below => (same subtype ((similar.below interface subtype).mpr below)).symm
    exact ⟨⟨method.kind, method.signature, returns⟩, (hoists.exact _).mpr hoistable, rfl, told⟩

/-- The same methods are hoisted into all interfaces, from the bottom up. -/
theorem sameMethods_of_hoistAll (similar : Similar graph other) (chained : known.Chained) (acyclic : Acyclic graph)
    (own : ∀ id, ∀ method ∈ (graph.node id).methods, Trusted known method)
    (run : hoistAll graph = .ok final) (otherRun : hoistAll other = .ok otherFinal) :
    ∀ interface, SameMethods ((final.get? interface).getD []) ((otherFinal.get? interface).getD []) := by
  obtain ⟨_, _, outside, _⟩ := upward_of_hoistAll run
  obtain ⟨_, _, otherOutside, _⟩ := upward_of_hoistAll otherRun
  have otherOwn : ∀ id, ∀ method ∈ (other.node id).methods, Trusted known method :=
    fun id => similar.methods id ▸ own id
  have outsideSame : ∀ type, type ∉ graph.interfaces →
      SameMethods ((final.get? type).getD []) ((otherFinal.get? type).getD []) := by
    intro type absent description
    rw [outside type absent, otherOutside type (interfaces_of_similar similar ▸ absent)]
  have hoisted : ∀ interface ∈ graph.interfaces,
      SameMethods ((final.get? interface).getD []) ((otherFinal.get? interface).getD []) := by
    refine acyclic.induction fun interface inside below => ?_
    obtain ⟨methods, kept, here⟩ := commonMethods_final acyclic run inside
    obtain ⟨otherMethods, otherKept, otherHere⟩ :=
      commonMethods_final (acyclic.of_similar similar) otherRun (interfaces_of_similar similar ▸ inside)
    rw [kept, otherKept]
    refine sameMethods_of_hoists similar chained (trusted_offeredBy own run) (trusted_offeredBy otherOwn otherRun)
      (fun subtype edge => sameMethods_offeredBy similar ?_) (hoists_of_commonMethods here)
      (hoists_of_commonMethods otherHere)
    by_cases isInterface : subtype ∈ graph.interfaces
    · exact below subtype (TypeGraph.mem_subInterfaces.mpr ⟨edge, isInterface⟩)
    · exact outsideSame subtype isInterface
  intro interface
  by_cases inside : interface ∈ graph.interfaces
  · exact hoisted interface inside
  · exact outsideSame interface inside

theorem acyclic_of_build {settings : Settings} {grammar : ValidGrammar} (distinct : TypeGraph.DistinctClasses settings)
    (acyclic : grammar.Acyclic settings.fallbackTypes) (run : TypeGraph.build settings grammar = .ok graph) :
    Acyclic graph := by
  obtain ⟨snapshot, construction⟩ := TypeGraph.exists_built distinct run
  have valid := construction.valid
  have layered := (TypeGraph.steps_of_build run).reached.layered
  intro interface _ cycle
  obtain ⟨next, target, path⟩ := Relation.TransGen.head'_iff.mp cycle
  have edge := (valid.mirrored interface next).mp (TypeGraph.mem_subInterfaces.mp target).1
  exact TypeGraph.acyclic_above layered valid acyclic interface
    (.tail' (atOrAbove_of_interfaceBelow valid.mirrored path) edge)

theorem Resolves.interfaces {resolved : TypeGraph} (resolves : Resolves graph resolved final) :
    resolved.interfaces = graph.interfaces := by
  simp only [TypeGraph.interfaces, resolves.ids, resolves.node]

/-- Graphs with the same interfaces, into which the same methods are hoisted. -/
structure SameInterfaces (graph other : TypeGraph) : Prop where
  interfaces : graph.interfaces = other.interfaces
  identity : ∀ interface ∈ graph.interfaces, (graph.node interface).identity = (other.node interface).identity
  name : ∀ interface ∈ graph.interfaces, (graph.node interface).name = (other.node interface).name
  common : ∀ interface ∈ graph.interfaces,
    SameMethods (graph.node interface).commonMethods (other.node interface).commonMethods

end Hoisting

/-- Grammars that differ in the order of subtypes have the same methods hoisted into each interface, if no node type has
several supertypes and none is below itself. -/
theorem buildGraph_reordered (grammar other : Grammar) (config : Config) (valid : ValidGrammar)
    (graph otherGraph : TypeGraph) (reordered : grammar.Reordered other)
    (validated : grammar.validate config.rootNode = .ok valid) (single : valid.SingleInheritance config.fallbackTypes)
    (acyclic : valid.Acyclic config.fallbackTypes) (run : buildGraph grammar config = .ok graph)
    (otherRun : buildGraph other config = .ok otherGraph) : Hoisting.SameInterfaces graph otherGraph := by
  obtain ⟨scheme, _, plain, final, named, validatedAgain, built, resolves, _⟩ := exists_resolves_of_buildGraph run
  cases validated.symm.trans validatedAgain
  obtain ⟨_, otherValid, otherPlain, otherFinal, otherNamed, otherValidated, otherBuilt, otherResolves, _⟩ :=
    exists_resolves_of_buildGraph otherRun
  cases named.symm.trans otherNamed
  have settings : config.settings scheme other = config.settings scheme grammar := by
    rw [Config.settings, Config.settings, reordered.typeNames]
  rw [settings] at otherBuilt
  have distinct := TypeGraph.distinctClasses_settings config scheme grammar
  obtain ⟨_, snapshot, _, stages⟩ := TypeGraph.exists_stages built
  obtain ⟨_, otherSnapshot, _, otherStages⟩ := TypeGraph.exists_stages otherBuilt
  have similar := (TypeGraph.similar_of_stages (reordered.valid validated otherValidated) stages otherStages).2
  have construction := stages.built distinct
  have sound := construction.valid
  have same := Hoisting.sameMethods_of_hoistAll similar (stages.chained distinct single acyclic)
    (Hoisting.acyclic_of_build distinct acyclic built) sound.methods resolves.hoists otherResolves.hoists
  refine ⟨?_, fun interface _ => ?_, fun interface _ => ?_, fun interface _ => ?_⟩
  · rw [resolves.interfaces, otherResolves.interfaces, Hoisting.interfaces_of_similar similar]
  · rw [resolves.node, otherResolves.node]
    exact similar.field TypeNode.identity (fun _ => rfl) interface
  · rw [resolves.node, otherResolves.node]
    exact similar.name interface
  · have otherPending : (otherPlain.node interface).common = none := by
      rw [← similar.field TypeNode.common (fun _ => rfl), sound.pending]
    rw [TypeNode.commonMethods, TypeNode.commonMethods, resolves.node, otherResolves.node, sound.pending, otherPending,
      Option.or_none, Option.or_none]
    exact same interface

/-- Cats and dogs are pets, which have food and toys of their own. The subtypes may be listed either way around. -/
def shelter (turn : List String → List String) : Grammar where
  nodeTypes := [describe "cat" [("food", ["fish"]), ("toy", ["ball"])] none,
    describe "dog" [("toy", ["stick"]), ("food", ["bone"])] none, describe "fish" [] none, describe "bone" [] none,
    describe "ball" [] none, describe "stick" [] none, describe "food" [] (some (turn ["fish", "bone"])),
    describe "toy" [] (some (turn ["ball", "stick"])), describe "pet" [] (some (turn ["cat", "dog"]))]

def validShelter : ValidGrammar where
  regular := (shelter id).nodeTypes.take 6
  supertypes := (shelter id).nodeTypes.drop 6
  root := none

/-- The methods of pets come in the order of the first kind of pets, but they are the same. -/
theorem buildGraph_reordered_shelter :
    (shelter id).Reordered (shelter List.reverse) ∧ (shelter id).validate none = .ok validShelter ∧
    validShelter.SingleInheritance Config.default.fallbackTypes ∧ validShelter.Acyclic Config.default.fallbackTypes ∧
    ∃ graph otherGraph, buildGraph (shelter id) .default = .ok graph ∧
      buildGraph (shelter List.reverse) .default = .ok otherGraph ∧
      (hoistedTexts graph)[2]? = some ["java.util.List<? extends org.example.treesitter.NodeFood> getFieldFood()",
        "java.util.List<? extends org.example.treesitter.NodeToy> getFieldToy()"] ∧
      (hoistedTexts otherGraph)[2]? = some ["java.util.List<? extends org.example.treesitter.NodeToy> getFieldToy()",
        "java.util.List<? extends org.example.treesitter.NodeFood> getFieldFood()"] ∧
      Hoisting.SameInterfaces graph otherGraph := by
  have reordered : (shelter id).Reordered (shelter List.reverse) := by
    have turned : ∀ name one other,
        (describe name [] (some [one, other])).Reordered (describe name [] (some [other, one])) :=
      fun name one other => .supertype rfl (.swap _ _ [])
    exact .cons (.regular rfl) <| .cons (.regular rfl) <| .cons (.regular rfl) <| .cons (.regular rfl) <|
      .cons (.regular rfl) <| .cons (.regular rfl) <| .cons (turned ..) <| .cons (turned ..) <| .cons (turned ..) .nil
  have validated : (shelter id).validate none = .ok validShelter := rfl
  have single := validShelter.singleInheritance_of_mentions Config.default.fallbackTypes (by decide) (by decide)
  have acyclic : validShelter.Acyclic Config.default.fallbackTypes :=
    ValidGrammar.acyclic_of_ranks _ ["cat", "dog", "fish", "bone", "ball", "stick", "food", "toy", "pet"].idxOf
      (by decide) (by decide)
  have texts : (buildGraph (shelter id) .default).toOption.map (fun graph => (hoistedTexts graph)[2]?) =
      some (some ["java.util.List<? extends org.example.treesitter.NodeFood> getFieldFood()",
        "java.util.List<? extends org.example.treesitter.NodeToy> getFieldToy()"]) := by
    decide +kernel
  have otherTexts : (buildGraph (shelter List.reverse) .default).toOption.map (fun graph => (hoistedTexts graph)[2]?) =
      some (some ["java.util.List<? extends org.example.treesitter.NodeToy> getFieldToy()",
        "java.util.List<? extends org.example.treesitter.NodeFood> getFieldFood()"]) := by
    decide +kernel
  obtain ⟨graph, built, told⟩ := ListEffects.exists_ok_of_map texts
  obtain ⟨otherGraph, otherBuilt, otherTold⟩ := ListEffects.exists_ok_of_map otherTexts
  exact ⟨reordered, validated, single, acyclic, graph, otherGraph, built, otherBuilt, told, otherTold,
    buildGraph_reordered _ _ .default validShelter graph otherGraph reordered validated single acyclic built otherBuilt⟩

end TypedTree
