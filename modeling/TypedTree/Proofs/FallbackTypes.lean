import TypedTree.Generation
import TypedTree.Proofs.EmittedModels
import TypedTree.Proofs.ParallelBuilds
import TypedTree.Proofs.SlotAccessors
import TypedTree.Proofs.WellFormedGrammars

/-! Types to use instead of those that a grammar mentions but does not describe. To configure them is to mention them in
the first place, and without them no such mention is passed over. -/

namespace TypedTree

open ListEffects (AnyError Matches bind_eq_ok foldlM_invariant)

namespace TypeGraph

variable {graph after : TypeGraph} {described : String → Prop} {name : String} {id : TypeId}

theorem isSome_nodeTypeId? : (graph.nodeTypeId? name).isSome = true ↔
    ∃ id ∈ graph.ids, (graph.node id).identity = name ∧ (graph.node id).kind.isNodeType = true := by
  rw [nodeTypeId?, Array.findIdx?_isSome, Array.any_eq_true']
  simp [mem_nodes]

/-- Nodes of node types are found under these names and no others. -/
def Finds (described : String → Prop) (graph : TypeGraph) : Prop :=
  ∀ name, (graph.nodeTypeId? name).isSome = true ↔ described name

theorem Finds.congr (finds : graph.Finds described) (ids : after.ids = graph.ids)
    (alike : ∀ id, (after.node id).Alike (graph.node id)) : after.Finds described := by
  intro name
  rw [← finds, isSome_nodeTypeId?, isSome_nodeTypeId?, ids]
  simp only [(alike _).identity, (alike _).kind]

theorem Finds.modify {change : TypeNode → TypeNode} (finds : graph.Finds described)
    (alike : ∀ node, (change node).Alike node) : (graph.modify id change).Finds described :=
  finds.congr (ids_modify change) fun other => alike_modify alike other

theorem Finds.added {identity : String} {className : Java.ClassName} {kind : TypeKind} (finds : graph.Finds described)
    (slot : kind.isNodeType = false) (run : graph.addNode identity className kind = .ok (after, id)) :
    after.Finds described := by
  have added := (addNode_eq_ok run).2
  intro name
  rw [← finds, isSome_nodeTypeId?, isSome_nodeTypeId?]
  constructor
  · rintro ⟨other, inside, named, node⟩
    rcases (added.ids other).mp inside with old | rfl
    · exact ⟨other, old, added.old old ▸ named, added.old old ▸ node⟩
    · rw [added.here] at node
      cases slot.symm.trans node
  · rintro ⟨other, inside, node⟩
    exact ⟨other, (added.ids other).mpr (Or.inl inside), by rwa [added.old inside]⟩

/-- Names are looked up with one table of types to use instead as the names for them are with another. -/
def Redirects (described : String → Prop) (fallback others : Table String String) (instead : String → String) : Prop :=
  ∀ graph : TypeGraph, graph.Finds described → ∀ name, graph.resolve? others (instead name) = graph.resolve? fallback name

theorem resolve?_of_described (finds : graph.Finds described) (fallback : Table String String) (known : described name) :
    graph.resolve? fallback name = graph.nodeTypeId? name := by
  obtain ⟨id, found⟩ := Option.isSome_iff_exists.mp ((finds name).mpr known)
  rw [resolve?, found]
  rfl

theorem resolve?_of_undescribed (finds : graph.Finds described) (fallback : Table String String)
    (unknown : ¬ described name) : graph.resolve? fallback name = (fallback.get? name).bind graph.nodeTypeId? := by
  have absent : graph.nodeTypeId? name = none := by simpa using mt (finds name).mp unknown
  rw [resolve?, absent]
  rfl

variable {settings : Settings} {others : Table String String} {instead : String → String}
  {failing : Error → Error → Prop} [Std.Refl failing]

/-- A graph beside itself, in which node types are found under their names. -/
def Twins (described : String → Prop) (graph another : TypeGraph) : Prop := graph = another ∧ graph.Finds described

theorem parallel_twins (redirects : Redirects described settings.fallbackTypes others instead)
    (told : ∀ name referencedBy, failing (.unknownType name referencedBy) (.unknownType (instead name) referencedBy)) :
    Parallel settings { settings with fallbackTypes := others } instead failing (Twins described) where
  types := rfl
  ids := by rintro graph _ ⟨rfl, _⟩; rfl
  alike := by rintro graph _ ⟨rfl, _⟩ id; exact ⟨rfl, rfl, rfl⟩
  reserved := by rintro graph _ ⟨rfl, _⟩; rfl
  supertypes := by rintro graph _ ⟨rfl, _⟩ id; rfl
  lookup := by
    rintro graph _ ⟨rfl, finds⟩ name referencedBy
    rw [lookup, lookup, redirects graph finds]
    cases graph.resolve? settings.fallbackTypes name with
    | none => exact .error (told name referencedBy)
    | some id => exact .ok rfl
  addNode := by
    rintro graph _ ⟨rfl, finds⟩ identity name kind slot
    refine (Matches.refl failing _).remember.mono ?_
    rintro ⟨after, id⟩ _ ⟨rfl, run, _⟩
    exact ⟨⟨rfl, finds.added slot run⟩, rfl⟩
  reserve := by
    rintro graph _ ⟨rfl, finds⟩ parent name identity
    exact ⟨rfl, finds⟩
  addSubtype := by
    rintro graph _ ⟨rfl, finds⟩ above below
    exact ⟨rfl, finds.congr ids_addSubtype fun _ => alike_addSubtype _⟩
  addConstant := by
    rintro graph _ ⟨rfl, finds⟩ id name value
    exact ⟨rfl, finds.modify fun _ => ⟨rfl, rfl, rfl⟩⟩
  addMethod := by
    rintro graph _ ⟨rfl, finds⟩ id method
    exact ⟨rfl, finds.modify fun _ => ⟨rfl, rfl, rfl⟩⟩
  setRoot := by
    rintro graph _ ⟨rfl, finds⟩ id
    exact ⟨rfl, finds⟩

theorem tokensMatch_twins (parent field : String) (tokens : List String) :
    TokensMatch settings { settings with fallbackTypes := others } failing (Twins described) parent field tokens := by
  rintro graph _ id ⟨rfl, finds⟩ - -
  refine .foldlM (fun indexed _ state _ twins => ?_) ⟨rfl, finds⟩
  obtain ⟨rfl, finds⟩ := twins
  refine (Matches.refl failing _).remember.mono ?_
  rintro next _ ⟨rfl, run, _⟩
  obtain ⟨_, _, _, _, rfl⟩ := addSlotToken_eq_ok run
  exact ⟨rfl, finds.modify fun _ => ⟨rfl, rfl, rfl⟩⟩

/-- What is looked up is described, or else there is a described type to use instead. -/
def Mapped (described : String → Prop) (fallback : Table String String) (name : String) : Prop :=
  described name ∨ ∃ target, fallback.get? name = some target ∧ described target

theorem mapped_of_lookup {referencedBy : String} (finds : graph.Finds described)
    (found : graph.lookup settings name referencedBy = .ok id) : Mapped described settings.fallbackTypes name := by
  by_cases known : described name
  · exact Or.inl known
  · rw [lookup, resolve?_of_undescribed finds _ known] at found
    split at found
    next there =>
      obtain ⟨target, mapped, there⟩ := Option.bind_eq_some_iff.mp there
      exact Or.inr ⟨target, mapped, (finds target).mp (by rw [there]; rfl)⟩
    next => cases found

/-- Subtypes are linked only if all of them are mapped. -/
theorem mapped_of_addSubtypes {type : NodeType} (finds : graph.Finds described)
    (run : addSubtypes settings graph type = .ok after) :
    after.Finds described ∧ ∀ mention ∈ type.subtypes.getD [], mention.named = true →
      Mapped described settings.fallbackTypes mention.name := by
  obtain ⟨supertype, _, run⟩ := bind_eq_ok.mp run
  have all : after.Finds described ∧ ∀ mention ∈ (type.subtypes.getD []).filter (·.named),
      Mapped described settings.fallbackTypes mention.name := by
    refine foldlM_invariant (fun done state => state.Finds described ∧
      ∀ mention ∈ done, Mapped described settings.fallbackTypes mention.name) ⟨finds, List.forall_mem_nil _⟩ ?_ run
    intro done mention state next _ ⟨finds, mapped⟩ step
    obtain ⟨below, found, step⟩ := bind_eq_ok.mp step
    cases step
    refine ⟨finds.congr ids_addSubtype fun _ => alike_addSubtype _, ?_⟩
    exact List.forall_mem_append.mpr ⟨mapped, List.forall_mem_singleton.mpr (mapped_of_lookup finds found)⟩
  exact ⟨all.1, fun mention listed named => all.2 mention (List.mem_filter.mpr ⟨listed, named⟩)⟩

/-- The node types of a grammar are all found once they have been added. -/
theorem finds_of_nodeTypes {grammar : ValidGrammar} {regular named : TypeGraph}
    (regularRun : grammar.regular.foldlM (addNodeType settings .regular) empty = .ok regular)
    (namedRun : grammar.supertypes.foldlM (addNodeType settings .supertype) regular = .ok named) :
    named.Finds grammar.Describes := by
  obtain ⟨steps, complete⟩ := steps_of_nodeTypes regularRun namedRun
  exact fun name => nodeTypeId?_isSome (steps.formed formed_empty) complete

theorem mapped_of_standsFor {grammar : ValidGrammar} {fallback : Table String String} {target : String}
    (stands : grammar.StandsFor fallback name target) : Mapped grammar.Describes fallback name :=
  stands.imp And.left fun ⟨_, mapped, described⟩ => ⟨target, mapped, described⟩

/-- The node types in a slot are mapped if the slot is covered. -/
theorem Covers.mapped {grammar : ValidGrammar} {slot : Slot} (covers : Covers settings grammar graph slot id)
    {mention : TypeMention} (listed : mention ∈ slot.types) (named : mention.named = true) :
    Mapped grammar.Describes settings.fallbackTypes mention.name := by
  by_cases single : ∃ name, slot.types = [⟨name, true⟩]
  · obtain ⟨name, single⟩ := single
    rw [single, List.mem_singleton] at listed
    subst listed
    exact mapped_of_standsFor (covers.single name single).stands
  · obtain ⟨resolved, _⟩ := covers.several (not_exists.mp single) ⟨mention, listed, named⟩
    obtain ⟨lower, resolves⟩ := resolved mention.name (List.mem_map_of_mem (List.mem_filter.mpr ⟨listed, named⟩))
    exact mapped_of_standsFor resolves.stands

/-- What is built for a grammar leaves no mention of a type out. -/
theorem mapped_of_build {grammar : ValidGrammar} (run : build settings grammar = .ok graph) :
    (∀ type ∈ grammar.supertypes, ∀ mention ∈ type.subtypes.getD [], mention.named = true →
      Mapped grammar.Describes settings.fallbackTypes mention.name) ∧
    ∀ type ∈ grammar.regular, ∀ entry ∈ slots type, ∀ mention ∈ entry.2.types, mention.named = true →
      Mapped grammar.Describes settings.fallbackTypes mention.name := by
  obtain ⟨named, snapshot, filled, stages⟩ := exists_stages run
  obtain ⟨regular, regularRun, namedRun⟩ := stages.nodes
  constructor
  · have all : snapshot.Finds grammar.Describes ∧ ∀ type ∈ grammar.supertypes, ∀ mention ∈ type.subtypes.getD [],
        mention.named = true → Mapped grammar.Describes settings.fallbackTypes mention.name := by
      refine foldlM_invariant (fun done state => state.Finds grammar.Describes ∧ ∀ type ∈ done,
        ∀ mention ∈ type.subtypes.getD [], mention.named = true →
          Mapped grammar.Describes settings.fallbackTypes mention.name)
        ⟨finds_of_nodeTypes regularRun namedRun, List.forall_mem_nil _⟩ ?_ stages.edges
      intro done type state next _ ⟨finds, mapped⟩ step
      obtain ⟨finds, last⟩ := mapped_of_addSubtypes finds step
      exact ⟨finds, List.forall_mem_append.mpr ⟨mapped, List.forall_mem_singleton.mpr last⟩⟩
    exact all.2
  · intro type member entry listed mention inside isNamed
    obtain ⟨before, after, split⟩ := List.append_of_mem member
    have accessors := stages.accessors
    rw [split] at accessors
    obtain ⟨state, next, earlier, here, _⟩ := ListEffects.exists_of_foldlM_split accessors
    have growth := (growth_of_accessors stages.resolving earlier).1
    obtain ⟨_, _, getters, _, accessors, _⟩ := growth_addAccessors (stages.resolving.grow growth) here
    have covered : List.Forall₂ (fun entry _ => (∃ target, Covers settings grammar next entry.2 target) ∧ True)
        (slots type) getters := accessors.imp fun entry method accessor => by
      obtain ⟨target, _, covers, _⟩ := accessor.returns
      exact ⟨⟨target, covers⟩, trivial⟩
    obtain ⟨target, covers⟩ := ((List.forall₂_and_left _ _).mp covered).1 entry listed
    exact covers.mapped inside isNamed

/-- The same is built with other types to use instead, if mentions are redirected accordingly. -/
theorem matches_build {grammar : ValidGrammar}
    (redirects : Redirects grammar.Describes settings.fallbackTypes others instead)
    (known : ∀ name, grammar.Describes name → instead name = name)
    (root : ∀ root, grammar.root = some root → grammar.Describes root)
    (told : ∀ name referencedBy, failing (.unknownType name referencedBy) (.unknownType (instead name) referencedBy)) :
    Matches failing Eq (build settings grammar)
      (build { settings with fallbackTypes := others } (grammar.redirect instead)) := by
  have twins := (parallel_twins redirects told).build rfl rfl
    (fun regular named regularRun namedRun => ⟨rfl, finds_of_nodeTypes regularRun namedRun⟩) known
    (fun name present => known name (root name present)) fun _ _ _ _ => tokensMatch_twins _ _ _
  exact twins.mono fun _ _ both => both.1

end TypeGraph

/-- A type is mentioned among subtypes, in a field or among unnamed children. -/
inductive NodeType.Mentions (type : NodeType) (mention : TypeMention) : Prop
  | subtype {subtypes : List TypeMention} (present : type.subtypes = some subtypes) (listed : mention ∈ subtypes)
  | field {name : String} {slot : Slot} (present : (name, slot) ∈ type.fieldSlots) (listed : mention ∈ slot.types)
  | child {slot : Slot} (present : type.children = some slot) (listed : mention ∈ slot.types)

theorem NodeType.mentions_iff {type : NodeType} {mention : TypeMention} : type.Mentions mention ↔
    mention ∈ type.subtypes.getD [] ∨ ∃ entry ∈ TypeGraph.slots type, mention ∈ entry.2.types := by
  constructor
  · intro mentions
    cases mentions with
    | subtype present listed => exact Or.inl (by rwa [present])
    | @field name slot present listed =>
      exact Or.inr ⟨(.field name, slot), List.mem_append_right _ (List.mem_map_of_mem present), listed⟩
    | @child slot present listed =>
      refine Or.inr ⟨(.children, slot), List.mem_append_left _ ?_, listed⟩
      rw [present]
      exact List.mem_singleton_self _
  · rintro (listed | ⟨entry, member, listed⟩)
    · cases present : type.subtypes with
      | none => simp [present] at listed
      | some subtypes => exact .subtype present (by simpa [present] using listed)
    · rcases List.mem_append.mp member with unnamed | field
      · cases present : type.children with
        | none => simp [present] at unnamed
        | some slot =>
          rw [present, List.mem_singleton] at unnamed
          subst unnamed
          exact .child present listed
      · obtain ⟨⟨name, slot⟩, known, rfl⟩ := List.mem_map.mp field
        exact .field known listed

namespace Grammar

/-- The type to mention instead of one that is not described. -/
def instead (grammar : Grammar) (fallback : Table String String) (name : String) : String :=
  if name ∈ grammar.typeNames then name else (fallback.get? name).getD name

/-- The grammar with the types to use instead in the place of those that it mentions but does not describe. -/
def substitute (grammar : Grammar) (fallback : Table String String) : Grammar :=
  grammar.redirect (grammar.instead fallback)

end Grammar

open TypeGraph (Redirects Mapped)

variable {grammar : Grammar} {config : Config}

theorem redirects_substitute (grammar : Grammar) (fallback : Table String String) :
    Redirects (· ∈ grammar.typeNames) fallback .empty (grammar.instead fallback) := by
  intro graph finds name
  by_cases known : name ∈ grammar.typeNames
  · rw [Grammar.instead, if_pos known, TypeGraph.resolve?_of_described finds _ known,
      TypeGraph.resolve?_of_described finds _ known]
  · have absent : graph.nodeTypeId? name = none := by simpa using mt (finds name).mp known
    have direct (other : String) : graph.resolve? .empty other = graph.nodeTypeId? other := by
      rw [TypeGraph.resolve?, Option.orElse_eq_orElse, Option.orElse_eq_or]
      exact Option.or_none
    rw [Grammar.instead, if_neg known, direct, TypeGraph.resolve?_of_undescribed finds _ known]
    cases fallback.get? name with
    | none => exact absent
    | some target => rfl

/-- Entries for types that are described do not matter. -/
theorem redirects_id {fallback others : Table String String}
    (same : ∀ name, name ∉ grammar.typeNames → others.get? name = fallback.get? name) :
    Redirects (· ∈ grammar.typeNames) fallback others id := by
  intro graph finds name
  by_cases known : name ∈ grammar.typeNames
  · rw [id, TypeGraph.resolve?_of_described finds _ known, TypeGraph.resolve?_of_described finds _ known]
  · rw [id, TypeGraph.resolve?_of_undescribed finds _ known, TypeGraph.resolve?_of_undescribed finds _ known, same name known]

/-- The settings of a run differ in the types to use instead as the configurations do. -/
theorem Config.settings_withFallback (config : Config) (others : Table String String) (scheme : Naming.Scheme)
    (instead : String → String) (grammar : Grammar) :
    ({ config with fallbackTypes := others } : Config).settings scheme (grammar.redirect instead) =
      { config.settings scheme grammar with fallbackTypes := others } := by
  rw [Config.settings, Config.settings, Grammar.typeNames_redirect]

theorem matches_generate {others : Table String String} {instead : String → String} {failing : Error → Error → Prop}
    [Std.Refl failing] (redirects : Redirects (· ∈ grammar.typeNames) config.fallbackTypes others instead)
    (known : ∀ name ∈ grammar.typeNames, instead name = name)
    (told : ∀ name referencedBy, failing (.unknownType name referencedBy) (.unknownType (instead name) referencedBy)) :
    Matches failing Eq (generate grammar config)
      (generate (grammar.redirect instead) { config with fallbackTypes := others }) := by
  have graphs : Matches failing Eq (buildGraph grammar config)
      (buildGraph (grammar.redirect instead) { config with fallbackTypes := others }) := by
    rw [buildGraph, buildGraph, Grammar.tokenUses_redirect, Grammar.validate_redirect]
    simp only [Config.settings_withFallback]
    refine .bind_same config.scheme fun scheme => .bind_same _ fun _ => ?_
    cases validated : grammar.validate config.rootNode with
    | error error => exact .error (Std.Refl.refl _)
    | ok valid =>
      have described : valid.Describes = (· ∈ grammar.typeNames) :=
        funext fun name => propext (Grammar.describes_iff validated)
      rw [← described] at redirects
      have built : Matches failing Eq (TypeGraph.build (config.settings scheme grammar) valid)
          (TypeGraph.build { config.settings scheme grammar with fallbackTypes := others } (valid.redirect instead)) :=
        TypeGraph.matches_build redirects (fun name listed => known name ((Grammar.describes_iff validated).mp listed))
          (fun root => Grammar.describes_of_root validated) told
      refine built.bind ?_
      rintro graph _ rfl
      exact .refl failing _
  refine graphs.bind ?_
  rintro graph _ rfl
  exact .refl failing _

theorem mapped_of_generate {model : Model} (generated : generate grammar config = .ok model) {type : NodeType}
    (member : type ∈ grammar.namedNodes) {mention : TypeMention} (mentions : type.Mentions mention)
    (named : mention.named = true) : Mapped (· ∈ grammar.typeNames) config.fallbackTypes mention.name := by
  obtain ⟨graph, run, _⟩ := bind_eq_ok.mp generated
  obtain ⟨scheme, valid, plain, _, _, validated, built, _⟩ := exists_resolves_of_buildGraph run
  obtain ⟨inSubtypes, inSlots⟩ := TypeGraph.mapped_of_build built
  have described : valid.Describes = (· ∈ grammar.typeNames) :=
    funext fun name => propext (Grammar.describes_iff validated)
  rw [← described]
  rcases NodeType.mentions_iff.mp mentions with listed | ⟨entry, slot, listed⟩
  · have super : type.isSupertype = true := by
      rw [NodeType.isSupertype, Option.isSome_iff_ne_none]
      intro none
      rw [none] at listed
      cases listed
    have member : type ∈ valid.supertypes :=
      (Grammar.parts_of_validate validated).super ▸ List.mem_filter.mpr ⟨member, super⟩
    exact inSubtypes type member mention listed named
  · exact inSlots type (Grammar.mem_regular_of_slot validated member slot) entry slot mention listed named

/-- To configure types to use instead of others is to mention them in the first place. A model is generated only if all
types that are mentioned are described or have such a type, and entries for types that are described do not matter. -/
theorem generate_fallbackTypes (grammar : Grammar) (config : Config) :
    (∀ model, generate grammar config = .ok model ↔
      generate (grammar.substitute config.fallbackTypes) { config with fallbackTypes := .empty } = .ok model) ∧
    (∀ model, generate grammar config = .ok model → ∀ type ∈ grammar.namedNodes, ∀ mention, type.Mentions mention →
      mention.named = true → mention.name ∈ grammar.typeNames ∨
        ∃ target, config.fallbackTypes.get? mention.name = some target ∧ target ∈ grammar.typeNames) ∧
    ∀ others, (∀ name, name ∉ grammar.typeNames → others.get? name = config.fallbackTypes.get? name) →
      generate grammar { config with fallbackTypes := others } = generate grammar config := by
  refine ⟨fun model => ?_, fun model generated type member mention mentions named => ?_, fun others same => ?_⟩
  · have both : Matches AnyError Eq (generate grammar config)
        (generate (grammar.substitute config.fallbackTypes) { config with fallbackTypes := .empty }) :=
      matches_generate (redirects_substitute grammar config.fallbackTypes) (fun name known => if_pos known)
        fun _ _ => trivial
    exact both.ok_iff
  · exact mapped_of_generate generated member mentions named
  · have both : Matches Eq Eq (generate grammar config)
        (generate (grammar.redirect id) { config with fallbackTypes := others }) :=
      matches_generate (redirects_id same) (fun _ _ => rfl) fun _ _ => rfl
    rw [Grammar.redirect_id] at both
    exact both.eq.symm

/-- Puppies and kittens are mentioned, but only dogs and cats are described. -/
def nursery : Grammar where
  nodeTypes := [
    { name := "animal", named := true, extra := false, root := false, fields := none, children := none
      subtypes := some [⟨"cat", true⟩, ⟨"puppy", true⟩] },
    { name := "cat", named := true, extra := false, root := false, fields := none, children := none, subtypes := none },
    { name := "dog", named := true, extra := false, root := false, fields := none, children := none, subtypes := none },
    { name := "basket", named := true, extra := false, root := false, subtypes := none
      children := some ⟨true, false, [⟨"puppy", true⟩]⟩
      fields := some (.ofList [("sleeper", ⟨false, true, [⟨"kitten", true⟩]⟩),
        ("toy", ⟨true, false, [⟨"~", false⟩, ⟨"kitten", true⟩]⟩)]) }]

/-- The entry for dogs leads nowhere, and it does not matter. -/
def nurseryConfig : Config :=
  { Config.default with fallbackTypes := .ofList [("puppy", "dog"), ("kitten", "cat"), ("dog", "wolf")] }

theorem generate_fallbackTypes_nursery :
    ∃ model, generate nursery nurseryConfig = .ok model ∧
      model.outline = (none, [("NodeBasket", []), ("NodeAnimal", ["NodeCat", "NodeDog"]), ("NodeDog", []),
        ("FieldToy", ["NodeCat", "FieldTokenToy"]), ("FieldTokenToy", []), ("NodeCat", [])]) ∧
      generate (nursery.substitute nurseryConfig.fallbackTypes) { nurseryConfig with fallbackTypes := .empty } = .ok model ∧
      ("puppy" ∈ nursery.typeNames ∨
        ∃ target, nurseryConfig.fallbackTypes.get? "puppy" = some target ∧ target ∈ nursery.typeNames) ∧
      generate nursery { nurseryConfig with fallbackTypes := .ofList [("kitten", "cat"), ("puppy", "dog")] } = .ok model := by
  have outline : (generate nursery nurseryConfig).toOption.map Model.outline = some
      (none, [("NodeBasket", []), ("NodeAnimal", ["NodeCat", "NodeDog"]), ("NodeDog", []),
        ("FieldToy", ["NodeCat", "FieldTokenToy"]), ("FieldTokenToy", []), ("NodeCat", [])]) := by
    decide +kernel
  obtain ⟨model, generated, told⟩ := ListEffects.exists_ok_of_map outline
  obtain ⟨substituted, mapped, undisturbed⟩ := generate_fallbackTypes nursery nurseryConfig
  refine ⟨model, generated, told, (substituted model).mp generated, ?_, ?_⟩
  · exact mapped model generated nursery.nodeTypes[0] (by decide) ⟨"puppy", true⟩ (.subtype rfl (by decide)) rfl
  · rw [undisturbed _ fun name unknown => ?_, generated]
    have dog : "dog" ≠ name := fun same => unknown (same ▸ by decide)
    simp only [nurseryConfig, Table.ofList, List.foldl_cons, List.foldl_nil, Table.get?_insert, Table.get?_empty, dog]
    grind

end TypedTree
