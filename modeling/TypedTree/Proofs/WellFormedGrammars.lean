import TypedTree.Generation
import TypedTree.Proofs.BuildRuns
import TypedTree.Proofs.ValidGrammars

/-! Validation accepts just the well-formed grammars. The root that it leaves is always found when types are built. -/

namespace TypedTree

open ListEffects (bind_eq_ok)

namespace TypeGraph

variable {settings : Settings} {grammar : ValidGrammar} {graph : TypeGraph} {root : String}

/-- The root is looked up when all else is built. -/
theorem build_rooted (settings : Settings) (grammar : ValidGrammar) (root : String) :
    build settings { grammar with root := some root } = (do
      let graph ← build settings { grammar with root := none }
      return graph.setRoot (← graph.lookup settings root "root node")) := by
  simp only [build, bind_assoc, pure_bind]
  rfl

theorem exists_root (described : grammar.Describes root)
    (run : build settings { grammar with root := none } = .ok graph) :
    ∃ id, graph.lookup settings root "root node" = .ok id ∧ (graph.node id).identity = root := by
  have formed := (steps_of_build run).formed formed_empty
  have complete := complete_of_build run
  obtain ⟨id, found⟩ := Option.isSome_iff_exists.mp ((nodeTypeId?_isSome formed complete).mpr described)
  refine ⟨id, ?_, (nodeTypeId?_eq_some.mp found).2.1.1⟩
  rw [lookup, resolve?, found]
  rfl

end TypeGraph

namespace Grammar

variable {grammar : Grammar} {requested : Option String} {valid : ValidGrammar}

theorem describes_iff {name : String} (validated : grammar.validate requested = .ok valid) :
    valid.Describes name ↔ name ∈ grammar.typeNames := by
  obtain ⟨_, rfl⟩ := validate_eq_ok.mp validated
  simp only [ValidGrammar.Describes, ValidGrammar.names, typeNames, List.mem_map, List.mem_filter, ← exists_or]
  refine exists_congr fun type => ?_
  cases type.isSupertype <;> simp

/-- Node types with slots are regular. -/
theorem mem_regular_of_slot {type : NodeType} {entry : Place × Slot} (validated : grammar.validate requested = .ok valid)
    (member : type ∈ grammar.namedNodes) (listed : entry ∈ TypeGraph.slots type) : type ∈ valid.regular := by
  have parts := parts_of_validate validated
  rw [parts.plain, List.mem_filter]
  refine ⟨member, ?_⟩
  cases super : type.isSupertype with
  | false => rfl
  | true =>
    have bare := parts.bare type (parts.super ▸ List.mem_filter.mpr ⟨member, super⟩)
    simp [TypeGraph.slots, bare.children, bare.fields] at listed

/-- The root is the name of a node type, be it requested or marked. -/
theorem describes_of_root {root : String} (validated : grammar.validate requested = .ok valid)
    (present : valid.root = some root) : valid.Describes root := by
  obtain ⟨formed, same⟩ := validate_eq_ok.mp validated
  rw [describes_iff validated]
  rw [same] at present
  rcases Option.or_eq_some_iff.mp present with given | ⟨_, marked⟩
  · exact formed.present root given
  · obtain ⟨type, found, rfl⟩ := Option.map_eq_some_iff.mp marked
    exact List.mem_map_of_mem (List.mem_of_find?_eq_some found)

/-- Validation accepts the well-formed grammars and no others. It splits their named node types in their order, and takes
the requested root, or else the marked one. What is built for them never lacks its root. -/
theorem validate_exact (grammar : Grammar) (requested : Option String) :
    ((∃ valid, grammar.validate requested = .ok valid) ↔ WellFormed grammar requested) ∧
    ∀ valid, grammar.validate requested = .ok valid →
      valid.regular = grammar.namedNodes.filter (·.subtypes.isNone) ∧
      valid.supertypes = grammar.namedNodes.filter (·.subtypes.isSome) ∧
      valid.root = requested.or ((grammar.namedNodes.find? (·.root)).map (·.name)) ∧
      ∀ root, valid.root = some root → ∀ settings graph,
        TypeGraph.build settings { valid with root := none } = .ok graph →
          ∃ id, (graph.node id).identity = root ∧ TypeGraph.build settings valid = .ok (graph.setRoot id) := by
  refine ⟨?_, fun valid validated => ?_⟩
  · simp only [validate_eq_ok, exists_and_left, exists_eq, and_true]
  · obtain ⟨_, same⟩ := validate_eq_ok.mp validated
    refine ⟨?_, congrArg ValidGrammar.supertypes same, congrArg ValidGrammar.root same, ?_⟩
    · rw [same]
      simp only [NodeType.isSupertype, Option.not_isSome]
    · intro root present settings graph run
      obtain ⟨id, found, identity⟩ := TypeGraph.exists_root (describes_of_root validated present) run
      have rooted : valid = { valid with root := some root } := by rw [← present]
      refine ⟨id, identity, ?_⟩
      rw [rooted, TypeGraph.build_rooted, run]
      exact bind_eq_ok.mpr ⟨graph, rfl, bind_eq_ok.mpr ⟨id, found, rfl⟩⟩

/-- Cats and dogs are pets, and a dog is at the root. The comma is a token, which may have an empty list of fields. -/
def rootedPets : Grammar where
  nodeTypes := [
    { name := "pet", named := true, extra := false, root := false, fields := none, children := none
      subtypes := some [⟨"cat", true⟩, ⟨"dog", true⟩] },
    { name := ",", named := false, extra := false, root := false, fields := some .empty, children := none
      subtypes := none },
    { name := "dog", named := true, extra := false, root := true, fields := none, children := none, subtypes := none },
    { name := "cat", named := true, extra := false, root := false, fields := none, children := none, subtypes := none }]

theorem validate_exact_rootedPets :
    WellFormed rootedPets none ∧ ¬ WellFormed rootedPets (some "cat") ∧
      ∃ valid graph id, rootedPets.validate none = .ok valid ∧ valid.root = some "dog" ∧
        TypeGraph.build (Config.default.settings .automatic rootedPets) { valid with root := none } = .ok graph ∧
        (graph.node id).identity = "dog" ∧
        TypeGraph.build (Config.default.settings .automatic rootedPets) valid = .ok (graph.setRoot id) := by
  have refused : ∃ error, rootedPets.validate (some "cat") = .error error := ⟨_, rfl⟩
  have told : (rootedPets.validate none >>= fun valid =>
      TypeGraph.build (Config.default.settings .automatic rootedPets) { valid with root := none }).toOption.map
        (fun graph => graph.size) = some 3 := by
    decide +kernel
  obtain ⟨graph, run, _⟩ := ListEffects.exists_ok_of_map told
  obtain ⟨valid, validated, built⟩ := bind_eq_ok.mp run
  obtain ⟨accepts, finds⟩ := validate_exact rootedPets none
  obtain ⟨_, _, root, rooted⟩ := finds valid validated
  have present : valid.root = some "dog" := root
  obtain ⟨id, identity, whole⟩ := rooted "dog" present _ graph built
  refine ⟨accepts.mp ⟨valid, validated⟩, fun formed => ?_, valid, graph, id, validated, present, built, identity, whole⟩
  obtain ⟨error, failed⟩ := refused
  obtain ⟨valid, accepted⟩ := (validate_exact rootedPets (some "cat")).1.mpr formed
  cases failed.symm.trans accepted

end Grammar

end TypedTree
