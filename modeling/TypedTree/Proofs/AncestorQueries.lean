import TypedTree.Proofs.GraphAncestry
import TypedTree.Proofs.GraphOrders
import TypedTree.Proofs.SlotAccessors

/-! What is above a type can be asked of the graph, by its number, and of what is known of supertypes, by its class. Both
tell the supertypes of the grammar in the same order. -/

namespace TypedTree.TypeGraph

open Java (ClassName Ancestry)
open Naming (Scheme Names)
open TypedTree.Order (Walks References)

variable {settings : Settings} {grammar : ValidGrammar} {graph : TypeGraph} {passes : Method → Prop} {id : TypeId}

/-- A type that stands for a supertype of the grammar. -/
def isGrammarSupertype (graph : TypeGraph) (id : TypeId) : Bool := (graph.node id).kind = .supertype

theorem grammarSupertypes_eq (graph : TypeGraph) (node : TypeNode) :
    graph.grammarSupertypes node = (node.supertypes.filter graph.isGrammarSupertype).map graph.className := by
  simp only [grammarSupertypes, List.filter_map, List.map_map]
  rfl

theorem inside_of_isGrammarSupertype (kept : graph.isGrammarSupertype id = true) : id ∈ graph.ids := by
  refine Decidable.byContradiction fun absent => ?_
  rw [isGrammarSupertype, node_eq_default absent] at kept
  cases kept

theorem directSupertypes_eq (graph : TypeGraph) : graph.directSupertypes =
    .ofList ((graph.ids.filter fun id => (graph.node id).kind.isNodeType).map fun id =>
      (graph.className id, graph.grammarSupertypes (graph.node id))) := by
  rw [directSupertypes, toList_nodes, List.filter_map, List.map_map]
  rfl

/-- Each class of a node type has an entry of its own. -/
theorem Valid.get?_directSupertypes (valid : graph.Valid passes) {name : ClassName} {supertypes : List ClassName} :
    graph.directSupertypes.get? name = some supertypes ↔ ∃ id ∈ graph.ids, (graph.node id).kind.isNodeType = true ∧
      graph.className id = name ∧ graph.grammarSupertypes (graph.node id) = supertypes := by
  have distinct : ((graph.ids.filter fun id => (graph.node id).kind.isNodeType).map graph.className).Nodup := by
    refine (List.nodup_range.filter _).map_on fun one first other second same => ?_
    exact valid.named one (List.mem_of_mem_filter first) other (List.mem_of_mem_filter second) same
  rw [directSupertypes_eq, Table.get?_ofList (by rwa [List.map_map])]
  simp only [List.mem_map, List.mem_filter, Prod.mk.injEq, and_assoc]

/-- What stands above a type: each type once, and before all that stands above it itself. -/
structure Ascends (graph : TypeGraph) (id : TypeId) (ancestors : List TypeId) : Prop where
  distinct : ancestors.Nodup
  complete : ∀ above, above ∈ ancestors ↔ Relation.TransGen graph.Above id above
  ahead : ∀ lower ∈ ancestors, ∀ upper, Relation.TransGen graph.Above lower upper → [lower, upper].Sublist ancestors

theorem ascends_of_ancestors (acyclic : ∀ id, ¬ Relation.TransGen graph.Above id id) {ancestors : List TypeId}
    (found : graph.ancestors id = .ok ancestors) : graph.Ascends id ancestors := by
  have sorted := Order.sorted_of_sort (orderIds_eq_ok.mp found)
  obtain ⟨same, run, complete⟩ := exists_ancestors graph id
  cases run.symm.trans found
  refine ⟨sorted.distinct, complete, fun lower member upper path => ?_⟩
  exact sorted.settled.sublist_of_path (fun id _ => acyclic id) member path

/-- The supertypes that are known of a class are those of its node that stand for supertypes of the grammar. -/
theorem supertypes?_of_ancestors (layered : Layered settings grammar graph) (valid : graph.Valid passes)
    (inside : id ∈ graph.ids) (node : (graph.node id).kind.isNodeType = true) {ancestors : List TypeId}
    (found : graph.ancestors id = .ok ancestors) : graph.ancestry.supertypes? (graph.className id) =
      some ((ancestors.filter graph.isGrammarSupertype).map graph.className) := by
  have direct : ∀ {id}, id ∈ graph.ids → (graph.node id).kind.isNodeType = true →
      graph.directSupertypes.get? (graph.className id) = some (graph.grammarSupertypes (graph.node id)) :=
    fun inside node => valid.get?_directSupertypes.mpr ⟨_, inside, node, rfl, rfl⟩
  obtain ⟨walk, walks, rfl⟩ := Order.walks_of_sort (orderIds_eq_ok.mp found)
  obtain ⟨told, run⟩ : ∃ told, Order.sort (References.ofTable graph.directSupertypes) .add
      (graph.grammarSupertypes (graph.node id)).reverse = .ok told := Order.exists_sort nofun
  obtain ⟨other, again, rfl⟩ := Order.walks_of_sort run
  -- What does not stand for a supertype of the grammar may be left out, as nothing is above it.
  have top : ∀ {below above}, graph.Above below above → graph.isGrammarSupertype above = false →
      (graph.node above).supertypes = [] := by
    intro below above edge other
    apply List.eq_nil_iff_forall_not_mem.mpr
    intro upper onward
    rw [isGrammarSupertype, kind_of_between layered valid edge onward] at other
    cases other
  have image : Walks (fun name => (graph.directSupertypes.get? name).getD [])
      (((graph.node id).supertypes.reverse.filter graph.isGrammarSupertype).map graph.className) ⟨[], []⟩
      (walk.image graph.isGrammarSupertype graph.className) := by
    refine walks.image (fun above kept => ?_) (fun one other first second same => ?_) (fun below above edge => top edge)
      fun above member => top (List.mem_reverse.mp member)
    · have node : (graph.node above).kind.isNodeType = true := congrArg TypeKind.isNodeType (of_decide_eq_true kept)
      rw [direct (inside_of_isGrammarSupertype kept) node, Option.getD_some, grammarSupertypes_eq]
    · exact valid.named one (inside_of_isGrammarSupertype first) other (inside_of_isGrammarSupertype second) same
  rw [List.filter_reverse, List.map_reverse, ← grammarSupertypes_eq] at image
  cases image.unique again
  rw [supertypes?_ancestry, direct inside node, Option.map_some, run]
  rfl

namespace SlotGrowth

variable {after : TypeGraph}

theorem filter_nodeTypes (growth : SlotGrowth graph after) :
    (after.ids.filter fun id => (after.node id).kind.isNodeType) = graph.ids.filter fun id => (graph.node id).kind.isNodeType := by
  have size : graph.size ≤ after.size := by
    apply Nat.le_of_not_lt
    intro less
    exact Nat.lt_irrefl _ (mem_ids.mp (growth.keeps.ids after.size (mem_ids.mpr less)))
  obtain ⟨more, size⟩ := Nat.exists_eq_add_of_le size
  have new : ((List.range more).map (graph.size + ·)).filter (fun id => (after.node id).kind.isNodeType) = [] := by
    apply List.filter_eq_nil_iff.mpr
    intro id member node
    obtain ⟨offset, less, rfl⟩ := List.mem_map.mp member
    have known : graph.size + offset ∈ after.ids := mem_ids.mpr (size ▸ Nat.add_lt_add_left (List.mem_range.mp less) _)
    exact absurd (mem_ids.mp (growth.inside known node)) (Nat.not_lt.mpr (Nat.le_add_right _ _))
  rw [ids, size, List.range_add, List.filter_append, new, List.append_nil]
  refine List.filter_congr fun id inside => ?_
  rw [(growth.keeps.alike id inside).kind]

/-- The interfaces of slots do not stand for supertypes of the grammar. -/
theorem grammarSupertypes (growth : SlotGrowth graph after) (inside : ∀ below above, graph.Above below above → above ∈ graph.ids)
    (known : id ∈ graph.ids) : after.grammarSupertypes (after.node id) = graph.grammarSupertypes (graph.node id) := by
  obtain ⟨more, split, new⟩ := growth.supertypes id known
  have interfaces : more.filter after.isGrammarSupertype = [] := by
    apply List.filter_eq_nil_iff.mpr
    intro above member kept
    have node := congrArg TypeKind.isNodeType (of_decide_eq_true kept)
    exact new above member (growth.inside (inside_of_isGrammarSupertype kept) node)
  have alike : ∀ above ∈ (graph.node id).supertypes, (after.node above).Alike (graph.node above) :=
    fun above edge => growth.keeps.alike above (inside id above edge)
  have same : (graph.node id).supertypes.filter after.isGrammarSupertype =
      (graph.node id).supertypes.filter graph.isGrammarSupertype := by
    refine List.filter_congr fun above edge => ?_
    rw [isGrammarSupertype, isGrammarSupertype, (alike above edge).kind]
  rw [grammarSupertypes_eq, grammarSupertypes_eq, split, List.filter_append, interfaces, List.append_nil, same]
  exact List.map_congr_left fun above member => (alike above (List.mem_of_mem_filter member)).name

theorem directSupertypes (growth : SlotGrowth graph after)
    (inside : ∀ below above, graph.Above below above → above ∈ graph.ids) :
    after.directSupertypes = graph.directSupertypes := by
  rw [directSupertypes_eq, directSupertypes_eq, growth.filter_nodeTypes]
  congr 1
  refine List.map_congr_left fun id member => ?_
  have known := List.mem_of_mem_filter member
  rw [growth.grammarSupertypes inside known, className, (growth.keeps.alike id known).name]
  rfl

end SlotGrowth

/-- A resolver of supertypes answers for the class of each node type with the ancestors that stand for supertypes of the
grammar, in their order, and knows no other class. -/
structure Answers (graph : TypeGraph) (known : Ancestry) : Prop where
  nodeTypes : ∀ id ∈ graph.ids, (graph.node id).kind.isNodeType = true →
    ∃ ancestors, graph.ancestors id = .ok ancestors ∧
      known.supertypes? (graph.node id).name =
        some ((ancestors.filter fun above => (graph.node above).kind = .supertype).map fun above => (graph.node above).name)
  others : ∀ name, (∀ id ∈ graph.ids, (graph.node id).kind.isNodeType = true → (graph.node id).name ≠ name) →
    known.supertypes? name = none

theorem answers_ancestry (layered : Layered settings grammar graph) (valid : graph.Valid passes) :
    graph.Answers graph.ancestry := by
  constructor
  · intro id inside node
    obtain ⟨ancestors, found, _⟩ := exists_ancestors graph id
    exact ⟨ancestors, found, supertypes?_of_ancestors layered valid inside node found⟩
  · intro name free
    rw [supertypes?_ancestry, Option.map_eq_none_iff]
    apply Option.eq_none_iff_forall_ne_some.mpr
    intro supertypes entry
    obtain ⟨id, inside, node, named, _⟩ := valid.get?_directSupertypes.mp entry
    exact free id inside node named

/-- In a graph that was built for a grammar without cycles, the ancestors of a type are the types above it, each before
its own supertypes. What is known of supertypes answers alike, and so did what was known when the getters were added. -/
theorem ancestors_of_build (settings : Settings) (grammar : ValidGrammar) (graph : TypeGraph) (scheme : Scheme)
    (types : List String) (names : settings.names = Names.forTypes scheme types)
    (built : build settings grammar = .ok graph) (acyclic : grammar.Acyclic settings.fallbackTypes) :
    (∀ id ∈ graph.ids, ∃ ancestors, graph.ancestors id = .ok ancestors ∧ graph.Ascends id ancestors) ∧
      graph.Answers graph.ancestry ∧
      ∃ named snapshot filled, Stages settings grammar named snapshot filled graph ∧
        ∀ name, snapshot.ancestry.supertypes? name = graph.ancestry.supertypes? name := by
  obtain ⟨named, snapshot, filled, stages⟩ := exists_stages built
  have construction := stages.built (distinctClasses_of_names names)
  have valid := construction.valid
  have layered := (steps_of_build built).reached.layered
  have start := stages.steps_snapshot.1.reached.layered
  refine ⟨fun id _ => ?_, answers_ancestry layered valid, named, snapshot, filled, stages, fun name => ?_⟩
  · obtain ⟨ancestors, found, _⟩ := exists_ancestors graph id
    exact ⟨ancestors, found, ascends_of_ancestors (acyclic_above layered valid acyclic) found⟩
  · rw [ancestry_congr (stages.growth.directSupertypes start.inside)]

/-- The kennel with a basket for a cat or a stray. -/
def furnished : ValidGrammar where
  regular := validKennel.regular ++ [describe "basket" [("animal", ["cat", "stray"])] none]
  supertypes := validKennel.supertypes
  root := none

def furnishedSettings : Settings := Config.default.settings .automatic ⟨furnished.regular ++ furnished.supertypes⟩

theorem acyclic_furnished : furnished.Acyclic furnishedSettings.fallbackTypes :=
  ValidGrammar.acyclic_of_ranks _ ["cat", "dog", "fox", "basket", "stray", "pet", "hunter"].idxOf (by decide) (by decide)

/-- The interface of what a basket holds stands between the supertypes of dogs. -/
theorem ancestors_of_build_furnished :
    furnished.Acyclic furnishedSettings.fallbackTypes ∧
    ∃ graph, build furnishedSettings furnished = .ok graph ∧
      graph.ids.map (fun id => (graph.ancestors id).toOption) =
        [some [4, 5, 7], some [6, 7, 5, 4], some [6, 7, 5, 4], some [], some [], some [], some [4, 5, 7], some []] ∧
      graph.ancestry.supertypes? (kennelClass "NodeDog") =
        some [kennelClass "NodeStray", kennelClass "NodeHunter", kennelClass "NodePet"] ∧
      (∀ id ∈ graph.ids, ∃ ancestors, graph.ancestors id = .ok ancestors ∧ graph.Ascends id ancestors) ∧
      graph.Answers graph.ancestry ∧
      ∃ named snapshot filled, Stages furnishedSettings furnished named snapshot filled graph ∧
        ∀ name, snapshot.ancestry.supertypes? name = graph.ancestry.supertypes? name := by
  have told : (build furnishedSettings furnished).toOption.map (fun graph =>
      (graph.ids.map (fun id => (graph.ancestors id).toOption), graph.ancestry.supertypes? (kennelClass "NodeDog"))) =
        some ([some [4, 5, 7], some [6, 7, 5, 4], some [6, 7, 5, 4], some [], some [], some [], some [4, 5, 7], some []],
          some [kennelClass "NodeStray", kennelClass "NodeHunter", kennelClass "NodePet"]) := by
    decide +kernel
  obtain ⟨graph, built, both⟩ := ListEffects.exists_ok_of_map told
  obtain ⟨ancestors, supertypes⟩ := Prod.mk.inj both
  exact ⟨acyclic_furnished, graph, built, ancestors, supertypes,
    ancestors_of_build furnishedSettings furnished graph _ _ rfl built acyclic_furnished⟩

end TypedTree.TypeGraph
