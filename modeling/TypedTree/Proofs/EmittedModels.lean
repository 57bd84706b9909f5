import Mathlib.Data.List.Perm.Basic
import TypedTree.Generation
import TypedTree.Proofs.BuiltGraphs
import TypedTree.Proofs.GraphOrders
import TypedTree.Proofs.HoistingRuns

/-! The models that are generated are closed: all that they mention is declared, and both ends of every edge are
there. -/

namespace TypedTree

open Java (ClassName)
open ListEffects (bind_eq_ok exists_ok_of_map)

/-- How a graph of generated types comes about: its types are built, and then their common methods are resolved. -/
theorem exists_resolves_of_buildGraph {grammar : Grammar} {config : Config} {graph : TypeGraph}
    (run : buildGraph grammar config = .ok graph) :
    ∃ scheme valid plain final, config.scheme = .ok scheme ∧ grammar.validate config.rootNode = .ok valid ∧
      TypeGraph.build (config.settings scheme grammar) valid = .ok plain ∧ Hoisting.Resolves plain graph final ∧
      graph.root = plain.root := by
  obtain ⟨scheme, named, run⟩ := bind_eq_ok.mp run
  obtain ⟨_, _, run⟩ := bind_eq_ok.mp run
  obtain ⟨valid, validated, run⟩ := bind_eq_ok.mp run
  obtain ⟨plain, built, run⟩ := bind_eq_ok.mp run
  have resolved : Hoisting.resolve plain = (graph, .ok ()) := by
    cases outcome : Hoisting.resolve plain with
    | mk last result =>
      rw [outcome] at run
      cases result with
      | ok => cases run; rfl
      | error error => cases run
  obtain ⟨final, resolves⟩ := Hoisting.exists_resolves resolved
  exact ⟨scheme, valid, plain, final, named, validated, built, resolves, Hoisting.root_of_resolve resolved⟩

namespace TypeGraph

theorem distinctClasses_settings (config : Config) (scheme : Naming.Scheme) (grammar : Grammar) :
    DistinctClasses (config.settings scheme grammar) := distinctClasses_of_names rfl

variable {graph : TypeGraph}

/-- A graph whose edges can be told by class names, with every nested type in a class of its own. -/
structure Hierarchy (graph : TypeGraph) : Prop where
  named : ∀ one ∈ graph.ids, ∀ other ∈ graph.ids, graph.className one = graph.className other → one = other
  inside : ∀ above below, graph.Below above below → below ∈ graph.ids
  mirrored : ∀ above below, graph.Below above below ↔ graph.Above below above
  interfaces : ∀ above below, graph.Below above below → (graph.node above).kind.isInterface = true
  enclosed : ∀ id ∈ graph.ids, ∀ name, (graph.className id).enclosing? = some name →
    ∃ parent ∈ graph.ids, graph.className parent = name ∧ (graph.node parent).kind = .regular
  root : ∀ id, graph.root = some id → id ∈ graph.ids
  custom : ∀ id ∈ graph.ids,
    (graph.node id).methods.filter (·.kind = .custom) = (graph.node id).customMethods.map (·.method)

theorem enclosing?_topLevel (package name : String) : (ClassName.topLevel package name).enclosing? = none := rfl

theorem enclosing?_nested {outer : ClassName} (present : outer.names ≠ []) (name : String) :
    (outer.nested name).enclosing? = some outer := by
  have several : ¬ (outer.names ++ [name]).length < 2 := by
    have positive := List.length_pos_iff.mpr present
    rw [List.length_append, List.length_singleton]
    omega
  rw [ClassName.enclosing?, ClassName.nested, if_neg several, List.dropLast_concat]

/-- Only the types of slots are nested, and what is around them is the class of a node type. -/
theorem Formed.enclosed {settings : Settings} {grammar : ValidGrammar} (formed : Formed settings grammar graph)
    {id : TypeId} (inside : id ∈ graph.ids) {name : ClassName} (around : (graph.node id).name.enclosing? = some name) :
    ∃ parent ∈ graph.ids, (graph.node parent).name = name ∧ (graph.node parent).kind = .regular := by
  cases formed.placed id inside with
  | nodeType simple _ _ top =>
    rw [top, enclosing?_topLevel] at around
    cases around
  | nested parent place _ parentInside regular _ _ _ same =>
    refine ⟨parent, parentInside, ?_, regular⟩
    cases formed.placed parent parentInside with
    | nodeType outer _ _ top =>
      rw [same, enclosing?_nested (by rw [top]; exact List.cons_ne_nil _ _)] at around
      exact Option.some.inj around
    | nested _ _ slot =>
      rw [regular] at slot
      cases slot

/-- Every graph of generated types is such a hierarchy, cyclic ones too. -/
theorem hierarchy_of_buildGraph {grammar : Grammar} {config : Config} (run : buildGraph grammar config = .ok graph) :
    graph.Hierarchy := by
  obtain ⟨scheme, valid, plain, final, _, _, built, resolves, root⟩ := exists_resolves_of_buildGraph run
  obtain ⟨snapshot, construction⟩ := exists_built (distinctClasses_settings config scheme grammar) built
  have sound := construction.valid
  obtain ⟨formed, layered, filled⟩ := (steps_of_build built).reached
  have below : ∀ above below, graph.Below above below ↔ plain.Below above below := by
    intro above below
    rw [Below, Below, resolves.node]
  refine ⟨?_, fun above lower edge => ?_, fun above lower => ?_, fun above lower edge => ?_, fun id inside name around => ?_,
    fun id known => ?_, fun id inside => ?_⟩
  · simpa only [className, resolves.ids, resolves.node] using sound.named
  · rw [resolves.ids]
    exact sound.inside above lower ((below above lower).mp edge)
  · rw [below, Above, resolves.node]
    exact sound.mirrored above lower
  · rw [resolves.node]
    exact layered.upper above lower ((below above lower).mp edge)
  · rw [resolves.ids] at inside ⊢
    rw [className, resolves.node] at around
    simp only [className, resolves.node]
    exact formed.enclosed inside around
  · rw [resolves.ids]
    exact formed.root id (root ▸ known)
  · rw [resolves.ids] at inside
    rw [resolves.node]
    exact (filled.has id inside).customKind

theorem Hierarchy.inside_above (hierarchy : graph.Hierarchy) {below above : TypeId} (edge : graph.Above below above) :
    above ∈ graph.ids := ((hierarchy.mirrored above below).mpr edge).inside

theorem Hierarchy.className_mem (hierarchy : graph.Hierarchy) {ids : List TypeId} (known : ∀ id ∈ ids, id ∈ graph.ids)
    {id : TypeId} (inside : id ∈ graph.ids) : graph.className id ∈ ids.map graph.className ↔ id ∈ ids := by
  constructor
  · intro member
    obtain ⟨other, listed, same⟩ := List.mem_map.mp member
    rwa [← hierarchy.named other (known other listed) id inside same]
  · exact List.mem_map_of_mem

/-- Subtypes are left out of the declarations of classes, which have none. -/
theorem Hierarchy.declaration_subtypes (hierarchy : graph.Hierarchy) (id : TypeId) :
    (graph.declaration id).subtypes = (graph.node id).subtypes.map graph.className := by
  rw [declaration]
  dsimp only
  split
  · rfl
  next notInterface =>
    have none : (graph.node id).subtypes = [] := by
      rw [List.eq_nil_iff_forall_not_mem]
      exact fun below edge => notInterface (hierarchy.interfaces id below edge)
    rw [none, List.map_nil]

theorem exists_order {model : Model} (run : graph.model = .ok model) :
    ∃ order : List TypeId, order.Perm graph.ids ∧ model.root = graph.root.map graph.className ∧
      model.declarations = order.map graph.declaration := by
  obtain ⟨order, found, run⟩ := bind_eq_ok.mp run
  cases run
  have sorted := Order.sorted_of_sort (orderIds_eq_ok.mp found)
  refine ⟨order, (List.perm_ext_iff_of_nodup sorted.distinct List.nodup_range).mpr fun id => ?_, rfl, rfl⟩
  rw [sorted.mem_iff (by decide), List.mem_reverse]
  exact Iff.rfl

/-- One list in two parts, each of them in its order. -/
structure Splits {α : Type} (first second all : List α) : Prop where
  perm : (first ++ second).Perm all
  first : first.Sublist all
  second : second.Sublist all

end TypeGraph

open TypeGraph (Splits)

/-- A model is closed and tells the same as the graph that it was written from. -/
structure Model.Consistent (graph : TypeGraph) (model : Model) : Prop where
  declared : ∃ order : List TypeId, order.Perm graph.ids ∧ model.declarations = order.map graph.declaration
  distinct : (model.declarations.map (·.name)).Nodup
  mirrored : ∀ one ∈ model.declarations, ∀ other ∈ model.declarations,
    other.name ∈ one.subtypes ↔ one.name ∈ other.supertypes
  closed : ∀ one ∈ model.declarations, ∀ name ∈ one.supertypes ++ one.subtypes,
    ∃ other ∈ model.declarations, other.name = name
  enclosed : ∀ one ∈ model.declarations, ∀ name, one.enclosing = some name →
    ∃ other ∈ model.declarations, other.name = name ∧ other.kind = .regular
  root : (model.declarations.filter (·.root)).map (·.name) = model.root.toList
  methods : ∀ id ∈ graph.ids, Splits (graph.declaration id).methods
    ((graph.declaration id).customMethods.map (·.method)) (graph.node id).methods

namespace TypeGraph

variable {graph : TypeGraph}

theorem Hierarchy.splits (hierarchy : graph.Hierarchy) {id : TypeId} (inside : id ∈ graph.ids) :
    Splits (graph.declaration id).methods ((graph.declaration id).customMethods.map (·.method))
      (graph.node id).methods := by
  have custom : (graph.declaration id).customMethods.map (·.method) =
      (graph.node id).methods.filter (·.kind = .custom) := (hierarchy.custom id inside).symm
  rw [custom]
  refine ⟨?_, List.filter_sublist, List.filter_sublist⟩
  have parts := List.filter_append_perm (fun method : Method => decide (method.kind ≠ .custom)) (graph.node id).methods
  simpa [declaration] using parts

theorem Hierarchy.root_filter (hierarchy : graph.Hierarchy) {order : List TypeId} (all : order.Perm graph.ids) :
    order.filter (fun id => graph.root = some id) = graph.root.toList := by
  cases root : graph.root with
  | none => simp
  | some known =>
    have member : known ∈ order := all.mem_iff.mpr (hierarchy.root known root)
    have once : order.count known = 1 :=
      List.count_eq_one_of_mem (all.nodup_iff.mpr List.nodup_range) member
    simp only [Option.some.injEq, eq_comm (a := known)]
    rw [List.filter_eq, once]
    rfl

theorem Hierarchy.consistent (hierarchy : graph.Hierarchy) {model : Model} (run : graph.model = .ok model) :
    model.Consistent graph := by
  obtain ⟨order, all, root, declarations⟩ := exists_order run
  have declared : ∀ {declaration}, declaration ∈ model.declarations →
      ∃ id ∈ graph.ids, graph.declaration id = declaration := by
    intro declaration member
    rw [declarations] at member
    obtain ⟨id, listed, same⟩ := List.mem_map.mp member
    exact ⟨id, all.mem_iff.mp listed, same⟩
  have declares : ∀ {id}, id ∈ graph.ids → graph.declaration id ∈ model.declarations := by
    intro id inside
    rw [declarations]
    exact List.mem_map_of_mem (all.mem_iff.mpr inside)
  refine ⟨⟨order, all, declarations⟩, ?_, fun one first other second => ?_, fun one member name listed => ?_,
    fun one member name around => ?_, ?_, fun id inside => hierarchy.splits inside⟩
  · rw [declarations, List.map_map]
    refine List.Nodup.map_on (fun one first other second same => ?_) (all.nodup_iff.mpr List.nodup_range)
    exact hierarchy.named one (all.mem_iff.mp first) other (all.mem_iff.mp second) same
  · obtain ⟨one, oneInside, rfl⟩ := declared first
    obtain ⟨other, otherInside, rfl⟩ := declared second
    rw [hierarchy.declaration_subtypes]
    exact ((hierarchy.className_mem (hierarchy.inside one) otherInside).trans (hierarchy.mirrored one other)).trans
      (hierarchy.className_mem (fun _ => hierarchy.inside_above) oneInside).symm
  · obtain ⟨id, inside, rfl⟩ := declared member
    rw [hierarchy.declaration_subtypes, List.mem_append] at listed
    rcases listed with listed | listed
    · obtain ⟨above, edge, rfl⟩ := List.mem_map.mp listed
      exact ⟨_, declares (hierarchy.inside_above edge), rfl⟩
    · obtain ⟨below, edge, rfl⟩ := List.mem_map.mp listed
      exact ⟨_, declares (hierarchy.inside id below edge), rfl⟩
  · obtain ⟨id, inside, rfl⟩ := declared member
    obtain ⟨parent, parentInside, named, regular⟩ := hierarchy.enclosed id inside name around
    exact ⟨_, declares parentInside, named, regular⟩
  · rw [declarations, root, List.filter_map, List.map_map]
    have roots : order.filter ((·.root) ∘ graph.declaration) = graph.root.toList := hierarchy.root_filter all
    rw [roots]
    cases graph.root <;> rfl

end TypeGraph

/-- Every model that is generated is a closed and consistent hierarchy. -/
theorem generate_consistent (grammar : Grammar) (config : Config) (model : Model)
    (generated : generate grammar config = .ok model) :
    ∃ graph, buildGraph grammar config = .ok graph ∧ model.Consistent graph := by
  obtain ⟨graph, built, run⟩ := bind_eq_ok.mp generated
  exact ⟨graph, built, (TypeGraph.hierarchy_of_buildGraph built).consistent run⟩

/-- Calls and names are expressions. What is called is a name or a keyword. -/
def calls : Grammar where
  nodeTypes := [
    { name := "call", named := true, extra := false, root := true, children := none, subtypes := none
      fields := some (.ofList [("target", ⟨false, true, [⟨"name", true⟩, ⟨"self", false⟩]⟩)]) },
    { name := "name", named := true, extra := false, root := false, fields := none, children := none,
      subtypes := none },
    { name := "expression", named := true, extra := false, root := false, fields := none, children := none,
      subtypes := some [⟨"call", true⟩, ⟨"name", true⟩] }]

def callsConfig : Config :=
  { Config.default with customMethods := ⟨.ofList [("call", [⟨"run", [], .empty, none, none, none⟩])]⟩ }

/-- The simple names of the root and of all declarations, each with those of its subtypes. -/
def Model.outline (model : Model) : Option String × List (String × List String) :=
  (model.root.map (·.simpleName), model.declarations.map fun declaration =>
    (declaration.name.simpleName, declaration.subtypes.map (·.simpleName)))

theorem generate_consistent_calls :
    ∃ model, generate calls callsConfig = .ok model ∧
      model.outline = (some "NodeCall", [("NodeExpression", ["NodeCall", "NodeName"]), ("NodeCall", []),
        ("FieldTarget", ["NodeName", "FieldTokenTarget"]), ("FieldTokenTarget", []), ("NodeName", [])]) ∧
      ∃ graph, buildGraph calls callsConfig = .ok graph ∧ model.Consistent graph := by
  have outline : (generate calls callsConfig).toOption.map Model.outline = some
      (some "NodeCall", [("NodeExpression", ["NodeCall", "NodeName"]), ("NodeCall", []),
        ("FieldTarget", ["NodeName", "FieldTokenTarget"]), ("FieldTokenTarget", []), ("NodeName", [])]) := by
    decide +kernel
  obtain ⟨model, generated, told⟩ := exists_ok_of_map outline
  exact ⟨model, generated, told, generate_consistent calls callsConfig model generated⟩

end TypedTree
