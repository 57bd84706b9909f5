import TypedTree.Proofs.HoistingRuns

/-! How a resolution ends. It fails only for a type that has two methods of its own with one key, and then nothing
was recorded. Otherwise it records the common methods of all interfaces, which can be done once. Cycles do not matter. -/

namespace TypedTree.Hoisting

open ListEffects (Avoids avoids_ok avoids_error)

variable {graph : TypeGraph} {hoisted : Hoisted}

/-- A method comes after another one with its key, and is what the error names. -/
def RepeatedIn (owner : String) (methods : List Method) (error : Error) : Prop :=
  ∃ before method after, methods = before ++ method :: after ∧ method.key ∈ keysOf before ∧
    error = .duplicateMethod owner method.text

/-- An error that no type gives cause for by its own methods. -/
def Unfounded (graph : TypeGraph) (error : Error) : Prop :=
  ¬ ∃ id ∈ graph.ids, RepeatedIn (graph.node id).identity (graph.node id).methods error

theorem avoids_offers (owner : String) (methods : List Method) :
    Avoids (fun error => ¬ RepeatedIn owner methods error) (offers owner methods) := by
  refine ListEffects.avoids_foldlM (fun done (offers : Offers) => offers.keys = keysOf done) rfl ?_
  intro done method rest offers split known
  split
  next present =>
    have repeated : method.key ∈ keysOf done := known ▸ Table.contains_iff.mp present
    refine ⟨avoids_error (not_not_intro ⟨done, method, rest, split, repeated, rfl⟩), fun next added => ?_⟩
    cases added
  next absent =>
    refine ⟨avoids_ok _, fun next added => ?_⟩
    cases added
    rw [Table.keys_insert, if_neg (mt Table.contains_iff.mpr absent), known, keysOf, keysOf, List.map_append]
    rfl

/-- What was hoisted into a type has keys of its own, which no method of the type has. -/
def Fresh (graph : TypeGraph) (hoisted : Hoisted) : Prop :=
  ∀ type methods, hoisted.get? type = some methods →
    (keysOf methods).Nodup ∧ ∀ key ∈ keysOf methods, key ∉ keysOf (graph.node type).methods

theorem fresh_hoistInto {interface : TypeId} {next : Hoisted} (fresh : Fresh graph hoisted)
    (step : hoistInto graph hoisted interface = .ok next) : Fresh graph next := by
  obtain ⟨here, run, rfl⟩ := hoistInto_eq_ok.mp step
  intro type methods found
  rw [Table.get?_insert] at found
  split at found
  next same =>
    cases found
    cases same
    have hoists := hoists_of_commonMethods run
    refine ⟨hoists.distinct, fun key member => ?_⟩
    obtain ⟨method, inside, rfl⟩ := List.mem_map.mp member
    exact ((hoists.exact method).mp inside).fresh interface .refl
  next => exact fresh type methods found

/-- A hoisted method has neither the key of an own one nor that of a hoisted one before it. -/
private theorem not_mem_before (fresh : Fresh graph hoisted) {type : TypeId} {earlier after : List Method} {method : Method}
    (inherited : (hoisted.get? type).getD [] = earlier ++ method :: after) :
    method.key ∉ keysOf ((graph.node type).methods ++ earlier) := by
  cases found : hoisted.get? type with
  | none =>
    rw [found] at inherited
    cases earlier <;> cases inherited
  | some methods =>
    rw [found, Option.getD_some] at inherited
    obtain ⟨distinct, apart⟩ := fresh type methods found
    subst inherited
    rw [keysOf, List.map_append, List.nodup_append] at distinct
    rw [keysOf, List.map_append, List.mem_append]
    rintro (own | hoistedBefore)
    · exact apart method.key (List.mem_map_of_mem (List.mem_append_right _ List.mem_cons_self)) own
    · exact distinct.2.2 _ hoistedBefore _ List.mem_cons_self rfl

/-- A type that offers two methods with one key has both of them by itself. -/
theorem repeatedIn_own (fresh : Fresh graph hoisted) {type : TypeId} {owner : String} {error : Error}
    (repeated : RepeatedIn owner (offeredBy graph hoisted type) error) :
    RepeatedIn owner (graph.node type).methods error := by
  obtain ⟨before, method, after, split, known, rfl⟩ := repeated
  rcases List.append_eq_append_iff.mp split with ⟨earlier, rfl, inherited⟩ | ⟨rest, own, later⟩
  · exact absurd known (not_mem_before fresh inherited)
  · cases rest with
    | nil =>
      rw [List.append_nil] at own
      rw [← own] at known
      have absent : method.key ∉ keysOf ((graph.node type).methods ++ []) := not_mem_before fresh later.symm
      rw [List.append_nil] at absent
      exact absurd known absent
    | cons first rest =>
      obtain ⟨rfl, _⟩ := List.cons.inj later
      exact ⟨before, method, rest, own, known, rfl⟩

theorem avoids_candidatesFrom (fresh : Fresh graph hoisted) (candidates : Option Candidates) (subtypes : List TypeId) :
    Avoids (Unfounded graph) (candidatesFrom graph hoisted candidates subtypes) := by
  induction subtypes generalizing candidates with
  | nil => exact avoids_ok candidates
  | cons subtype subtypes ih =>
    rw [candidatesFrom]
    refine .bind (fun error failed => not_not_intro ?_) fun offers _ => ?_
    · have repeated := repeatedIn_own fresh (Classical.not_not.mp (avoids_offers _ _ error failed))
      refine ⟨subtype, Decidable.byContradiction fun absent => ?_, repeated⟩
      obtain ⟨before, method, after, own, _⟩ := repeated
      rw [TypeGraph.node_eq_default absent] at own
      cases before <;> cases own
    · change Avoids _ (if (takeIn candidates offers).isEmpty = true then .ok (some (takeIn candidates offers))
        else candidatesFrom graph hoisted (some (takeIn candidates offers)) subtypes)
      split
      · exact avoids_ok _
      · exact ih _

theorem avoids_commonMethods (fresh : Fresh graph hoisted) (interface : TypeId) :
    Avoids (Unfounded graph) (commonMethods graph hoisted interface) := by
  obtain ⟨declared, known, _⟩ := exists_declaredKeys graph interface
  rw [commonMethods, known]
  refine (avoids_ok declared).bind fun _ _ => (avoids_candidatesFrom fresh none _).bind fun candidates _ => ?_
  cases candidates <;> exact avoids_ok _

theorem avoids_hoistAll (graph : TypeGraph) : Avoids (Unfounded graph) (hoistAll graph) := by
  obtain ⟨upward, found⟩ := graph.exists_interfacesUpward
  rw [hoistAll, found]
  refine (avoids_ok upward).bind fun _ _ => ListEffects.avoids_foldlM (fun _ => Fresh graph) nofun ?_
  intro done interface rest hoisted _ fresh
  exact ⟨(avoids_commonMethods fresh interface).bind fun _ _ => avoids_ok _, fun next run => fresh_hoistInto fresh run⟩

/-- Two graphs with the same types, edges and own methods. -/
structure SameMembers (graph other : TypeGraph) : Prop where
  ids : other.ids = graph.ids
  identity : ∀ id, (other.node id).identity = (graph.node id).identity
  kind : ∀ id, (other.node id).kind = (graph.node id).kind
  supertypes : ∀ id, (other.node id).supertypes = (graph.node id).supertypes
  subtypes : ∀ id, (other.node id).subtypes = (graph.node id).subtypes
  methods : ∀ id, (other.node id).methods = (graph.node id).methods

namespace SameMembers

variable {other : TypeGraph}

theorem interfaces (same : SameMembers graph other) : other.interfaces = graph.interfaces := by
  rw [TypeGraph.interfaces, TypeGraph.interfaces, same.ids]
  refine List.filter_congr fun id _ => ?_
  rw [same.kind]

theorem edges (same : SameMembers graph other) {targets otherTargets : TypeNode → List TypeId}
    (isolated : targets default = []) (otherIsolated : otherTargets default = [])
    (equal : ∀ id, otherTargets (other.node id) = targets (graph.node id)) :
    other.edges otherTargets otherIsolated = graph.edges targets isolated := by
  simp only [TypeGraph.edges, same.ids, equal]

theorem interfacesUpward (same : SameMembers graph other) : other.interfacesUpward = graph.interfacesUpward := by
  have edges : other.edges other.interfacesBelow rfl = graph.edges graph.interfacesBelow rfl := by
    refine same.edges rfl rfl fun id => ?_
    rw [TypeGraph.interfacesBelow, TypeGraph.interfacesBelow, same.subtypes]
    simp only [same.kind]
  rw [TypeGraph.interfacesUpward, TypeGraph.interfacesUpward, same.interfaces, edges]

theorem declaredKeys (same : SameMembers graph other) (interface : TypeId) :
    declaredKeys other interface = declaredKeys graph interface := by
  rw [Hoisting.declaredKeys, Hoisting.declaredKeys, TypeGraph.ancestors, TypeGraph.ancestors, same.supertypes,
    same.edges rfl rfl same.supertypes]
  simp only [same.methods]

theorem candidatesFrom (same : SameMembers graph other) (candidates : Option Candidates) (subtypes : List TypeId) :
    candidatesFrom other hoisted candidates subtypes = candidatesFrom graph hoisted candidates subtypes := by
  induction subtypes generalizing candidates with
  | nil => rfl
  | cons subtype subtypes ih =>
    rw [Hoisting.candidatesFrom, Hoisting.candidatesFrom, same.identity, same.methods]
    simp only [ih]

/-- Nothing else of the types matters for what is hoisted. -/
theorem hoistAll (same : SameMembers graph other) : hoistAll other = hoistAll graph := by
  have each : ∀ hoisted interface, commonMethods other hoisted interface = commonMethods graph hoisted interface := by
    intro hoisted interface
    rw [commonMethods, commonMethods, same.declaredKeys, same.subtypes]
    simp only [same.candidatesFrom]
  rw [Hoisting.hoistAll, Hoisting.hoistAll, same.interfacesUpward]
  simp only [each]

end SameMembers

/-- Two graphs with the same nodes, up to what was recorded of common methods. -/
structure Alike (graph other : TypeGraph) : Prop where
  ids : other.ids = graph.ids
  node : ∀ id, ∃ common, other.node id = { graph.node id with common }

section

variable {other : TypeGraph}

theorem Alike.field {β : Type} (alike : Alike graph other) (field : TypeNode → β)
    (same : ∀ node common, field { node with common } = field node) (id : TypeId) :
    field (other.node id) = field (graph.node id) := by
  obtain ⟨common, equal⟩ := alike.node id
  rw [equal, same]

/-- What was recorded is neither an edge nor an own method. -/
theorem Alike.sameMembers (alike : Alike graph other) : SameMembers graph other where
  ids := alike.ids
  identity := alike.field TypeNode.identity fun _ _ => rfl
  kind := alike.field TypeNode.kind fun _ _ => rfl
  supertypes := alike.field TypeNode.supertypes fun _ _ => rfl
  subtypes := alike.field TypeNode.subtypes fun _ _ => rfl
  methods := alike.field TypeNode.methods fun _ _ => rfl

end

/-- A graph all of whose interfaces got their common methods. Nothing else was touched. -/
structure Completes (graph after : TypeGraph) : Prop extends Alike graph after where
  root : after.root = graph.root
  resolved : ∀ interface ∈ graph.interfaces, (after.node interface).common.isSome = true
  others : ∀ id, id ∉ graph.interfaces → (after.node id).common = (graph.node id).common

/-- A run of hoisting has a result for the interfaces, and for nothing else. -/
theorem mem_keys_of_hoistAll {final : Hoisted} (hoists : hoistAll graph = .ok final) (id : TypeId) :
    id ∈ final.keys ↔ id ∈ graph.interfaces := by
  obtain ⟨upward, order, outside, turns⟩ := upward_of_hoistAll hoists
  rw [← Table.get?_isSome]
  constructor
  · intro found
    refine Decidable.byContradiction fun absent => ?_
    rw [outside id absent] at found
    cases found
  · intro inside
    obtain ⟨before, after, split⟩ := List.append_of_mem ((order.complete id).mpr inside)
    obtain ⟨_, methods, turn⟩ := turns before id after split
    rw [turn.kept]
    rfl

theorem completes_of_resolve {after : TypeGraph} (run : resolve graph = (after, .ok ())) : Completes graph after := by
  obtain ⟨final, resolves⟩ := exists_resolves run
  have keys := fun id => mem_keys_of_hoistAll resolves.hoists id
  refine ⟨⟨resolves.ids, fun id => ⟨_, resolves.node id⟩⟩, root_of_resolve run, fun id inside => ?_, fun id absent => ?_⟩
  · rw [resolves.node, Option.isSome_or, Table.get?_isSome.mpr ((keys id).mpr inside), Bool.true_or]
  · rw [resolves.node, Table.get?_eq_none (mt (keys id).mp absent), Option.none_or]

theorem exists_resolve {final : Hoisted} (pending : ∀ interface ∈ graph.interfaces, (graph.node interface).common = none)
    (hoists : hoistAll graph = .ok final) : ∃ after, resolve graph = (after, .ok ()) := by
  obtain ⟨after, records⟩ := exists_record final.distinct fun id key => pending id ((mem_keys_of_hoistAll hoists id).mp key)
  exact ⟨after, resolve_eq_ok.mpr ⟨final, hoists, records⟩⟩

/-- The first interface that is to be recorded a second time stops a second run. -/
theorem resolve_again {after : TypeGraph} (run : resolve graph = (after, .ok ())) (present : graph.interfaces ≠ []) :
    ∃ interface ∈ graph.interfaces,
      resolve after = (after, .error (.alreadyResolved (graph.node interface).identity)) := by
  have completes := completes_of_resolve run
  obtain ⟨final, hoists, _⟩ := resolve_eq_ok.mp run
  have keys := fun id => mem_keys_of_hoistAll hoists id
  cases entries : final.entries with
  | nil =>
    obtain ⟨interface, inside⟩ := List.exists_mem_of_ne_nil _ present
    have key := (keys interface).mpr inside
    rw [Table.keys, entries] at key
    cases key
  | cons entry rest =>
    obtain ⟨interface, methods⟩ := entry
    have inside : interface ∈ graph.interfaces := by
      refine (keys interface).mp ?_
      rw [Table.keys, entries]
      exact List.mem_cons_self
    refine ⟨interface, inside, ?_⟩
    rw [resolve, completes.sameMembers.hoistAll, hoists]
    simp only [entries, record, TypeGraph.setCommonMethods, completes.resolved interface inside, if_true,
      completes.field TypeNode.identity fun _ _ => rfl]

/-- Resolving the common methods of a graph in which no interface is resolved changes these alone, or nothing.
It fails only for a type that has two methods of its own with one key, and cannot be done twice. -/
theorem resolve_outcome (graph : TypeGraph)
    (pending : ∀ interface ∈ graph.interfaces, (graph.node interface).common = none) :
    (∃ after, resolve graph = (after, .ok ()) ∧ Completes graph after ∧
      (graph.interfaces ≠ [] → ∃ interface ∈ graph.interfaces,
        resolve after = (after, .error (.alreadyResolved (graph.node interface).identity)))) ∨
    ∃ error, resolve graph = (graph, .error error) ∧
      ∃ id ∈ graph.ids, RepeatedIn (graph.node id).identity (graph.node id).methods error := by
  cases outcome : hoistAll graph with
  | ok final =>
    obtain ⟨after, run⟩ := exists_resolve pending outcome
    exact Or.inl ⟨after, run, completes_of_resolve run, resolve_again run⟩
  | error error =>
    have founded := Classical.not_not.mp (avoids_hoistAll graph error outcome)
    exact Or.inr ⟨error, by rw [resolve, outcome], founded⟩

/-- Cats are pets. Hunters and prey stand below each other. -/
def chase (methods : List Method) : TypeGraph :=
  let name := Java.ClassName.topLevel "chase"
  { nodes := #[
      { TypeNode.new "cat" (name "Cat") .regular with supertypes := [1], methods },
      { TypeNode.new "pet" (name "Pet") .supertype with subtypes := [0] },
      { TypeNode.new "hunter" (name "Hunter") .supertype with supertypes := [3], subtypes := [3] },
      { TypeNode.new "prey" (name "Prey") .supertype with supertypes := [2], subtypes := [2] }]
    root := none }

theorem resolve_outcome_chase :
    let voice : Method := ⟨.custom, .getter "voice", none⟩
    let graph := chase [voice]
    keysOf ((resolve graph).1.node 1).commonMethods = [voice.key] ∧
      (resolve (chase [voice, voice])).2 = .error (.duplicateMethod "cat" "void voice()") ∧
      (∀ interface ∈ graph.interfaces, (graph.node interface).common = none) ∧
      ((∃ after, resolve graph = (after, .ok ()) ∧ Completes graph after ∧
        (graph.interfaces ≠ [] → ∃ interface ∈ graph.interfaces,
          resolve after = (after, .error (.alreadyResolved (graph.node interface).identity)))) ∨
      ∃ error, resolve graph = (graph, .error error) ∧
        ∃ id ∈ graph.ids, RepeatedIn (graph.node id).identity (graph.node id).methods error) := by
  intro voice graph
  have pending : ∀ interface ∈ graph.interfaces, (graph.node interface).common = none := by
    have all : ∀ interface ∈ graph.interfaces, (graph.node interface).common.isNone := by decide +zetaReduce
    exact fun interface inside => Option.isNone_iff_eq_none.mp (all interface inside)
  exact ⟨by decide, rfl, pending, resolve_outcome graph pending⟩

end TypedTree.Hoisting
