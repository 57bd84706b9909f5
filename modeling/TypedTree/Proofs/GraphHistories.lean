import TypedTree.Proofs.BuildSteps
import TypedTree.Proofs.HoistingRuns

/-! Graphs as they are changed in place, one operation after another. Whatever the operations are, the index, the edges
and the root fit the nodes after each of them, and what was fixed stays as it is. -/

namespace TypedTree

/-- What can be done to a graph. -/
inductive Operation where
  | addNode (identity : String) (name : Java.ClassName) (kind : TypeKind)
  | addSubtype (supertype subtype : TypeId)
  | addMethod (id : TypeId) (method : Method)
  | addCustomMethod (id : TypeId) (custom : CustomMethod)
  | addConstant (id : TypeId) (name : String) (value : Option String)
  | addToken (id : TypeId) (name token : String)
  | setExtra (id : TypeId) (extra : Bool)
  | setRoot (id : TypeId)
  | setCommonMethods (id : TypeId) (methods : List Method)
  | resolve

namespace Operation

def mentions : Operation → List TypeId
  | addNode _ _ _ => []
  | addSubtype supertype subtype => [supertype, subtype]
  | addMethod id _ => [id]
  | addCustomMethod id _ => [id]
  | addConstant id _ _ => [id]
  | addToken id _ _ => [id]
  | setExtra id _ => [id]
  | setRoot id => [id]
  | setCommonMethods id _ => [id]
  | resolve => []

/-- An operation in place. What is written before a failure stays written; the answer is the number of a new node. -/
def run : Operation → EStateM Error TypeGraph (Option TypeId)
  | addNode identity name kind => do
    if ((← get).id? identity).isSome then throw (.duplicateType identity)
    let id := (← get).size
    modify fun graph => { graph with byIdentity := graph.byIdentity.insert identity id }
    modify fun graph => { graph with nodes := graph.nodes.push (.new identity name kind) }
    return some id
  | addSubtype supertype subtype => do
    modify (·.addSubtype supertype subtype)
    return none
  | addMethod id method => do
    modify (·.addMethod id method)
    return none
  | addCustomMethod id custom => do
    modify (·.addCustomMethod id custom)
    return none
  | addConstant id name value => do
    modify (·.addConstant id name value)
    return none
  | addToken id name token => do
    modify (·.addToken id name token)
    return none
  | setExtra id extra => do
    modify (·.setExtra id extra)
    return none
  | setRoot id => do
    modify (·.setRoot id)
    return none
  | setCommonMethods id methods => do
    let node := (← get).node id
    if node.common.isSome then throw (.alreadyResolved node.identity)
    modify (·.modify id fun node => { node with common := some methods })
    return none
  | resolve => fun graph =>
    match Hoisting.resolve graph with
    | (after, .ok ()) => .ok none after
    | (after, .error error) => .error error after

variable {graph : TypeGraph}

private theorem get_bind {α : Type} (next : TypeGraph → EStateM Error TypeGraph α) :
    (get >>= next) graph = next graph graph := rfl

/-- Adding a node in place is adding it as a whole. -/
theorem run_addNode (identity : String) (name : Java.ClassName) (kind : TypeKind) :
    (addNode identity name kind).run graph =
      match graph.addNode identity name kind with
      | .ok (after, id) => .ok (some id) after
      | .error error => .error error graph := by
  rw [run, get_bind, TypeGraph.addNode]
  cases graph.id? identity <;> rfl

theorem run_setCommonMethods (id : TypeId) (methods : List Method) :
    (setCommonMethods id methods).run graph =
      match graph.setCommonMethods id methods with
      | .ok after => .ok none after
      | .error error => .error error graph := by
  rw [run, get_bind, TypeGraph.setCommonMethods]
  cases (graph.node id).common <;> rfl

end Operation

/-- A node keeps what it is. Its methods only become more, and once they are resolved, its common methods stay. -/
structure TypeNode.Persists (before after : TypeNode) : Prop where
  alike : after.Alike before
  methods : before.methods <+: after.methods
  customMethods : before.customMethods <+: after.customMethods
  resolved : ∀ methods, before.common = some methods → after.common = some methods

theorem TypeNode.Persists.refl (node : TypeNode) : node.Persists node :=
  ⟨⟨rfl, rfl, rfl⟩, List.prefix_rfl, List.prefix_rfl, fun _ known => known⟩

theorem TypeNode.Persists.trans {before middle after : TypeNode} (first : before.Persists middle)
    (last : middle.Persists after) : before.Persists after :=
  ⟨⟨last.alike.identity.trans first.alike.identity, last.alike.name.trans first.alike.name,
      last.alike.kind.trans first.alike.kind⟩,
    first.methods.trans last.methods, first.customMethods.trans last.customMethods,
    fun methods known => last.resolved methods (first.resolved methods known)⟩

namespace TypeGraph

/-- The index, the edges and the root fit the nodes. -/
structure Consistent (graph : TypeGraph) : Prop where
  indexed : graph.Indexed
  mirrored : ∀ above below, graph.Above below above ↔ graph.Below above below
  upper : ∀ below above, graph.Above below above → above ∈ graph.ids
  lower : ∀ above below, graph.Below above below → below ∈ graph.ids
  root : ∀ id, graph.root = some id → id ∈ graph.ids

structure Persists (before after : TypeGraph) : Prop where
  ids : ∀ id ∈ before.ids, id ∈ after.ids
  node : ∀ id ∈ before.ids, (before.node id).Persists (after.node id)

theorem Persists.refl (graph : TypeGraph) : Persists graph graph := ⟨fun _ inside => inside, fun _ _ => .refl _⟩

theorem Persists.trans {before middle after : TypeGraph} (first : Persists before middle) (last : Persists middle after) :
    Persists before after :=
  ⟨fun id inside => last.ids id (first.ids id inside),
    fun id inside => (first.node id inside).trans (last.node id (first.ids id inside))⟩

/-- What one write may do to a graph. -/
inductive Effect (graph : TypeGraph) : TypeGraph → Prop
  | added {identity : String} {name : Java.ClassName} {kind : TypeKind} {id : TypeId} {after : TypeGraph}
      (run : graph.addNode identity name kind = .ok (after, id)) : Effect graph after
  | linked {above below : TypeId} (upper : above ∈ graph.ids) (lower : below ∈ graph.ids) :
      Effect graph (graph.addSubtype above below)
  | changed {id : TypeId} {change : TypeNode → TypeNode} (persists : (graph.node id).Persists (change (graph.node id)))
      (supertypes : ∀ node, (change node).supertypes = node.supertypes)
      (subtypes : ∀ node, (change node).subtypes = node.subtypes) : Effect graph (graph.modify id change)
  | rooted {id : TypeId} (inside : id ∈ graph.ids) : Effect graph (graph.setRoot id)

abbrev Effects : TypeGraph → TypeGraph → Prop := Relation.ReflTransGen Effect

variable {graph after : TypeGraph} {id : TypeId}

theorem Effect.persists (effect : Effect graph after) : Persists graph after := by
  cases effect with
  | added run =>
    have added := (addNode_eq_ok run).2
    exact ⟨added.keeps.ids, fun id inside => by rw [added.old inside]; exact .refl _⟩
  | linked =>
    refine ⟨fun id inside => by rwa [ids_addSubtype], fun id _ => ⟨alike_addSubtype id, ?_, ?_, ?_⟩⟩
    · exact node_addSubtype TypeNode.methods (fun _ _ => rfl) (fun _ _ => rfl) ▸ List.prefix_rfl
    · exact node_addSubtype TypeNode.customMethods (fun _ _ => rfl) (fun _ _ => rfl) ▸ List.prefix_rfl
    · rw [node_addSubtype TypeNode.common (fun _ _ => rfl) fun _ _ => rfl]
      exact fun _ known => known
  | changed persists =>
    refine ⟨fun id inside => by rwa [ids_modify], fun id _ => ?_⟩
    rw [node_modify]
    split
    next same => exact same.1 ▸ persists
    next => exact .refl _
  | rooted => exact ⟨fun _ inside => inside, fun _ _ => .refl _⟩

/-- Nodes may be added and changed in a consistent graph as long as the index follows, and the edges stay. -/
theorem Consistent.keep (consistent : graph.Consistent) (persists : Persists graph after) (indexed : after.Indexed)
    (supertypes : ∀ id, (after.node id).supertypes = (graph.node id).supertypes)
    (subtypes : ∀ id, (after.node id).subtypes = (graph.node id).subtypes)
    (root : ∀ id, after.root = some id → id ∈ after.ids) : after.Consistent := by
  have above : ∀ {below above}, after.Above below above ↔ graph.Above below above := by
    intro below above
    rw [Above, Above, supertypes]
  have below : ∀ {above below}, after.Below above below ↔ graph.Below above below := by
    intro above below
    rw [Below, Below, subtypes]
  exact ⟨indexed, fun _ _ => above.trans ((consistent.mirrored _ _).trans below.symm),
    fun lower upper edge => persists.ids upper (consistent.upper lower upper (above.mp edge)),
    fun upper lower edge => persists.ids lower (consistent.lower upper lower (below.mp edge)), root⟩

theorem Consistent.link {above below : TypeId} (consistent : graph.Consistent) (upper : above ∈ graph.ids)
    (lower : below ∈ graph.ids) : (graph.addSubtype above below).Consistent := by
  constructor
  · exact consistent.indexed.unchanged rfl ids_addSubtype fun id _ => (alike_addSubtype id).identity
  · intro one other
    rw [mem_supertypes_addSubtype lower, mem_subtypes_addSubtype upper, consistent.mirrored, and_comm (a := other = below)]
  · intro one other edge
    rw [ids_addSubtype]
    rcases (mem_supertypes_addSubtype lower).mp edge with old | ⟨_, rfl⟩
    · exact consistent.upper one other old
    · exact upper
  · intro one other edge
    rw [ids_addSubtype]
    rcases (mem_subtypes_addSubtype upper).mp edge with old | ⟨_, rfl⟩
    · exact consistent.lower one other old
    · exact lower
  · intro id known
    rw [ids_addSubtype]
    exact consistent.root id known

theorem Effect.consistent (effect : Effect graph after) (consistent : graph.Consistent) : after.Consistent := by
  have persists := effect.persists
  cases effect with
  | added run =>
    have added := (addNode_eq_ok run).2
    refine consistent.keep persists (consistent.indexed.add run) (added.unchanged TypeNode.supertypes rfl)
      (added.unchanged TypeNode.subtypes rfl) fun id known => ?_
    rw [root_of_addNode run] at known
    exact persists.ids id (consistent.root id known)
  | linked upper lower => exact consistent.link upper lower
  | @changed id change _ supertypes subtypes =>
    have indexed : (graph.modify id change).Indexed :=
      consistent.indexed.unchanged rfl (ids_modify change) fun other inside => (persists.node other inside).alike.identity
    exact consistent.keep persists indexed (fun _ => node_modify_of_same TypeNode.supertypes supertypes)
      (fun _ => node_modify_of_same TypeNode.subtypes subtypes) fun id known => by
        rw [ids_modify]
        exact consistent.root id known
  | rooted inside =>
    refine consistent.keep persists consistent.indexed (fun _ => rfl) (fun _ => rfl) fun id known => ?_
    cases known
    exact inside

theorem consistent_empty : Consistent empty :=
  ⟨indexed_empty, fun _ _ => iff_of_false not_above_empty not_below_empty, fun _ _ edge => absurd edge not_above_empty,
    fun _ _ edge => absurd edge not_below_empty, nofun⟩

theorem effect_setCommonMethods {methods : List Method} (run : graph.setCommonMethods id methods = .ok after) :
    Effect graph after := by
  rw [setCommonMethods] at run
  split at run
  next => cases run
  next pending =>
    cases run
    refine .changed ⟨⟨rfl, rfl, rfl⟩, List.prefix_rfl, List.prefix_rfl, fun methods known => ?_⟩ (fun _ => rfl) fun _ => rfl
    rw [known] at pending
    exact absurd rfl pending

/-- A resolution records the methods of one interface after the other, also if it stops at one of them. -/
theorem effects_record (entries : List (TypeId × List Method)) : Effects graph (Hoisting.record graph entries).1 := by
  induction entries generalizing graph with
  | nil => exact .refl
  | cons entry entries ih =>
    rw [Hoisting.record]
    cases run : graph.setCommonMethods entry.1 entry.2 with
    | ok next => exact .head (effect_setCommonMethods run) ih
    | error error => exact .refl

theorem effects_resolve (graph : TypeGraph) : Effects graph (Hoisting.resolve graph).1 := by
  rw [Hoisting.resolve]
  cases Hoisting.hoistAll graph with
  | ok hoisted => exact effects_record hoisted.entries
  | error error => exact .refl

theorem Effects.persists (effects : Effects graph after) : Persists graph after := by
  induction effects with
  | refl => exact .refl graph
  | tail _ effect ih => exact ih.trans effect.persists

theorem Effects.consistent (effects : Effects graph after) (consistent : graph.Consistent) : after.Consistent := by
  induction effects with
  | refl => exact consistent
  | tail _ effect ih => exact effect.consistent ih

end TypeGraph

open TypeGraph (Effect Effects Consistent Persists)

namespace Operation

/-- Where an operation leaves a graph, whether it succeeds or not, and the number that it gave out. -/
def outcome (operation : Operation) (graph : TypeGraph) : TypeGraph × Option TypeId :=
  match operation.run graph with
  | .ok number after => (after, number)
  | .error _ after => (after, none)

/-- An operation writes to the graph what its effects are, and gives out the number of a node. -/
theorem effects_outcome {graph : TypeGraph} {operation : Operation}
    (known : ∀ id ∈ operation.mentions, id ∈ graph.ids) :
    Effects graph (operation.outcome graph).1 ∧
      ∀ id, (operation.outcome graph).2 = some id → id ∈ (operation.outcome graph).1.ids := by
  have quiet : ∀ {after : TypeGraph}, Effect graph after →
      Effects graph after ∧ ∀ id, (none : Option TypeId) = some id → id ∈ after.ids :=
    fun effect => ⟨.single effect, nofun⟩
  cases operation with
  | addNode identity name kind =>
    rw [outcome, run_addNode]
    cases added : graph.addNode identity name kind with
    | error error => exact ⟨.refl, nofun⟩
    | ok result =>
      refine ⟨.single (.added added), fun id number => ?_⟩
      cases number
      exact ((TypeGraph.addNode_eq_ok added).2.ids _).mpr (Or.inr rfl)
  | addSubtype supertype subtype => exact quiet (.linked (known _ (by simp [mentions])) (known _ (by simp [mentions])))
  | addMethod id method =>
    exact quiet (.changed ⟨⟨rfl, rfl, rfl⟩, List.prefix_append _ _, List.prefix_rfl, fun _ same => same⟩
      (fun _ => rfl) fun _ => rfl)
  | addCustomMethod id custom =>
    exact quiet (.changed ⟨⟨rfl, rfl, rfl⟩, List.prefix_append _ _, List.prefix_append _ _, fun _ same => same⟩
      (fun _ => rfl) fun _ => rfl)
  | addConstant id name value =>
    exact quiet (.changed ⟨⟨rfl, rfl, rfl⟩, List.prefix_rfl, List.prefix_rfl, fun _ same => same⟩
      (fun _ => rfl) fun _ => rfl)
  | addToken id name token =>
    exact quiet (.changed ⟨⟨rfl, rfl, rfl⟩, List.prefix_rfl, List.prefix_rfl, fun _ same => same⟩
      (fun _ => rfl) fun _ => rfl)
  | setExtra id extra =>
    exact quiet (.changed ⟨⟨rfl, rfl, rfl⟩, List.prefix_rfl, List.prefix_rfl, fun _ same => same⟩
      (fun _ => rfl) fun _ => rfl)
  | setRoot id => exact quiet (.rooted (known _ (by simp [mentions])))
  | setCommonMethods id methods =>
    rw [outcome, run_setCommonMethods]
    cases set : graph.setCommonMethods id methods with
    | error error => exact ⟨.refl, nofun⟩
    | ok after => exact quiet (TypeGraph.effect_setCommonMethods set)
  | resolve =>
    have left : resolve.outcome graph = ((Hoisting.resolve graph).1, none) := by
      rw [outcome, run]
      dsimp only
      rcases Hoisting.resolve graph with ⟨after, error | ok⟩ <;> rfl
    rw [left]
    exact ⟨TypeGraph.effects_resolve graph, nofun⟩

/-- An operation that checks before it writes leaves nothing behind if it fails. -/
theorem untouched_of_error {graph after : TypeGraph} {operation : Operation} {error : Error}
    (single : operation ≠ .resolve) (failed : operation.run graph = .error error after) : after = graph := by
  cases operation with
  | addNode identity name kind =>
    rw [run_addNode] at failed
    split at failed
    · cases failed
    · cases failed
      rfl
  | setCommonMethods id methods =>
    rw [run_setCommonMethods] at failed
    split at failed
    · cases failed
    · cases failed
      rfl
  | resolve => exact absurd rfl single
  | _ => cases failed

end Operation

/-- A graph, and the numbers that were given out for its nodes. -/
structure Session where
  graph : TypeGraph
  given : List TypeId

namespace Session

def start : Session := ⟨.empty, []⟩

def perform (session : Session) (operation : Operation) : Session :=
  let (graph, number) := operation.outcome session.graph
  ⟨graph, session.given ++ number.toList⟩

def after (session : Session) (operations : List Operation) : Session := operations.foldl perform session

/-- Operations each of which mentions only numbers that were given out before it. -/
def Permits (session : Session) : List Operation → Prop
  | [] => True
  | operation :: rest => (∀ id ∈ operation.mentions, id ∈ session.given) ∧ (session.perform operation).Permits rest

instance decidablePermits : (session : Session) → (operations : List Operation) → Decidable (session.Permits operations)
  | _, [] => .isTrue trivial
  | session, operation :: rest =>
    have : Decidable ((session.perform operation).Permits rest) := decidablePermits _ rest
    inferInstanceAs (Decidable (_ ∧ _))

variable {session : Session} {operation : Operation} {operations earlier later : List Operation}

theorem permits_append :
    session.Permits (earlier ++ later) ↔ session.Permits earlier ∧ (session.after earlier).Permits later := by
  induction earlier generalizing session with
  | nil => exact (and_iff_right trivial).symm
  | cons operation earlier ih =>
    rw [List.cons_append, Permits, Permits, ih, and_assoc]
    rfl

/-- The numbers that were given out are those of nodes. -/
def Known (session : Session) : Prop := ∀ id ∈ session.given, id ∈ session.graph.ids

theorem effects_perform (known : session.Known) (permitted : ∀ id ∈ operation.mentions, id ∈ session.given) :
    Effects session.graph (session.perform operation).graph ∧ (session.perform operation).Known := by
  obtain ⟨effects, number⟩ := operation.effects_outcome fun id mentioned => known id (permitted id mentioned)
  refine ⟨effects, fun id given => ?_⟩
  rcases List.mem_append.mp given with old | new
  · exact effects.persists.ids id (known id old)
  · exact number id (Option.mem_toList.mp new)

theorem effects_after (known : session.Known) (permitted : session.Permits operations) :
    Effects session.graph (session.after operations).graph ∧ (session.after operations).Known := by
  induction operations generalizing session with
  | nil => exact ⟨.refl, known⟩
  | cons operation operations ih =>
    obtain ⟨first, others⟩ := permitted
    obtain ⟨effects, next⟩ := effects_perform known first
    obtain ⟨more, last⟩ := ih next others
    exact ⟨effects.trans more, last⟩

/-- After every step of a run from the empty graph, the graph is consistent, and what was fixed stays until the end of
the run. An operation that fails writes nothing, unless it is a resolution. -/
theorem run_consistent (earlier later : List Operation) (permitted : start.Permits (earlier ++ later)) :
    (start.after earlier).graph.Consistent ∧
      Persists (start.after earlier).graph (start.after (earlier ++ later)).graph ∧
      ∀ operation error after, operation ≠ Operation.resolve →
        operation.run (start.after earlier).graph = .error error after → after = (start.after earlier).graph := by
  obtain ⟨first, last⟩ := permits_append.mp permitted
  have nothing : Known start := List.forall_mem_nil _
  obtain ⟨effects, known⟩ := effects_after nothing first
  have both : start.after (earlier ++ later) = (start.after earlier).after later := List.foldl_append
  rw [both]
  exact ⟨effects.consistent TypeGraph.consistent_empty, (effects_after known last).1.persists,
    fun _ _ _ single failed => Operation.untouched_of_error single failed⟩

/-- Cats become pets, and pets are resolved. Adding pets again fails, and so does resolving them again. -/
def adoption : List Operation :=
  let name := Java.ClassName.topLevel "pets"
  [.addNode "cat" (name "Cat") .regular, .addNode "pet" (name "Pet") .supertype, .addNode "pet" (name "Pet") .regular,
    .addSubtype 1 0, .addMethod 0 ⟨.custom, .getter "voice", none⟩, .setRoot 0, .resolve]

def upbringing : List Operation :=
  [.setCommonMethods 1 [], .addMethod 1 ⟨.custom, .getter "home", none⟩, .resolve, .addConstant 0 "LEGS" (some "4")]

theorem run_consistent_adoption :
    start.Permits (adoption ++ upbringing) ∧
      Hoisting.keysOf ((start.after adoption).graph.node 1).commonMethods = [⟨.getter "voice", .custom⟩] ∧
      (start.after adoption).graph.Consistent ∧
      Persists (start.after adoption).graph (start.after (adoption ++ upbringing)).graph ∧
      ∀ operation error after, operation ≠ Operation.resolve →
        operation.run (start.after adoption).graph = .error error after → after = (start.after adoption).graph :=
  have permitted : start.Permits (adoption ++ upbringing) := by decide
  ⟨permitted, by decide, run_consistent adoption upbringing permitted⟩

end Session

end TypedTree
