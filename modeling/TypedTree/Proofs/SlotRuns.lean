import TypedTree.Graph.Build
import TypedTree.Proofs.GraphNodes
import TypedTree.Proofs.ListEffects

/-! What the steps of building a slot did if they succeeded. -/

namespace TypedTree.TypeGraph

open Java (Ancestry)
open Naming (Names Scheme)
open ListEffects (bind_eq_ok)

variable {settings : Settings} {known result : Ancestry} {graph after : TypeGraph} {parent id : TypeId} {type : NodeType}
  {place : Place} {slot : Slot}

theorem memberName_eq_ok {name result : String} (run : Names.memberName name = .ok result) : result = name := by
  rw [Names.memberName] at run
  split at run
  · cases run
  · cases run
    rfl

/-- A nested type reserves its simple name, which is free in the class around it. -/
theorem addNested_eq_ok {name identity : String} {kind : TypeKind}
    (run : graph.addNested parent name identity kind = .ok (after, id)) :
    ∃ simple, Names.typeName name = .ok simple ∧ graph.reservedBy? parent simple = none ∧
      (graph.reserve parent simple identity).addNode identity ((graph.node parent).name.nested simple) kind =
        .ok (after, id) := by
  obtain ⟨simple, usable, run⟩ := bind_eq_ok.mp run
  split at run
  next => cases run
  next free => exact ⟨simple, usable, free, run⟩

theorem added_of_addNested {name identity : String} {kind : TypeKind}
    (run : graph.addNested parent name identity kind = .ok (after, id)) :
    ∃ simple, Added graph (.new identity ((graph.node parent).name.nested simple) kind) after id := by
  obtain ⟨simple, _, _, addition⟩ := addNested_eq_ok run
  exact ⟨simple, (addNode_eq_ok addition).2.of_reserve⟩

/-- A token is added under a name of its own. -/
theorem addSlotToken_eq_ok {owner field token : String} {index : Nat}
    (run : addSlotToken settings owner field id graph (token, index) = .ok after) :
    ∃ name, settings.names.scheme.tokens.name ⟨owner, field, token⟩ index = .ok name ∧
      (∀ known ∈ (graph.node id).tokens, known.token ≠ token) ∧
      (∀ known ∈ (graph.node id).tokens, known.name ≠ name) ∧ after = graph.addToken id name token := by
  obtain ⟨name, named, run⟩ := bind_eq_ok.mp run
  obtain ⟨_, usable, run⟩ := bind_eq_ok.mp run
  cases memberName_eq_ok usable
  dsimp only at run
  split at run
  next => cases run
  next newText =>
    split at run
    next => cases run
    next newName =>
      cases run
      refine ⟨name, named, fun known member same => newText ?_, fun known member => ?_, rfl⟩
      · exact List.any_eq_true.mpr ⟨known, member, decide_eq_true same⟩
      · simpa using List.find?_eq_none.mp newName known member

/-- What is done with a token that has a usable name. -/
theorem addSlotToken_eq (settings : Settings) {owner field token name : String} {index : Nat}
    (named : settings.names.scheme.tokens.name ⟨owner, field, token⟩ index = .ok name)
    (usable : Naming.Names.memberName name = .ok name) :
    addSlotToken settings owner field id graph (token, index) =
      if (graph.node id).tokens.any (·.token = token) then .error (.invalidGrammar (.repeatedToken token owner))
      else match (graph.node id).tokens.find? (·.name = name) with
        | some first => .error (.duplicateName name first.token token)
        | none => .ok (graph.addToken id name token) := by
  rw [addSlotToken]
  simp only [named]
  change (Naming.Names.memberName name >>= _) = _
  rw [usable]
  rfl

/-- A node has these tokens so far, all of them different. -/
structure Lists (graph : TypeGraph) (id : TypeId) (known : List String) : Prop where
  inside : id ∈ graph.ids
  distinct : known.Nodup
  tokens : (graph.node id).tokens.map (·.token) = known

theorem Lists.addToken {tokens : List String} {token : String} (lists : graph.Lists id tokens) (new : token ∉ tokens)
    (name : String) : (graph.addToken id name token).Lists id (tokens ++ [token]) where
  inside := by
    rw [TypeGraph.addToken, ids_modify]
    exact lists.inside
  distinct := by
    refine List.nodup_append.mpr ⟨lists.distinct, by simp, fun _ known _ last same => ?_⟩
    exact new (List.mem_singleton.mp last ▸ same ▸ known)
  tokens := by
    rw [TypeGraph.addToken, node_modify, if_pos ⟨rfl, lists.inside⟩]
    simp [lists.tokens]

theorem lists_addNested {name identity : String} {kind : TypeKind}
    (run : graph.addNested parent name identity kind = .ok (after, id)) : after.Lists id [] := by
  obtain ⟨_, added⟩ := added_of_addNested run
  refine ⟨(added.ids id).mpr (Or.inr rfl), List.nodup_nil, ?_⟩
  rw [added.here]
  rfl

/-- The type of a slot is the node of its only type, a class for its tokens, or an interface. -/
inductive Targets (settings : Settings) (known : Ancestry) (parent : TypeId) (type : NodeType) (place : Place) (slot : Slot)
    (graph : TypeGraph) : TypeGraph → TypeId → Ancestry → Prop
  | single {name : String} {id : TypeId} (noTokens : slot.tokens = []) (only : slot.nodeTypes = [name])
      (found : graph.lookup settings name type.name = .ok id) :
      Targets settings known parent type place slot graph graph id known
  | tokens {after : TypeGraph} {id : TypeId} (noNodes : slot.nodeTypes = [])
      (added : addTokens settings parent type place slot graph = .ok (after, some id)) :
      Targets settings known parent type place slot graph after id .empty
  | several {first after : TypeGraph} {tokens : Option TypeId} {id : TypeId}
      (notSingle : ∀ name, slot.tokens = [] → slot.nodeTypes ≠ [name]) (mixed : slot.nodeTypes = [] → tokens = none)
      (added : addTokens settings parent type place slot graph = .ok (first, tokens))
      (interface : addInterface settings parent type place slot tokens first = .ok (after, id)) :
      Targets settings known parent type place slot graph after id .empty

theorem targets_of_addTarget (run : addTarget settings known parent type place slot graph = .ok (after, id, result)) :
    Targets settings known parent type place slot graph after id result := by
  rw [addTarget] at run
  split at run
  next name noTokens only =>
    obtain ⟨target, found, run⟩ := bind_eq_ok.mp run
    cases run
    exact .single noTokens only found
  next notSingle =>
    obtain ⟨⟨first, tokens⟩, added, run⟩ := bind_eq_ok.mp run
    dsimp only at run
    split at run
    next token noNodes =>
      cases run
      exact .tokens noNodes added
    next mixed =>
      obtain ⟨⟨last, interface⟩, collected, run⟩ := bind_eq_ok.mp run
      cases run
      refine .several notSingle (fun noNodes => ?_) added collected
      exact Option.eq_none_iff_forall_ne_some.mpr fun id => mixed id noNodes

theorem addFieldConstants_eq_ok {name : String} (run : graph.addFieldConstants parent (.field name) = .ok after) :
    Names.memberName (Scheme.fieldNameConstant name) = .ok (Scheme.fieldNameConstant name) ∧
      after = (graph.addConstant parent (Scheme.fieldNameConstant name) (some name)).addConstant parent
        (Scheme.fieldIdConstant name) none := by
  obtain ⟨nameConstant, first, run⟩ := bind_eq_ok.mp run
  obtain ⟨idConstant, second, run⟩ := bind_eq_ok.mp run
  cases run
  cases memberName_eq_ok first
  cases memberName_eq_ok second
  exact ⟨first, rfl⟩

/-- A slot lists something, and its getter is added last. -/
theorem addAccessor_eq_ok (run : addAccessor settings known parent type graph (place, slot) = .ok after) :
    slot.types ≠ [] ∧ ∃ first second target result, graph.addFieldConstants parent place = .ok first ∧
      addTarget settings known parent type place slot first = .ok (second, target, result) ∧
      after = second.addMethod parent ⟨place.methodKind slot, .getter (place.getter slot.multiple),
        some ⟨getterType settings slot (.ofClass (second.node target).name), result⟩⟩ := by
  rw [addAccessor] at run
  dsimp only at run
  split at run
  next => cases run
  next listed =>
    obtain ⟨first, constants, run⟩ := bind_eq_ok.mp run
    obtain ⟨getter, named, run⟩ := bind_eq_ok.mp run
    obtain ⟨⟨second, target, result⟩, added, run⟩ := bind_eq_ok.mp run
    cases memberName_eq_ok named
    refine ⟨by simpa using listed, first, second, target, result, constants, added, ?_⟩
    exact (Except.ok.inj run).symm

end TypedTree.TypeGraph
