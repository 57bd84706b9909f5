import Mathlib.Data.Set.Pairwise.List
import TypedTree.Proofs.EmittedModels
import TypedTree.Proofs.ValidGrammars

/-! When the members of a generated type collide. Nothing that is checked keeps the names of its members apart, so
that it depends on the names of the fields and of the custom methods. -/

namespace TypedTree

open Java (JavaType)
open Naming (Scheme)
open ListEffects (bind_eq_ok exists_ok_of_map)
open TypeGraph (Addition additions membersOf slotMembers builtMembers)

/-- What tells methods of a class apart. -/
def Signature.call (signature : Signature) : String × List JavaType :=
  (signature.name, signature.parameters.map (·.type))

def Declaration.calls (declaration : Declaration) : List (String × List JavaType) :=
  (declaration.methods ++ declaration.customMethods.map (·.method)).map (·.signature.call)

/-- No two constants have the same name, and no two methods can be called alike. -/
structure Declaration.CollisionFree (declaration : Declaration) : Prop where
  constants : (declaration.constants.map (·.name)).Nodup
  calls : declaration.calls.Nodup

instance (declaration : Declaration) : Decidable declaration.CollisionFree :=
  decidable_of_iff ((declaration.constants.map (·.name)).Nodup ∧ declaration.calls.Nodup)
    ⟨fun ⟨constants, calls⟩ => ⟨constants, calls⟩, fun ⟨constants, calls⟩ => ⟨constants, calls⟩⟩

namespace NodeType

def fieldNames (type : NodeType) : List String := type.fieldSlots.map Prod.fst

/-- The getters of a class; the interface of a supertype has none of its own. -/
def getterNames (type : NodeType) : List String :=
  if type.isSupertype then []
  else (Scheme.unnamedChildrenGetter? type.hasFields).toList
    ++ (TypeGraph.slots type).map fun (place, slot) => place.getter slot.multiple

/-- The fields of a node type and its custom methods are told apart by the names that are made of them. -/
structure Separated (customMethods : CustomMethods) (type : NodeType) : Prop where
  fields : ∀ field ∈ type.fieldNames, ∀ other ∈ type.fieldNames, field ≠ other →
    Scheme.fieldNameConstant field ≠ Scheme.fieldNameConstant other ∧
      Scheme.fieldNameConstant field ≠ Scheme.fieldIdConstant other ∧
      Scheme.fieldGetter field ≠ Scheme.fieldGetter other
  custom : ((customMethods.listed type.name).map (·.method.signature.call)).Nodup
  apart : ∀ getter ∈ type.getterNames, ∀ custom ∈ customMethods.listed type.name,
    custom.method.signature.call ≠ (getter, [])

def members (settings : Settings) (type : NodeType) : List Member :=
  if type.isSupertype then type.baseMembers settings .supertype
  else type.baseMembers settings .regular ++ slotMembers type

end NodeType

namespace Place

def constantNames : Place → List String
  | children => []
  | field name => [Scheme.fieldNameConstant name, Scheme.fieldIdConstant name]

theorem constants_members (entry : Place × Slot) :
    ((members entry).filterMap Member.constant?).map (·.name) = entry.1.constantNames := by
  obtain ⟨place, slot⟩ := entry
  cases place <;> rfl

theorem getters_members (entry : Place × Slot) : (members entry).filterMap Member.getter? =
    [⟨.getter (entry.1.getter entry.2.multiple), entry.1.methodKind entry.2⟩] := by
  obtain ⟨place, slot⟩ := entry
  cases place <;> rfl

theorem customs_members (entry : Place × Slot) : (members entry).filterMap Member.custom? = [] := by
  obtain ⟨place, slot⟩ := entry
  cases place <;> rfl

end Place

namespace Naming.Scheme

/-- The constants of fields and those of the type start with different words. -/
theorem field_ne_type {name : String} (type : name ∈ [typeNameConstant, typeIdConstant]) (text : String) :
    name ≠ "FIELD_" ++ text := by
  intro same
  rcases List.mem_pair.mp type with rfl | rfl
  · simpa [typeNameConstant] using congrArg String.toList same
  · simpa [typeIdConstant] using congrArg String.toList same

theorem fieldNameConstant_ne_fieldIdConstant (field : String) : fieldNameConstant field ≠ fieldIdConstant field := by
  intro same
  simpa [fieldNameConstant, fieldIdConstant] using congrArg String.length same

theorem fieldIdConstant_inj {field other : String} :
    fieldIdConstant field = fieldIdConstant other ↔ fieldNameConstant field = fieldNameConstant other := by
  simp [fieldIdConstant, fieldNameConstant]

theorem fieldGetter_ne_childrenGetter (field : String) (multiple : Bool) :
    fieldGetter field ≠ childrenGetter multiple := by
  intro same
  cases multiple <;> simpa [fieldGetter, childrenGetter] using congrArg String.toList same

theorem childrenGetter_ne_unnamed (multiple : Bool) : "getUnnamedChildren" ≠ childrenGetter multiple := by
  cases multiple <;> decide

/-- The constants of some fields are distinct exactly if no name of one is a name of another. -/
theorem nodup_constants {fields : List String} (distinct : fields.Nodup) :
    ([typeNameConstant, typeIdConstant] ++
        fields.flatMap fun field => [fieldNameConstant field, fieldIdConstant field]).Nodup ↔
      ∀ field ∈ fields, ∀ other ∈ fields, field ≠ other →
        fieldNameConstant field ≠ fieldNameConstant other ∧ fieldNameConstant field ≠ fieldIdConstant other := by
  have own : ∀ field ∈ fields, [fieldNameConstant field, fieldIdConstant field].Nodup := fun field _ => by
    simpa using fieldNameConstant_ne_fieldIdConstant field
  have types : ∀ name ∈ [typeNameConstant, typeIdConstant], ∀ other ∈
      fields.flatMap fun field => [fieldNameConstant field, fieldIdConstant field], name ≠ other := by
    intro name type other member
    obtain ⟨field, _, constant⟩ := List.mem_flatMap.mp member
    rcases List.mem_pair.mp constant with rfl | rfl
    · exact field_ne_type type _
    · rw [fieldIdConstant, String.append_assoc]
      exact field_ne_type type _
  have start : [typeNameConstant, typeIdConstant].Nodup := by decide
  rw [List.nodup_append, List.nodup_flatMap]
  constructor
  · intro ⟨_, ⟨_, apart⟩, _⟩ field member other otherMember different
    have symmetric : Std.Symm (Function.onFun List.Disjoint fun field =>
        [fieldNameConstant field, fieldIdConstant field]) := ⟨fun _ _ apart _ last first => apart first last⟩
    have disjoint := (distinct.pairwise_coe.mpr apart) member otherMember different
    exact ⟨fun same => disjoint List.mem_cons_self (by simp [same]), fun same => disjoint List.mem_cons_self (by simp [same])⟩
  · intro apart
    refine ⟨start, ⟨own, distinct.pairwise_of_forall_ne fun field member other otherMember different => ?_⟩, types⟩
    obtain ⟨names, nameAndId⟩ := apart field member other otherMember different
    obtain ⟨_, idAndName⟩ := apart other otherMember field member (Ne.symm different)
    simp [Function.onFun, List.disjoint_left, fieldIdConstant_inj, names, nameAndId, Ne.symm idAndName]

end Naming.Scheme

namespace NodeType

variable {type : NodeType}

theorem nodup_fieldNames (type : NodeType) : type.fieldNames.Nodup := by
  rw [fieldNames, fieldSlots]
  split
  next fields _ => exact fields.distinct
  next => exact List.nodup_nil

theorem getterNames_eq (plain : type.isSupertype = false) :
    type.getterNames = (Scheme.unnamedChildrenGetter? type.hasFields).toList ++
      type.children.toList.map (Scheme.childrenGetter ·.multiple) ++ type.fieldNames.map Scheme.fieldGetter := by
  rw [getterNames, plain, fieldNames, TypeGraph.slots, List.map_append, List.map_map, List.map_map, List.append_assoc]
  cases type.children <;> rfl

private theorem nodup_getterNames_of_plain (plain : type.isSupertype = false) :
    type.getterNames.Nodup ↔ ∀ field ∈ type.fieldNames, ∀ other ∈ type.fieldNames, field ≠ other →
      Scheme.fieldGetter field ≠ Scheme.fieldGetter other := by
  have fields : (type.fieldNames.map Scheme.fieldGetter).Nodup ↔ ∀ field ∈ type.fieldNames,
      ∀ other ∈ type.fieldNames, field ≠ other → Scheme.fieldGetter field ≠ Scheme.fieldGetter other := by
    rw [List.nodup_map_iff_inj_on type.nodup_fieldNames]
    exact forall₄_congr fun _ _ _ _ => not_imp_not.symm
  rw [← fields, getterNames_eq plain]
  constructor
  · exact fun distinct => distinct.sublist (List.sublist_append_right _ _)
  · intro distinct
    rw [List.nodup_append]
    -- Only a type without fields has the getter of unnamed children.
    cases present : type.hasFields with
    | false =>
      have none : type.fieldNames = [] := by simpa [hasFields, fieldNames] using present
      rw [none]
      refine ⟨?_, List.nodup_nil, fun _ _ _ absent => by cases absent⟩
      cases type.children with
      | none => simp [Scheme.unnamedChildrenGetter?]
      | some slot => simpa [Scheme.unnamedChildrenGetter?] using Scheme.childrenGetter_ne_unnamed slot.multiple
    | true =>
      refine ⟨?_, distinct, fun name first other member same => ?_⟩
      · cases type.children <;> simp [Scheme.unnamedChildrenGetter?]
      · obtain ⟨field, _, rfl⟩ := List.mem_map.mp member
        simp only [Scheme.unnamedChildrenGetter?, if_true, Option.toList_none, List.nil_append, List.mem_map] at first
        obtain ⟨slot, _, rfl⟩ := first
        exact Scheme.fieldGetter_ne_childrenGetter field slot.multiple same.symm

theorem nodup_getterNames (bare : type.isSupertype = true → type.fieldNames = []) :
    type.getterNames.Nodup ↔ ∀ field ∈ type.fieldNames, ∀ other ∈ type.fieldNames, field ≠ other →
      Scheme.fieldGetter field ≠ Scheme.fieldGetter other := by
  cases super : type.isSupertype with
  | false => exact nodup_getterNames_of_plain super
  | true =>
    have none : type.getterNames = [] := if_pos super
    rw [none, bare super]
    exact iff_of_true List.nodup_nil (List.forall_mem_nil _)

variable {settings : Settings}

theorem constants_members (bare : type.isSupertype = true → type.fieldNames = []) :
    ((type.members settings).filterMap Member.constant?).map (·.name) =
      [Scheme.typeNameConstant, Scheme.typeIdConstant] ++
        type.fieldNames.flatMap fun field => [Scheme.fieldNameConstant field, Scheme.fieldIdConstant field] := by
  have custom : ∀ methods : List CustomMethod, (methods.map Member.custom).filterMap Member.constant? = [] :=
    fun methods => by simp [List.filterMap_map, Function.comp_def, Member.constant?]
  have unnamed : type.unnamedMembers.filterMap Member.constant? = [] := by
    simp [unnamedMembers, List.filterMap_map, Function.comp_def, Member.constant?]
  have slots : ((slotMembers type).filterMap Member.constant?).map (·.name) =
      type.fieldNames.flatMap fun field => [Scheme.fieldNameConstant field, Scheme.fieldIdConstant field] := by
    rw [slotMembers, List.filterMap_flatMap, List.map_flatMap, TypeGraph.slots, fieldNames]
    simp only [Place.constants_members]
    cases type.children <;> simp [Place.constantNames, List.flatMap_map]
  rw [members]
  split
  next super => simp [baseMembers, custom, bare super, Member.constant?]
  next => simp [baseMembers, custom, unnamed, slots, Member.constant?]

theorem getters_members :
    ((type.members settings).filterMap Member.getter?).map (·.signature.call) = type.getterNames.map (·, []) := by
  have custom : ∀ methods : List CustomMethod, (methods.map Member.custom).filterMap Member.getter? = [] :=
    fun methods => by simp [List.filterMap_map, Function.comp_def, Member.getter?]
  have unnamed : (type.unnamedMembers.filterMap Member.getter?).map (·.signature.call) =
      (Scheme.unnamedChildrenGetter? type.hasFields).toList.map (·, []) := by
    simp [unnamedMembers, List.filterMap_map, Function.comp_def, Member.getter?, Signature.call, Signature.getter]
  have slots : ((slotMembers type).filterMap Member.getter?).map (·.signature.call) =
      (TypeGraph.slots type).map fun (place, slot) => (place.getter slot.multiple, []) := by
    rw [slotMembers, List.filterMap_flatMap, List.map_flatMap]
    simp only [Place.getters_members, List.map_singleton]
    exact List.map_eq_flatMap.symm
  rw [members, getterNames]
  split
  next => simp [baseMembers, List.filterMap_cons, custom, Member.getter?]
  next => simp [baseMembers, List.filterMap_cons, custom, unnamed, slots, Member.getter?, Function.comp_def]

theorem customs_members : (type.members settings).filterMap Member.custom? = settings.customMethods.listed type.name := by
  have custom : ∀ methods : List CustomMethod, (methods.map Member.custom).filterMap Member.custom? = methods :=
    fun methods => by simp [List.filterMap_map, Function.comp_def, Member.custom?]
  have unnamed : type.unnamedMembers.filterMap Member.custom? = [] := by
    simp [unnamedMembers, List.filterMap_map, Function.comp_def, Member.custom?]
  have slots : (slotMembers type).filterMap Member.custom? = [] := by
    rw [slotMembers, List.filterMap_flatMap, List.flatMap_eq_nil_iff]
    exact fun entry _ => Place.customs_members entry
  rw [members]
  split
  next => simp [baseMembers, List.filterMap_cons, custom, Member.custom?]
  next => simp [baseMembers, List.filterMap_cons, custom, unnamed, slots, Member.custom?]

end NodeType

namespace TypeGraph

variable {settings : Settings} {grammar : Grammar} {valid : ValidGrammar}

theorem membersOf_flatMap (types : List NodeType) (f : NodeType → List Member) (name : String) :
    membersOf (types.flatMap fun type => additions type.name (f type)) name =
      (types.filter (·.name = name)).flatMap f := by
  induction types with
  | nil => rfl
  | cons type types ih =>
    rw [List.flatMap_cons, membersOf_append, ih]
    by_cases same : type.name = name
    · subst same
      simp [membersOf_additions]
    · simp [same, membersOf_additions_of_ne same]

/-- The members of a type are those of the one node type with its name. -/
theorem membersOf_builtMembers (parts : Grammar.Parts grammar.namedNodes valid.regular valid.supertypes) (name : String) :
    membersOf (builtMembers settings valid) name =
      (grammar.namedNodes.filter (·.name = name)).flatMap (·.members settings) := by
  have regular : valid.regular.filter (·.name = name) =
      (grammar.namedNodes.filter (·.name = name)).filter (!·.isSupertype) := by
    rw [parts.plain, List.filter_comm]
  have supertypes : valid.supertypes.filter (·.name = name) =
      (grammar.namedNodes.filter (·.name = name)).filter (·.isSupertype) := by
    rw [parts.super, List.filter_comm]
  rw [builtMembers, membersOf_append, membersOf_append, membersOf_flatMap, membersOf_flatMap, membersOf_flatMap, regular,
    supertypes]
  by_cases known : name ∈ grammar.namedNodes.map (·.name)
  · obtain ⟨type, member, rfl⟩ := List.mem_map.mp known
    rw [Distinct.filter_eq_singleton parts.distinct member]
    cases super : type.isSupertype <;> simp [super, NodeType.members]
  · have none : grammar.namedNodes.filter (·.name = name) = [] := by
      rw [List.filter_eq_nil_iff]
      exact fun type member same => known (List.mem_map.mpr ⟨type, member, of_decide_eq_true same⟩)
    rw [none]
    rfl

theorem collisionFree_of_has_nil {graph : TypeGraph} {id : TypeId} (has : (graph.node id).Has []) :
    (graph.declaration id).CollisionFree := by
  have getters : (graph.node id).methods.filter (·.kind ≠ .custom) = [] := List.map_eq_nil_iff.mp has.getters
  constructor
  · rw [declaration, has.constants]
    exact List.nodup_nil
  · rw [Declaration.calls, declaration, has.customMethods, getters]
    exact List.nodup_nil

theorem collisionFree_iff_of_has {graph : TypeGraph} {id : TypeId} {type : NodeType}
    (bare : type.isSupertype = true → type.fieldNames = []) (has : (graph.node id).Has (type.members settings)) :
    (graph.declaration id).CollisionFree ↔ type.Separated settings.customMethods := by
  have constants : (graph.declaration id).constants.map (·.name) =
      [Scheme.typeNameConstant, Scheme.typeIdConstant] ++
        type.fieldNames.flatMap fun field => [Scheme.fieldNameConstant field, Scheme.fieldIdConstant field] := by
    rw [← NodeType.constants_members bare, ← has.constants]
    rfl
  have calls : (graph.declaration id).calls = type.getterNames.map (·, []) ++
      (settings.customMethods.listed type.name).map (·.method.signature.call) := by
    rw [← NodeType.getters_members, ← has.getters, ← NodeType.customs_members, ← has.customMethods, List.map_map,
      Declaration.calls, List.map_append, List.map_map]
    rfl
  have getters : (type.getterNames.map fun name => (name, ([] : List JavaType))).Nodup ↔
      ∀ field ∈ type.fieldNames, ∀ other ∈ type.fieldNames, field ≠ other →
        Scheme.fieldGetter field ≠ Scheme.fieldGetter other := by
    rw [List.nodup_map_iff fun _ _ same => congrArg Prod.fst same, NodeType.nodup_getterNames bare]
  constructor
  · intro ⟨distinct, distinctCalls⟩
    rw [constants, Scheme.nodup_constants type.nodup_fieldNames] at distinct
    rw [calls, List.nodup_append, getters] at distinctCalls
    obtain ⟨distinctGetters, custom, apart⟩ := distinctCalls
    refine ⟨fun field member other otherMember different => ?_, custom, fun getter member method listed same => ?_⟩
    · obtain ⟨names, ids⟩ := distinct field member other otherMember different
      exact ⟨names, ids, distinctGetters field member other otherMember different⟩
    · exact apart _ (List.mem_map_of_mem member) _ (List.mem_map_of_mem listed) same.symm
  · intro separated
    constructor
    · rw [constants, Scheme.nodup_constants type.nodup_fieldNames]
      intro field member other otherMember different
      obtain ⟨names, ids, _⟩ := separated.fields field member other otherMember different
      exact ⟨names, ids⟩
    · rw [calls, List.nodup_append, getters]
      refine ⟨fun field member other otherMember different => ?_, separated.custom, fun call first other last same => ?_⟩
      · exact (separated.fields field member other otherMember different).2.2
      · obtain ⟨getter, member, rfl⟩ := List.mem_map.mp first
        obtain ⟨method, listed, rfl⟩ := List.mem_map.mp last
        exact separated.apart getter member method listed same.symm

end TypeGraph

theorem Grammar.Parts.fieldNames_of_supertype {grammar : Grammar} {valid : ValidGrammar}
    (parts : Grammar.Parts grammar.namedNodes valid.regular valid.supertypes) {type : NodeType}
    (member : type ∈ grammar.namedNodes) (super : type.isSupertype = true) : type.fieldNames = [] := by
  have listed : type ∈ valid.supertypes := by
    rw [parts.super]
    exact List.mem_filter.mpr ⟨member, super⟩
  rw [NodeType.fieldNames, (parts.bare type listed).fields, List.map_nil]

/-- The members of a generated type do not collide exactly if those are told apart that its node type asks for. -/
theorem generate_collisionFree_iff (grammar : Grammar) (config : Config) (model : Model)
    (generated : generate grammar config = .ok model) :
    ∀ declaration ∈ model.declarations, declaration.CollisionFree ↔
      ∀ type ∈ grammar.namedNodes, type.name = declaration.identity → type.Separated config.customMethods := by
  obtain ⟨graph, run, written⟩ := bind_eq_ok.mp generated
  obtain ⟨scheme, valid, plain, final, _, validated, built, resolves, _⟩ := exists_resolves_of_buildGraph run
  have parts := Grammar.parts_of_validate validated
  have filled := (TypeGraph.steps_of_build built).reached.filled
  obtain ⟨order, all, _, declarations⟩ := TypeGraph.exists_order written
  rw [declarations, List.forall_mem_map]
  intro id listed
  have inside : id ∈ plain.ids := resolves.ids ▸ all.mem_iff.mp listed
  have has : (graph.node id).Has ((grammar.namedNodes.filter (·.name = (graph.node id).identity)).flatMap
      (·.members (config.settings scheme grammar))) := by
    rw [← TypeGraph.membersOf_builtMembers parts, resolves.node]
    obtain ⟨constants, getters, customMethods, customKind⟩ := filled.has id inside
    exact ⟨constants, getters, customMethods, customKind⟩
  by_cases known : ∃ type ∈ grammar.namedNodes, type.name = (graph.node id).identity
  · obtain ⟨type, member, named⟩ := known
    rw [← named, Distinct.filter_eq_singleton parts.distinct member, List.flatMap_singleton] at has
    rw [TypeGraph.collisionFree_iff_of_has (parts.fieldNames_of_supertype member) has]
    constructor
    · intro separated other otherMember same
      cases List.inj_on_of_nodup_map parts.distinct member otherMember (named.trans same.symm)
      exact separated
    · exact fun each => each type member named
  · have none : grammar.namedNodes.filter (·.name = (graph.node id).identity) = [] := by
      rw [List.filter_eq_nil_iff]
      exact fun type member same => known ⟨type, member, of_decide_eq_true same⟩
    rw [none] at has
    exact iff_of_true (TypeGraph.collisionFree_of_has_nil has) fun type member same => absurd ⟨type, member, same⟩ known

def Model.collisionFree (model : Model) : List (String × Bool) :=
  model.declarations.map fun declaration => (declaration.name.simpleName, decide declaration.CollisionFree)

theorem generate_collisionFree_calls :
    ∃ model, generate calls callsConfig = .ok model ∧
      model.collisionFree = [("NodeExpression", true), ("NodeCall", true), ("FieldTarget", true),
        ("FieldTokenTarget", true), ("NodeName", true)] ∧
      ∀ declaration ∈ model.declarations, declaration.CollisionFree ↔
        ∀ type ∈ calls.namedNodes, type.name = declaration.identity → type.Separated callsConfig.customMethods := by
  have free : (generate calls callsConfig).toOption.map Model.collisionFree = some [("NodeExpression", true),
      ("NodeCall", true), ("FieldTarget", true), ("FieldTokenTarget", true), ("NodeName", true)] := by
    decide +kernel
  obtain ⟨model, generated, told⟩ := exists_ok_of_map free
  exact ⟨model, generated, told, generate_collisionFree_iff calls callsConfig model generated⟩

/-- The name of one field is that of the other one with `id` behind it. -/
def targets : Grammar where
  nodeTypes := [
    { name := "call", named := true, extra := false, root := false, children := none, subtypes := none
      fields := some (.ofList [("target", ⟨false, true, [⟨"call", true⟩]⟩),
        ("target_id", ⟨false, true, [⟨"call", true⟩]⟩)]) }]

theorem collision_targets :
    ∃ model, generate targets .default = .ok model ∧
      ∃ declaration ∈ model.declarations, declaration.constants.map (·.name) =
          ["TYPE_NAME", "TYPE_ID", "FIELD_TARGET", "FIELD_TARGET_ID", "FIELD_TARGET_ID", "FIELD_TARGET_ID_ID"] ∧
        ¬ declaration.CollisionFree := by
  have names : (generate targets .default).toOption.map (fun model =>
      model.declarations.map (·.constants.map (·.name))) =
        some [["TYPE_NAME", "TYPE_ID", "FIELD_TARGET", "FIELD_TARGET_ID", "FIELD_TARGET_ID", "FIELD_TARGET_ID_ID"]] := by
    decide +kernel
  obtain ⟨model, generated, single⟩ := exists_ok_of_map names
  obtain ⟨declaration, declarations, constants⟩ := List.map_eq_singleton_iff.mp single
  refine ⟨model, generated, declaration, by rw [declarations]; exact List.mem_singleton_self _, constants, fun free => ?_⟩
  have distinct := free.constants
  rw [constants] at distinct
  revert distinct
  decide

end TypedTree
