import TypedTree.Proofs.EmittedModels
import TypedTree.Proofs.TypeIdentities
import TypedTree.Proofs.ValidGrammars

/-! How building fails: not by a type that is there already, not by a token that is named, and not by a name that can be
declared. Before an identity is taken twice, a name is. -/

namespace TypedTree

open ListEffects (Avoids avoids_ok avoids_error avoids_foldlM bind_eq_ok foldlM_invariant)
open Naming (Names)

def Error.isDuplicateType : Error → Bool
  | .duplicateType _ => true
  | _ => false

def Error.isUnmapped : Error → Bool
  | .unmappedTokens _ => true
  | _ => false

def Error.isInvalidName : Error → Bool
  | .invalidName _ _ => true
  | _ => false

/-- Errors of which all are due to a type that is there already, to tokens without a name, or to a name that cannot be
declared. -/
def Rare (bad : Error → Prop) : Prop :=
  ∀ error, error.isDuplicateType = false → error.isUnmapped = false → error.isInvalidName = false → ¬ bad error

section

variable {α : Type} {settings : Settings} {bad : Error → Prop}

/-- A run that adds no type twice. -/
abbrev AddsOnce (run : Except Error α) : Prop := Avoids (·.isDuplicateType = true) run

/-- The flaw of a name is no such error. -/
def Excused (bad : Error → Prop) (name : String) : Prop :=
  ∀ flaw, Java.typeNameFlaw? name = some flaw → ¬ bad (.invalidName name flaw)

/-- A name that is of no use for a member is of no use for a type. -/
theorem typeNameFlaw?_of_member {name : String} {flaw : Java.NameFlaw} (flawed : Java.memberNameFlaw? name = some flaw) :
    Java.typeNameFlaw? name = some flaw := by
  rw [Java.typeNameFlaw?, flawed]

theorem avoids_memberName {name : String} (excused : Excused bad name) : Avoids bad (Names.memberName name) := by
  rw [Names.memberName]
  split
  next flaw flawed => exact avoids_error (excused flaw (typeNameFlaw?_of_member flawed))
  next => exact avoids_ok _

theorem avoids_typeName {name : String} (excused : Excused bad name) : Avoids bad (Names.typeName name) := by
  rw [Names.typeName]
  split
  next flaw flawed => exact avoids_error (excused flaw flawed)
  next => exact avoids_ok _

theorem avoids_className (rare : Rare bad) {names : Names} {type : String}
    (excused : ∀ classes name, names.classes = .ok classes → classes.get? type = some name → Excused bad name) :
    Avoids bad (names.className type) := by
  rw [Names.className]
  split
  next => exact avoids_error (rare _ rfl rfl rfl)
  next classes assigned =>
    split
    next => exact avoids_error (rare _ rfl rfl rfl)
    next name found => exact avoids_typeName (excused classes name assigned found)

theorem avoids_tokenName {names : Naming.TokenNames} {use : TokenUse}
    (mapped : names.exhaustive = true → names.lookup? use = none → ¬ bad (.unmappedTokens [use])) (index : Nat) :
    Avoids bad (names.name use index) := by
  rw [Naming.TokenNames.name]
  split
  next => exact avoids_ok _
  next unmapped =>
    split
    next exhaustive => exact avoids_error (mapped exhaustive unmapped)
    next => exact avoids_ok _

theorem avoids_typeOfText (rare : Rare bad) (text : String) : Avoids bad (typeOfText text) := by
  rw [typeOfText]
  cases Java.JavaType.ofText text with
  | error => exact avoids_error (rare _ rfl rfl rfl)
  | ok type => exact avoids_ok _

theorem avoids_receiver (rare : Rare bad) (text : String) : Avoids bad (Receiver.ofText text) := by
  rw [Receiver.ofText]
  split
  · exact avoids_error (rare _ rfl rfl rfl)
  · split
    · exact avoids_error (rare _ rfl rfl rfl)
    · exact avoids_ok _

theorem avoids_returns (rare : Rare bad) (description : MethodDescription) : Avoids bad description.returns := by
  rw [MethodDescription.returns]
  split
  · exact avoids_ok _
  · exact avoids_ok _
  · exact (avoids_typeOfText rare _).bind fun _ _ => avoids_ok _

theorem name_of_toMethod {description : MethodDescription} {custom : CustomMethod}
    (run : description.toMethod = .ok custom) : custom.method.signature.name = description.name := by
  obtain ⟨_, _, run⟩ := bind_eq_ok.mp run
  obtain ⟨_, _, run⟩ := bind_eq_ok.mp run
  obtain ⟨_, _, run⟩ := bind_eq_ok.mp run
  obtain ⟨_, _, run⟩ := bind_eq_ok.mp run
  cases run
  rfl

theorem avoids_toMethod (rare : Rare bad) (description : MethodDescription) : Avoids bad description.toMethod := by
  have bounds : ∀ described : VariableDescription, Avoids bad (described.bounds.mapM typeOfText) :=
    fun described => .mapM fun text _ => avoids_typeOfText rare text
  have receiver : Avoids bad (description.receiver.mapM Receiver.ofText) := by
    cases description.receiver with
    | none => exact avoids_ok _
    | some text => exact (avoids_receiver rare text).bind fun _ _ => avoids_ok _
  refine .bind (.mapM fun described _ => (bounds described).bind fun _ _ => avoids_ok _) fun _ _ => ?_
  refine .bind (.mapM fun parameter _ => (avoids_typeOfText rare _).bind fun _ _ => avoids_ok _) fun _ _ => ?_
  exact (avoids_returns rare description).bind fun _ _ => receiver.bind fun _ _ => avoids_ok _

end

namespace TypeGraph

variable {settings : Settings} {grammar : ValidGrammar} {bad : Error → Prop}

/-- A name that is checked before something is built with it. -/
inductive Proposes (settings : Settings) (grammar : ValidGrammar) : String → Prop
  | nodeType {type : NodeType} {classes : Naming.ClassTable} {name : String}
      (member : type ∈ grammar.regular ++ grammar.supertypes) (assigned : settings.names.classes = .ok classes)
      (found : classes.get? type.name = some name) : Proposes settings grammar name
  | custom {owner : String} {description : MethodDescription}
      (configured : description ∈ (settings.customMethods.nodeTypes.get? owner).getD []) :
      Proposes settings grammar description.name
  | fieldName {type : NodeType} {field : String} {slot : Slot} (member : type ∈ grammar.regular)
      (listed : (.field field, slot) ∈ slots type) : Proposes settings grammar (Naming.Scheme.fieldNameConstant field)
  | fieldId {type : NodeType} {field : String} {slot : Slot} (member : type ∈ grammar.regular)
      (listed : (.field field, slot) ∈ slots type) : Proposes settings grammar (Naming.Scheme.fieldIdConstant field)
  | getter {type : NodeType} {place : Place} {slot : Slot} (member : type ∈ grammar.regular)
      (listed : (place, slot) ∈ slots type) : Proposes settings grammar (place.getter slot.multiple)
  | slotType {type : NodeType} {place : Place} {slot : Slot} (member : type ∈ grammar.regular)
      (listed : (place, slot) ∈ slots type) (kind : TypeKind) : Proposes settings grammar (place.typeName kind)
  | token {identity name : String} {use : TokenUse} {index : Nat} (used : Uses grammar identity use index)
      (named : settings.names.scheme.tokens.name use index = .ok name) : Proposes settings grammar name

/-- Errors that building has no grounds for: types are not there already, tokens are named, and names can be declared. -/
structure Groundless (settings : Settings) (grammar : ValidGrammar) (bad : Error → Prop) : Prop where
  rare : Rare bad
  once : ∀ name, bad (.duplicateType name) →
    Unmarked settings ∧ ((grammar.regular ++ grammar.supertypes).map (·.name)).Nodup
  named : ∀ identity use index, Uses grammar identity use index →
    Avoids bad (settings.names.scheme.tokens.name use index)
  excused : ∀ name, Proposes settings grammar name → Excused bad name

variable {graph after : TypeGraph} {id parent : TypeId} {kind : TypeKind} {owner : String} {place : Place} {type : NodeType}
  {slot : Slot}

theorem avoids_lookup (rare : Rare bad) (name referencedBy : String) :
    Avoids bad (graph.lookup settings name referencedBy) := by
  rw [lookup]
  split
  · exact avoids_ok _
  · exact avoids_error (rare _ rfl rfl rfl)

theorem avoids_addNode {identity : String} (free : bad (.duplicateType identity) → graph.id? identity = none)
    (name : Java.ClassName) : Avoids bad (graph.addNode identity name kind) := by
  rw [addNode]
  split
  next taken =>
    refine avoids_error fun again => ?_
    rw [free again] at taken
    cases taken
  next => exact avoids_ok _

theorem avoids_addCustomMethods (groundless : Groundless settings grammar bad) :
    Avoids bad (graph.addCustomMethods settings id owner) := by
  refine .bind (.mapM fun description _ => avoids_toMethod groundless.rare description) fun methods described => ?_
  refine .foldlM (fun custom inside state => (avoids_memberName ?_).bind fun _ _ => avoids_ok _) _
  obtain ⟨description, configured, converted⟩ := ListEffects.mem_of_mapM_eq_ok described inside
  rw [name_of_toMethod converted]
  exact groundless.excused _ (.custom configured)

theorem avoids_addNodeType (groundless : Groundless settings grammar bad)
    (member : type ∈ grammar.regular ++ grammar.supertypes)
    (free : bad (.duplicateType type.name) → graph.id? type.name = none) :
    Avoids bad (addNodeType settings kind graph type) := by
  have named : Avoids bad (settings.names.className type.name) :=
    avoids_className groundless.rare fun _ _ assigned found => groundless.excused _ (.nodeType member assigned found)
  refine named.bind fun name _ => (avoids_addNode free _).bind ?_
  rintro ⟨first, id⟩ -
  dsimp only
  split
  · exact avoids_addCustomMethods groundless
  · exact avoids_addCustomMethods groundless

theorem avoids_addSubtypes (rare : Rare bad) : Avoids bad (addSubtypes settings graph type) := by
  refine (avoids_lookup rare _ _).bind fun supertype _ => ?_
  exact .foldlM (fun mention _ state => (avoids_lookup rare _ _).bind fun _ _ => avoids_ok _) _

/-- Two types of slots with one identity have one name, and that a name is reserved is found out first. -/
theorem avoids_addNested (groundless : Groundless settings grammar bad) (formed : Formed settings grammar graph)
    (proposed : Proposes settings grammar (place.typeName kind)) (slot : kind.isNodeType = false)
    (declared : place.Declared) (enclosing : TypeOf graph .regular owner parent) :
    Avoids bad (graph.addNested parent (place.typeName kind) (place.typeIdentity owner kind) kind) := by
  obtain ⟨inside, regular, rfl⟩ := enclosing
  refine (avoids_typeName (groundless.excused _ proposed)).bind fun simple usable => ?_
  obtain rfl := (Naming.typeName_eq_ok usable).1
  split
  · exact avoids_error (groundless.rare _ rfl rfl rfl)
  next free =>
    refine avoids_addNode (fun again => ?_) _
    exact formed.id?_typeIdentity (groundless.once _ again).1 slot declared inside regular free

theorem avoids_addSlotToken (groundless : Groundless settings grammar bad) {identity parent field token : String}
    {index : Nat} (used : Uses grammar identity ⟨parent, field, token⟩ index) :
    Avoids bad (addSlotToken settings parent field id graph (token, index)) := by
  refine (groundless.named _ _ _ used).bind fun name named => ?_
  refine (avoids_memberName (groundless.excused _ (.token used named))).bind fun _ _ => ?_
  dsimp only
  split
  · exact avoids_error (groundless.rare _ rfl rfl rfl)
  · split
    · exact avoids_error (groundless.rare _ rfl rfl rfl)
    · exact avoids_ok _

theorem avoids_addTokens (groundless : Groundless settings grammar bad) (formed : Formed settings grammar graph)
    (member : type ∈ grammar.regular) (listed : (place, slot) ∈ slots type) (declared : place.Declared)
    (enclosing : TypeOf graph .regular type.name parent) : Avoids bad (addTokens settings parent type place slot graph) := by
  rw [addTokens]
  split
  · exact avoids_ok _
  · have nested : Avoids bad (graph.addNested parent (place.typeName .tokens) (place.typeIdentity type.name .tokens)
        .tokens) := avoids_addNested groundless formed (.slotType member listed .tokens) rfl declared enclosing
    refine nested.bind ?_
    rintro ⟨first, id⟩ -
    refine Avoids.bind (.foldlM (fun entry indexed _ => ?_) _) fun _ _ => avoids_ok _
    obtain ⟨token, index⟩ := entry
    exact avoids_addSlotToken groundless (.slot member listed indexed)

theorem avoids_addInterface (groundless : Groundless settings grammar bad) (formed : Formed settings grammar graph)
    (member : type ∈ grammar.regular) (listed : (place, slot) ∈ slots type) (declared : place.Declared)
    (enclosing : TypeOf graph .regular type.name parent) (tokens : Option TypeId) :
    Avoids bad (addInterface settings parent type place slot tokens graph) := by
  have nested : Avoids bad (graph.addNested parent (place.typeName .childTypes) (place.typeIdentity type.name .childTypes)
      .childTypes) := avoids_addNested groundless formed (.slotType member listed .childTypes) rfl declared enclosing
  refine nested.bind ?_
  rintro ⟨first, id⟩ -
  refine Avoids.bind (.foldlM (fun name _ state => ?_) _) fun filled _ => ?_
  · exact (avoids_lookup groundless.rare _ _).bind fun _ _ => avoids_ok _
  · cases tokens with
    | none => exact avoids_ok _
    | some tokens => exact avoids_ok _

theorem avoids_addTarget (groundless : Groundless settings grammar bad) (formed : Formed settings grammar graph)
    (member : type ∈ grammar.regular) (listed : (place, slot) ∈ slots type) (declared : place.Declared)
    (enclosing : TypeOf graph .regular type.name parent) (ancestry : Java.Ancestry) :
    Avoids bad (addTarget settings ancestry parent type place slot graph) := by
  rw [addTarget]
  split
  · exact (avoids_lookup groundless.rare _ _).bind fun _ _ => avoids_ok _
  · refine (avoids_addTokens groundless formed member listed declared enclosing).bind ?_
    rintro ⟨first, tokens⟩ added
    have steps : Steps settings grammar graph [] first := (steps_addTokens member listed declared enclosing added).1
    dsimp only
    split
    · exact avoids_ok _
    · exact (avoids_addInterface groundless (steps.formed formed) member listed declared
        (enclosing.keep steps.keeps) _).bind fun _ _ => avoids_ok _

theorem avoids_addFieldConstants (groundless : Groundless settings grammar bad) (member : type ∈ grammar.regular)
    (listed : (place, slot) ∈ slots type) : Avoids bad (graph.addFieldConstants parent place) := by
  cases place with
  | children => exact avoids_ok _
  | field name =>
    exact (avoids_memberName (groundless.excused _ (.fieldName member listed))).bind fun _ _ =>
      (avoids_memberName (groundless.excused _ (.fieldId member listed))).bind fun _ _ => avoids_ok _

theorem avoids_addAccessor (groundless : Groundless settings grammar bad) (formed : Formed settings grammar graph)
    (member : type ∈ grammar.regular) (enclosing : TypeOf graph .regular type.name parent) (known : Java.Ancestry)
    {entry : Place × Slot} (listed : entry ∈ slots type) :
    Avoids bad (addAccessor settings known parent type graph entry) := by
  obtain ⟨place, slot⟩ := entry
  rw [addAccessor]
  dsimp only
  split
  · exact avoids_error (groundless.rare _ rfl rfl rfl)
  · refine (avoids_addFieldConstants groundless member listed).bind fun first constants =>
      (avoids_memberName (groundless.excused _ (.getter member listed))).bind fun _ _ => ?_
    have start : Extends settings grammar graph .regular type.name parent ([] ++ place.constants) first :=
      enclosing.extends.addFieldConstants constants
    exact (avoids_addTarget groundless (start.steps.formed formed) member listed (declared_of_addFieldConstants constants)
      start.typeOf known).bind fun _ _ => avoids_ok _

theorem avoids_addAccessors (groundless : Groundless settings grammar bad) (formed : Formed settings grammar graph)
    (complete : Complete grammar graph) (member : type ∈ grammar.regular) (known : Java.Ancestry) :
    Avoids bad (addAccessors settings known graph type) := by
  refine (avoids_lookup groundless.rare _ _).bind fun parent found => ?_
  have enclosing := typeOf_of_lookup formed complete (show type.name ∈ grammar.names .regular from
    List.mem_map_of_mem member) found
  refine avoids_foldlM (fun _ state => ∃ members, Extends settings grammar graph .regular type.name parent members state)
    ⟨[], enclosing.extends⟩ ?_
  rintro done entry rest state split ⟨members, extension⟩
  have listed : entry ∈ slots type := by
    rw [split]
    exact List.mem_append_right _ List.mem_cons_self
  exact ⟨avoids_addAccessor groundless (extension.steps.formed formed) member extension.typeOf known listed,
    fun next run => ⟨_, extension.addAccessor formed complete member listed run⟩⟩

/-- Only these names lead to types. -/
def OnlyHas (graph : TypeGraph) (types : List NodeType) : Prop :=
  ∀ name id, graph.id? name = some id → name ∈ types.map (·.name)

namespace OnlyHas

variable {types before : List NodeType}

theorem addNodeType (only : graph.OnlyHas before) (run : addNodeType settings kind graph type = .ok after) :
    after.OnlyHas (before ++ [type]) := by
  intro name id found
  obtain ⟨_, first, new, addition, fills⟩ := fills_addNodeType .empty run
  rw [id?, fills.index, byIdentity_of_addNode addition, Table.get?_insert] at found
  rw [List.map_append, List.mem_append]
  split at found
  next same => exact Or.inr (List.mem_singleton.mpr same.symm)
  next => exact Or.inl (only name id found)

theorem addNodeTypes (only : graph.OnlyHas before)
    (run : types.foldlM (TypeGraph.addNodeType settings kind) graph = .ok after) : after.OnlyHas (before ++ types) := by
  refine foldlM_invariant (fun done state => state.OnlyHas (before ++ done)) (by rwa [List.append_nil]) ?_ run
  intro done type state next _ known added
  rw [← List.append_assoc]
  exact known.addNodeType added

/-- While node types are added, the graph has none but those. -/
theorem avoids (groundless : Groundless settings grammar bad) (only : graph.OnlyHas before)
    (members : ∀ type ∈ types, type ∈ grammar.regular ++ grammar.supertypes)
    (distinct : ∀ name, bad (.duplicateType name) → ((before ++ types).map (·.name)).Nodup) :
    Avoids bad (types.foldlM (TypeGraph.addNodeType settings kind) graph) := by
  refine avoids_foldlM (fun done state => state.OnlyHas (before ++ done)) (by rwa [List.append_nil]) ?_
  intro done type rest state split known
  constructor
  · have member := members type (by simp [split])
    refine avoids_addNodeType groundless member fun again => Option.eq_none_iff_forall_ne_some.mpr fun id found => ?_
    have distinct := distinct _ again
    rw [split, ← List.append_assoc, List.map_append, List.map_cons, List.nodup_append] at distinct
    exact distinct.2.2 _ (known _ id found) _ List.mem_cons_self rfl
  · intro next run
    rw [← List.append_assoc]
    exact known.addNodeType run

end OnlyHas

/-- Building does not fail without grounds. -/
theorem avoids_build (groundless : Groundless settings grammar bad) : Avoids bad (build settings grammar) := by
  have rare := groundless.rare
  have once := groundless.once
  have customTypes : Avoids bad (checkCustomTypes settings grammar) := by
    rw [checkCustomTypes]
    split
    · exact avoids_error (rare _ rfl rfl rfl)
    · exact avoids_ok _
  have regularOnly : ∀ name, bad (.duplicateType name) → ((([] : List NodeType) ++ grammar.regular).map (·.name)).Nodup := by
    intro name again
    have distinct := (once name again).2
    rw [List.map_append] at distinct
    exact (List.nodup_append.mp distinct).1
  have nothing : empty.OnlyHas [] := nofun
  have regular : Avoids bad (grammar.regular.foldlM (addNodeType settings .regular) empty) :=
    nothing.avoids groundless (fun _ => List.mem_append_left _) regularOnly
  refine customTypes.bind fun _ _ => regular.bind fun regular regularRun => ?_
  refine ((nothing.addNodeTypes regularRun).avoids groundless (fun _ => List.mem_append_right _)
    fun name again => (once name again).2).bind fun named namedRun => ?_
  obtain ⟨nodes, complete⟩ := steps_of_nodeTypes regularRun namedRun
  have formed := nodes.formed formed_empty
  refine Avoids.bind (.foldlM (fun _ _ _ => avoids_addSubtypes rare) _) fun layered edges => ?_
  have third := steps_of_subtypes formed complete edges
  refine Avoids.bind ?_ fun filled _ => ?_
  · refine avoids_foldlM (fun _ state => ∃ all, Steps settings grammar named all state) ⟨_, third⟩ ?_
    rintro done type rest state split ⟨all, steps⟩
    have member : type ∈ grammar.regular := by
      rw [split]
      exact List.mem_append_right _ List.mem_cons_self
    have reached := steps.formed formed
    have present := complete.keep steps.keeps
    exact ⟨avoids_addAccessors groundless reached present member _,
      fun next run => ⟨_, steps.trans (steps_addAccessors reached present member run)⟩⟩
  · split
    · exact (avoids_lookup rare _ _).bind fun _ _ => avoids_ok _
    · exact avoids_ok _

theorem addsOnce_build (unmarked : Unmarked settings)
    (distinct : ((grammar.regular ++ grammar.supertypes).map (·.name)).Nodup) : AddsOnce (build settings grammar) := by
  refine avoids_build ⟨fun error once _ _ again => ?_, fun _ _ => ⟨unmarked, distinct⟩, fun _ _ index _ => ?_,
    fun _ _ _ _ => Bool.false_ne_true⟩
  · rw [once] at again
    cases again
  · exact avoids_tokenName (fun _ _ => Bool.false_ne_true) index

/-- Building names all tokens if they have entries in the table. -/
theorem avoids_unmapped (mapped : ∀ identity use index, Uses grammar identity use index →
    settings.names.scheme.tokens.lookup? use ≠ none) : Avoids (·.isUnmapped = true) (build settings grammar) := by
  refine avoids_build ⟨fun error _ named _ unmapped => ?_, fun _ again => ?_, fun identity use index used => ?_,
    fun _ _ _ _ => Bool.false_ne_true⟩
  · rw [named] at unmapped
    cases unmapped
  · cases again
  · exact avoids_tokenName (fun _ absent => absurd absent (mapped identity use index used)) index

/-- Building refuses a name only if it proposes it itself. -/
theorem proposes_of_build {name : String} {flaw : Java.NameFlaw}
    (failed : build settings grammar = .error (.invalidName name flaw)) :
    Proposes settings grammar name ∧ Java.typeNameFlaw? name = some flaw := by
  let founded (error : Error) : Prop := ∀ name flaw, error = .invalidName name flaw →
    Proposes settings grammar name ∧ Java.typeNameFlaw? name = some flaw
  have avoids : Avoids (fun error => ¬ founded error) (build settings grammar) := by
    refine avoids_build ⟨fun error _ _ valid => not_not_intro ?_, fun _ again => absurd nofun again, fun _ _ index _ => ?_,
      fun name proposed flaw flawed => not_not_intro ?_⟩
    · rintro name flaw rfl
      cases valid
    · exact avoids_tokenName (fun _ _ => not_not_intro nofun) index
    · rintro _ _ ⟨⟩
      exact ⟨proposed, flawed⟩
  exact Classical.not_not.mp (avoids _ failed) name flaw rfl

variable {config : Config} {scheme : Naming.Scheme} {valid : ValidGrammar}

/-- For a valid grammar and any configuration, building adds no type twice, and the types that are built cannot be taken
for one another. -/
theorem build_unambiguous {grammar : Grammar} (named : config.scheme = .ok scheme)
    (validated : grammar.validate config.rootNode = .ok valid) :
    (∀ name, build (config.settings scheme grammar) valid ≠ .error (.duplicateType name)) ∧
      ∀ graph, build (config.settings scheme grammar) valid = .ok graph → graph.Unambiguous := by
  constructor
  · intro name failed
    have distinct := (Grammar.parts_of_validate validated).distinct_parts
    exact addsOnce_build (unmarked_settings named grammar) distinct _ failed rfl
  · exact fun graph run => unambiguous_of_build (distinctClasses_settings config scheme grammar) run

/-- One node type, called like the slots of another, and a pattern that leaves its name out of the name of the class. -/
def starred : Grammar where
  nodeTypes := [
    { name := "a.*", named := true, extra := false, root := false, subtypes := none
      children := some ⟨true, false, [⟨"a.*", true⟩, ⟨"#tokens", false⟩]⟩
      fields := some (.ofList [("x", ⟨false, true, [⟨"+", false⟩, ⟨"-", false⟩]⟩)]) }]

def starredConfig : Config := { Config.default with typeNamePattern := some "Only" }

def starredScheme : Naming.Scheme := ⟨.automatic, some ⟨"Only", [.literal "Only".toList]⟩⟩

theorem scheme_starredConfig : starredConfig.scheme = .ok starredScheme := by
  have pieces : Naming.NamePattern.readPieces Naming.typePlaceholders "Only".toList = .ok [.literal "Only".toList] := by
    rw [Naming.NamePattern.readPieces]
    rfl
  have pattern : Naming.NamePattern.read Naming.typePlaceholders "Only" = .ok ⟨"Only", [.literal "Only".toList]⟩ := by
    rw [Naming.NamePattern.read, pieces]
    rfl
  show ((⟨.automatic, none⟩ : Naming.Scheme).withPattern "Only").mapError Error.invalidPattern = _
  rw [Naming.Scheme.withPattern, pattern]
  rfl

theorem build_unambiguous_starred :
    starredConfig.scheme = .ok starredScheme ∧ ∃ valid graph, starred.validate starredConfig.rootNode = .ok valid ∧
      build (starredConfig.settings starredScheme starred) valid = .ok graph ∧
        graph.ids.map (fun id => (graph.node id).identity) = ["a.*", "a.*.*#tokens", "a.*.*", "a.*.x#tokens"] ∧
          graph.Unambiguous := by
  have told : (starred.validate starredConfig.rootNode >>= build (starredConfig.settings starredScheme starred)).toOption.map
      (fun graph => graph.ids.map fun id => (graph.node id).identity) =
        some ["a.*", "a.*.*#tokens", "a.*.*", "a.*.x#tokens"] := by
    decide +kernel
  obtain ⟨graph, run, identities⟩ := ListEffects.exists_ok_of_map told
  obtain ⟨valid, validated, built⟩ := bind_eq_ok.mp run
  exact ⟨scheme_starredConfig, valid, graph, validated, built, identities,
    (build_unambiguous scheme_starredConfig validated).2 graph built⟩

end TypeGraph

end TypedTree
