import TypedTree.Proofs.DefaultNames
import TypedTree.Proofs.RenamedTokens
import TypedTree.Proofs.TokenCoverage

/-! The skeleton of a table of token names. It has the default names of all tokens of a grammar, under the numbers that
they get when no table is there, so that nothing changes when it is used as it is. -/

namespace TypedTree

open ListEffects (bind_eq_ok)

namespace Naming

/-- The names that a table has for the tokens of a field. -/
def namesAt (table : TokenTable) (parent field : String) : Table String String :=
  ((table.get? parent).bind (·.get? field)).getD .empty

/-- Adds a token with its default name, numbered behind those that are there. -/
def addNumbered (tokens : Table String String) (token : String) : Table String String :=
  tokens.insert token (defaultTokenName token tokens.size)

def addUse (table : TokenTable) (use : TokenUse) : TokenTable :=
  table.update use.parent fun fields =>
    (fields.getD .empty).update use.field fun tokens => addNumbered (tokens.getD .empty) use.token

theorem skeleton_eq (grammar : Grammar) : skeleton grammar = grammar.tokenUses.foldl addUse .empty := rfl

variable {parent field token name : String}

theorem entry?_eq (names : TokenNames) (parent field token : String) :
    names.entry? parent field token = (namesAt names.table parent field).get? token := by
  rw [namesAt, TokenNames.entry?]
  cases names.table.get? parent with
  | none => rfl
  | some fields =>
    change (fields.get? field >>= fun tokens => tokens.get? token) = ((fields.get? field).getD .empty).get? token
    cases fields.get? field <;> rfl

theorem namesAt_addUse (table : TokenTable) (use : TokenUse) (parent field : String) :
    namesAt (addUse table use) parent field =
      if use.parent = parent ∧ use.field = field then addNumbered (namesAt table parent field) use.token
      else namesAt table parent field := by
  by_cases same : use.parent = parent
  · subst same
    simp only [namesAt, addUse, Table.update, Table.get?_insert, if_true, Option.bind_some, true_and]
    by_cases here : use.field = field
    · subst here
      cases table.get? use.parent <;> simp
    · cases table.get? use.parent <;> simp [here]
  · simp [namesAt, addUse, Table.update, Table.get?_insert, same]

def usesAt (uses : List TokenUse) (parent field : String) : List TokenUse :=
  uses.filter fun use => use.parent = parent ∧ use.field = field

/-- The tokens of a field in the order of a list of uses. -/
def tokensAt (uses : List TokenUse) (parent field : String) : List String := (usesAt uses parent field).map (·.token)

theorem namesAt_foldl (uses : List TokenUse) (table : TokenTable) (parent field : String) :
    namesAt (uses.foldl addUse table) parent field =
      (tokensAt uses parent field).foldl addNumbered (namesAt table parent field) := by
  induction uses generalizing table with
  | nil => rfl
  | cons use uses ih =>
    rw [List.foldl_cons, ih, namesAt_addUse]
    by_cases here : use.parent = parent ∧ use.field = field <;> simp [tokensAt, usesAt, here]

/-- Distinct tokens are numbered by their positions. -/
theorem entries_addNumbered {tokens : List String} (distinct : tokens.Nodup) :
    (tokens.foldl addNumbered .empty).entries =
      tokens.zipIdx.map fun indexed => (indexed.1, defaultTokenName indexed.1 indexed.2) := by
  induction tokens using List.reverseRecOn with
  | nil => rfl
  | append_singleton tokens token ih =>
    obtain ⟨distinct, _, apart⟩ := List.nodup_append.mp distinct
    have entries := ih distinct
    have size : (tokens.foldl addNumbered .empty).size = tokens.length := by simp [Table.size, entries]
    have absent : token ∉ (tokens.foldl addNumbered .empty).keys := by
      intro present
      rw [Table.keys, entries, List.map_map] at present
      obtain ⟨indexed, member, rfl⟩ := List.mem_map.mp present
      exact apart _ (List.fst_mem_of_mem_zipIdx member) _ (List.mem_singleton_self _) rfl
    rw [List.foldl_concat, addNumbered, Table.entries_insert_of_absent absent, entries, size]
    simp [List.zipIdx_append]

theorem nodup_tokensAt {uses : List TokenUse} (distinct : uses.Nodup) (parent field : String) :
    (tokensAt uses parent field).Nodup := by
  refine List.Nodup.map_on (fun one first other second same => ?_) (distinct.filter _)
  obtain ⟨_, oneParent, oneField⟩ := by simpa using List.mem_filter.mp first
  obtain ⟨_, otherParent, otherField⟩ := by simpa using List.mem_filter.mp second
  cases one
  cases other
  simp_all

/-- The skeleton names the tokens of a field by their positions among the distinct ones. -/
theorem get?_skeleton {grammar : Grammar} :
    (namesAt (skeleton grammar) parent field).get? token = some name ↔
      ∃ index, (token, index) ∈ (tokensAt grammar.tokenUses parent field).zipIdx ∧
        name = defaultTokenName token index := by
  have entries := entries_addNumbered (nodup_tokensAt grammar.nodup_tokenUses parent field)
  have known : namesAt (skeleton grammar) parent field =
      (tokensAt grammar.tokenUses parent field).foldl addNumbered .empty := by
    rw [skeleton_eq, namesAt_foldl]
    rfl
  rw [known, Table.get?_eq_some, entries]
  simp [eq_comm]

end Naming

/-- What is looked for in all parts is found in the one part with the right key. -/
theorem filter_flatMap_of_key {α β κ : Type} {key : α → κ} {parts : List α} {part : α} {f : α → List β} {p : β → Bool}
    (distinct : (parts.map key).Nodup) (member : part ∈ parts)
    (elsewhere : ∀ other ∈ parts, key other ≠ key part → ∀ x ∈ f other, p x = false) :
    (parts.flatMap f).filter p = (f part).filter p := by
  have nothing : ∀ others : List α, (∀ other ∈ others, other ∈ parts ∧ key other ≠ key part) →
      (others.flatMap f).filter p = [] := by
    intro others apart
    rw [List.filter_eq_nil_iff]
    intro x inside
    obtain ⟨other, listed, found⟩ := List.mem_flatMap.mp inside
    obtain ⟨present, different⟩ := apart other listed
    simp [elsewhere other present different x found]
  obtain ⟨before, after, rfl⟩ := List.append_of_mem member
  rw [List.map_append, List.map_cons, List.nodup_append, List.nodup_cons] at distinct
  obtain ⟨_, ⟨later, _⟩, earlier⟩ := distinct
  have first := nothing before fun other listed =>
    ⟨List.mem_append_left _ listed, earlier _ (List.mem_map_of_mem listed) _ List.mem_cons_self⟩
  have last := nothing after fun other listed =>
    ⟨List.mem_append_right _ (List.mem_cons_of_mem _ listed), fun same => later (same ▸ List.mem_map_of_mem listed)⟩
  simp [List.flatMap_append, List.flatMap_cons, first, last]

variable {grammar : Grammar} {type : NodeType} {entry : Place × Slot}

/-- No field has the name that stands for the unnamed children. -/
def NodeType.Plain (type : NodeType) : Prop := ∀ entry ∈ type.fieldSlots, entry.1 ≠ anyKey

namespace TypeGraph

def slotUses (type : NodeType) (entry : Place × Slot) : List TokenUse :=
  entry.2.tokens.map (⟨type.name, entry.1.tokenField, ·⟩)

/-- The uses of tokens are those of the slots, with the fields first. -/
theorem exists_slotUses (type : NodeType) :
    ∃ parts : List (Place × Slot), parts.Perm (slots type) ∧ type.tokenUses = parts.flatMap (slotUses type) := by
  refine ⟨_, List.perm_append_comm, ?_⟩
  rw [NodeType.tokenUses, List.flatMap_append, List.flatMap_map]
  cases type.children <;> simp [slotUses, Place.tokenField]

theorem parent_of_mem_tokenUses {use : TokenUse} (member : use ∈ type.tokenUses) : use.parent = type.name := by
  obtain ⟨parts, _, same⟩ := exists_slotUses type
  rw [same] at member
  obtain ⟨entry, _, inside⟩ := List.mem_flatMap.mp member
  obtain ⟨token, _, rfl⟩ := List.mem_map.mp inside
  rfl

theorem nodup_tokenFields (plain : type.Plain) : ((slots type).map (·.1.tokenField)).Nodup := by
  have distinct : (type.fieldSlots.map Prod.fst).Nodup := by
    rw [NodeType.fieldSlots]
    split
    next fields _ => exact fields.distinct
    next => exact List.nodup_nil
  rw [slots, List.map_append, List.map_map]
  change (_ ++ type.fieldSlots.map Prod.fst).Nodup
  cases type.children with
  | none => exact distinct
  | some slot =>
    apply List.nodup_cons.mpr
    refine ⟨fun inside => ?_, distinct⟩
    obtain ⟨entry, known, same⟩ := List.mem_map.mp inside
    exact plain entry known same

end TypeGraph

open TypeGraph (slots slotUses)

theorem usesAt_type (plain : type.Plain) (listed : entry ∈ slots type) :
    Naming.usesAt type.tokenUses type.name entry.1.tokenField = slotUses type entry := by
  obtain ⟨parts, permuted, uses⟩ := TypeGraph.exists_slotUses type
  have distinct : (parts.map (·.1.tokenField)).Nodup :=
    (permuted.map _).nodup_iff.mpr (TypeGraph.nodup_tokenFields plain)
  rw [uses, Naming.usesAt, filter_flatMap_of_key distinct (permuted.mem_iff.mpr listed)]
  · simp [slotUses]
  · intro other _ different use inside
    obtain ⟨token, _, rfl⟩ := List.mem_map.mp inside
    simpa using different

/-- The uses of tokens that a valid grammar mentions for a slot are those of its tokens. -/
theorem usesAt_mentions (distinct : (grammar.namedNodes.map (·.name)).Nodup) (member : type ∈ grammar.namedNodes)
    (plain : type.Plain) (listed : entry ∈ slots type) :
    Naming.usesAt grammar.mentions type.name entry.1.tokenField = slotUses type entry := by
  rw [← usesAt_type plain listed]
  apply filter_flatMap_of_key distinct member
  intro other _ different use inside
  simp [TypeGraph.parent_of_mem_tokenUses inside, different]

theorem tokensAt_tokenUses (distinct : (grammar.namedNodes.map (·.name)).Nodup) (member : type ∈ grammar.namedNodes)
    (plain : type.Plain) (listed : entry ∈ slots type) :
    Naming.tokensAt grammar.tokenUses type.name entry.1.tokenField = Distinct.ofList entry.2.tokens := by
  have injective : Function.Injective (⟨type.name, entry.1.tokenField, ·⟩ : String → TokenUse) :=
    fun _ _ same => congrArg TokenUse.token same
  have first : Naming.usesAt grammar.tokenUses type.name entry.1.tokenField = Distinct.ofList (slotUses type entry) := by
    rw [← usesAt_mentions distinct member plain listed]
    exact (Distinct.ofList_filter _ _).symm
  rw [Naming.tokensAt, first, slotUses, Distinct.ofList_map injective, List.map_map]
  exact List.map_id _

/-- Two ways to name the tokens of a slot. Their names can all be declared, and they are the same up to the first token
that is repeated. -/
structure AgreeOn (names other : Naming.TokenNames) (parent field : String) (tokens : List String) : Prop where
  usable : ∀ token ∈ tokens, ∀ index, ∃ name, names.name ⟨parent, field, token⟩ index = .ok name ∧
    Naming.Names.memberName name = .ok name
  otherUsable : ∀ token ∈ tokens, ∀ index, ∃ name, other.name ⟨parent, field, token⟩ index = .ok name ∧
    Naming.Names.memberName name = .ok name
  same : ∀ done token rest, tokens = done ++ token :: rest → (done ++ [token]).Nodup →
    other.name ⟨parent, field, token⟩ done.length = names.name ⟨parent, field, token⟩ done.length

namespace TypeGraph

variable {settings : Settings} {names : Naming.TokenNames} {graph : TypeGraph} {id : TypeId}

/-- A repeated token is noticed whatever its name is. -/
theorem foldlM_addSlotToken_withTokens (blank : graph.Lists id []) {owner field : String} {tokens : List String}
    (agree : AgreeOn settings.names.scheme.tokens names owner field tokens) :
    tokens.zipIdx.foldlM (addSlotToken (settings.withTokens names) owner field id) graph =
      tokens.zipIdx.foldlM (addSlotToken settings owner field id) graph := by
  refine ListEffects.foldlM_congr_of_split (fun done state => state.Lists id (done.map Prod.fst)) blank ?_
  intro done entry rest state split lists
  obtain ⟨token, index⟩ := entry
  obtain ⟨order, rfl⟩ := split_of_zipIdx split
  have member : token ∈ tokens := by simp [order]
  have present : (state.node id).tokens.any (·.token = token) = true ↔ token ∈ done.map Prod.fst := by
    rw [← lists.tokens]
    simp
  obtain ⟨name, named, usable⟩ := agree.usable token member done.length
  by_cases repeated : token ∈ done.map Prod.fst
  · obtain ⟨otherName, otherNamed, otherUsable⟩ := agree.otherUsable token member done.length
    rw [addSlotToken_eq (settings.withTokens names) otherNamed otherUsable, addSlotToken_eq settings named usable,
      if_pos (present.mpr repeated), if_pos (present.mpr repeated)]
    exact ⟨rfl, nofun⟩
  · have longer := fun name => lists.addToken repeated name
    have same := agree.same _ token _ order (longer name).distinct
    rw [List.length_map, named] at same
    rw [addSlotToken_eq (settings.withTokens names) same usable, addSlotToken_eq settings named usable,
      if_neg (mt present.mp repeated)]
    refine ⟨rfl, fun next run => ?_⟩
    split at run
    next => cases run
    next =>
      cases run
      rw [List.map_append]
      exact longer name

/-- Names of tokens that agree on all slots of a grammar lead to one graph, or to one error. -/
theorem build_withTokens {grammar : ValidGrammar} (agree : ∀ type ∈ grammar.regular, ∀ entry ∈ slots type,
    AgreeOn settings.names.scheme.tokens names type.name entry.1.tokenField entry.2.tokens) :
    build (settings.withTokens names) grammar = build settings grammar := by
  have both : ListEffects.Matches Eq Eq (build settings grammar) (build (settings.withTokens names) grammar) := by
    refine ((parallel_eq settings).withTokens names).build_id rfl rfl (fun _ _ _ _ => rfl) ?_
    rintro type member entry listed graph _ id rfl blank -
    rw [foldlM_addSlotToken_withTokens blank (agree type member entry listed)]
    exact .refl Eq _
  exact both.eq.symm

end TypeGraph

namespace Naming

theorem name_automatic (use : TokenUse) (index : Nat) :
    TokenNames.automatic.name use index = .ok (defaultTokenName use.token index) := rfl

/-- The skeleton as names for all tokens. -/
abbrev skeletonNames (grammar : Grammar) : TokenNames := ⟨skeleton grammar, true⟩

variable {use : TokenUse} {index : Nat}

theorem lookup?_skeleton
    (numbered : (use.token, index) ∈ (tokensAt grammar.tokenUses use.parent use.field).zipIdx) :
    (skeletonNames grammar).lookup? use = some (defaultTokenName use.token index) :=
  TokenNames.lookup?_eq_some.mpr
    ⟨[], _, _, rfl, (entry?_eq ..).trans (get?_skeleton.mpr ⟨index, numbered, rfl⟩), List.forall_mem_nil _⟩

theorem name_skeleton
    (numbered : (use.token, index) ∈ (tokensAt grammar.tokenUses use.parent use.field).zipIdx) (position : Nat) :
    (skeletonNames grammar).name use position = .ok (defaultTokenName use.token index) := by
  rw [TokenNames.name, lookup?_skeleton numbered]

theorem exists_mem_zipIdx {α : Type} {xs : List α} {x : α} (member : x ∈ xs) : ∃ index, (x, index) ∈ xs.zipIdx := by
  obtain ⟨before, after, rfl⟩ := List.append_of_mem member
  exact ⟨before.length, by simp [List.zipIdx_append]⟩

theorem validate_skeleton (grammar : Grammar) : (skeletonNames grammar).validate grammar.tokenUses = .ok () := by
  apply (TokenNames.validate_eq_ok rfl).mpr
  intro use used unmapped
  have listed : use.token ∈ tokensAt grammar.tokenUses use.parent use.field :=
    List.mem_map.mpr ⟨use, by simp [usesAt, used], rfl⟩
  obtain ⟨index, numbered⟩ := exists_mem_zipIdx listed
  rw [← TokenNames.lookup?_eq_none, lookup?_skeleton numbered] at unmapped
  cases unmapped

theorem agreeOn_skeleton (distinct : (grammar.namedNodes.map (·.name)).Nodup) (member : type ∈ grammar.namedNodes)
    (plain : type.Plain) (listed : entry ∈ slots type) :
    AgreeOn .automatic (skeletonNames grammar) type.name entry.1.tokenField entry.2.tokens := by
  have tokens := tokensAt_tokenUses distinct member plain listed
  refine ⟨fun token _ index => ⟨_, rfl, memberName_defaultTokenName token index⟩, fun token inside index => ?_, ?_⟩
  · have inside : token ∈ Distinct.ofList entry.2.tokens := Distinct.mem_ofList.mpr inside
    rw [← tokens] at inside
    obtain ⟨position, numbered⟩ := exists_mem_zipIdx inside
    exact ⟨_, name_skeleton numbered index, memberName_defaultTokenName token position⟩
  · intro done token rest split distinct
    obtain ⟨more, first⟩ := Distinct.exists_ofList distinct rest
    rw [List.append_assoc, List.singleton_append, ← split] at first
    rw [name_automatic]
    apply name_skeleton
    rw [tokens, first]
    simp [List.zipIdx_append]

theorem assignClasses_withTokens (scheme : Scheme) (tokens : TokenNames) (owners classes : ClassTable)
    (types : List String) :
    assignClasses { scheme with tokens } owners classes types = assignClasses scheme owners classes types := by
  induction types generalizing owners classes with
  | nil => rfl
  | cons type types ih =>
    have same : ({ scheme with tokens } : Scheme).className type = scheme.className type := rfl
    simp only [assignClasses, same, ih]

end Naming

namespace Config

variable {config : Config}

theorem settings_withTokens (config : Config) (table : Option Naming.TokenTable) (scheme : Naming.Scheme)
    (tokens : Naming.TokenNames) (grammar : Grammar) :
    ({ config with tokenNames := table } : Config).settings { scheme with tokens } grammar =
      (config.settings scheme grammar).withTokens tokens := by
  simp only [Config.settings, Naming.Names.forTypes, Naming.assignClasses_withTokens]
  rfl

theorem scheme_withTokens (automatic : config.tokenNames = none) (table : Naming.TokenTable) :
    ({ config with tokenNames := some table } : Config).scheme =
      config.scheme.map fun scheme => { scheme with tokens := ⟨table, true⟩ } := by
  simp only [Config.scheme, automatic]
  cases config.typeNamePattern with
  | none => rfl
  | some pattern =>
    simp only [Naming.Scheme.withPattern]
    cases Naming.NamePattern.read Naming.typePlaceholders pattern <;> rfl

theorem tokens_of_scheme {scheme : Naming.Scheme} (automatic : config.tokenNames = none)
    (run : config.scheme = .ok scheme) : scheme.tokens = .automatic := by
  simp only [Config.scheme, automatic] at run
  cases pattern : config.typeNamePattern with
  | none =>
    rw [pattern] at run
    cases run
    rfl
  | some text =>
    rw [pattern] at run
    simp only [Naming.Scheme.withPattern] at run
    cases read : Naming.NamePattern.read Naming.typePlaceholders text with
    | error error =>
      rw [read] at run
      cases run
    | ok pattern =>
      rw [read] at run
      cases run
      rfl

end Config

open Naming (skeleton skeletonNames)

theorem buildGraph_skeleton (grammar : Grammar) (config : Config) (plain : ∀ type ∈ grammar.nodeTypes, type.Plain)
    (automatic : config.tokenNames = none) :
    buildGraph grammar { config with tokenNames := some (skeleton grammar) } = buildGraph grammar config := by
  rw [buildGraph, buildGraph, Config.scheme_withTokens automatic]
  cases named : config.scheme with
  | error error => rfl
  | ok scheme =>
    have tokens := Config.tokens_of_scheme automatic named
    have passed : scheme.tokens.validate grammar.tokenUses = .ok () := by
      rw [tokens]
      rfl
    simp only [Except.map, bind, Except.bind, passed, Naming.validate_skeleton, Config.settings_withTokens]
    cases validated : grammar.validate config.rootNode with
    | error error => rfl
    | ok valid =>
      have parts := Grammar.parts_of_validate validated
      have same : TypeGraph.build ((config.settings scheme grammar).withTokens (skeletonNames grammar)) valid =
          TypeGraph.build (config.settings scheme grammar) valid := by
        apply TypeGraph.build_withTokens
        intro type member entry listed
        have named : type ∈ grammar.namedNodes := List.mem_of_mem_filter (parts.plain ▸ member)
        change AgreeOn scheme.tokens _ _ _ _
        rw [tokens]
        exact Naming.agreeOn_skeleton parts.distinct named (plain type (List.mem_of_mem_filter named)) listed
      simp only [same]

/-- To name all tokens as in the skeleton is to name none of them, for a grammar all of whose fields have a name. -/
theorem generate_skeleton (grammar : Grammar) (config : Config)
    (plain : ∀ type ∈ grammar.nodeTypes, ∀ entry ∈ type.fieldSlots, entry.1 ≠ "")
    (automatic : config.tokenNames = none) :
    generate grammar { config with tokenNames := some (skeleton grammar) } = generate grammar config := by
  rw [generate, generate, buildGraph_skeleton grammar config plain automatic]

/-- Comparisons have an operator, and only some of the operators have names of their own. -/
def comparisons : Grammar where
  nodeTypes := [
    { name := "comparison", named := true, extra := false, root := false, subtypes := none, children := none
      fields := some (.ofList [("operator", ⟨false, true, [⟨"==", false⟩, ⟨"is not", false⟩, ⟨"<=", false⟩]⟩)]) }]

theorem generate_skeleton_comparisons :
    (∀ type ∈ comparisons.nodeTypes, ∀ entry ∈ type.fieldSlots, entry.1 ≠ "") ∧
      Config.default.tokenNames = none ∧
      (buildGraph comparisons Config.default).toOption.map (fun graph => graph.ids.flatMap fun id => (graph.node id).tokens) =
        some [⟨"TOKEN_0", "=="⟩, ⟨"IS_NOT", "is not"⟩, ⟨"TOKEN_2", "<="⟩] ∧
      generate comparisons { Config.default with tokenNames := some (skeleton comparisons) } =
        generate comparisons Config.default := by
  have plain : ∀ type ∈ comparisons.nodeTypes, ∀ entry ∈ type.fieldSlots, entry.1 ≠ "" := by decide
  exact ⟨plain, rfl, by decide +kernel, generate_skeleton comparisons Config.default plain rfl⟩

end TypedTree
