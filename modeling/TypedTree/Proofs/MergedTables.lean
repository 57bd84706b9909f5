import TypedTree.CommandLine.Run
import TypedTree.Proofs.DeclarationOrder
import TypedTree.Proofs.HoistingOutcomes
import TypedTree.Proofs.TokenSkeletons
import TypedTree.Proofs.WellFormedGrammars

/-! One table for the tokens of several grammars. A token has the number there that it has in the last grammar with it, so
that two tokens of one slot may meet in one name. -/

namespace TypedTree

open ListEffects (bind_eq_ok exists_ok_of_map failure?_eq_some)

namespace Naming

variable {grammar : Grammar} {grammars : List Grammar} {parent field token : String}

/-- The skeletons of grammars in one table, into which they are taken in order. -/
def mergedSkeletons (grammars : List Grammar) : TokenTable :=
  grammars.foldl (fun table grammar => mergeTables table (skeleton grammar)) .empty

/-- The number of a token in the last grammar that has it in a field. -/
def lastNumber? (grammars : List Grammar) (parent field token : String) : Option Nat :=
  grammars.reverse.findSome? fun grammar => (tokensAt grammar.tokenUses parent field).idxOf? token

theorem mergedSkeletons_concat (grammars : List Grammar) (grammar : Grammar) :
    mergedSkeletons (grammars ++ [grammar]) = mergeTables (mergedSkeletons grammars) (skeleton grammar) :=
  List.foldl_concat ..

theorem lastNumber?_concat (grammars : List Grammar) (grammar : Grammar) (parent field token : String) :
    lastNumber? (grammars ++ [grammar]) parent field token =
      ((tokensAt grammar.tokenUses parent field).idxOf? token).or (lastNumber? grammars parent field token) := by
  rw [lastNumber?, List.reverse_concat, List.findSome?_cons]
  cases (tokensAt grammar.tokenUses parent field).idxOf? token <;> rfl

/-- The last grammar that has a token gives it its number. -/
theorem isSome_lastNumber? : (lastNumber? grammars parent field token).isSome = true ↔
    ∃ grammar ∈ grammars, token ∈ tokensAt grammar.tokenUses parent field := by
  simp [lastNumber?, List.findSome?_isSome_iff]

/-- Adds the names of one parent to those that are there. -/
def mergeFields (fields added : Table String (Table String String)) : Table String (Table String String) :=
  added.entries.foldl (fun fields entry => fields.update entry.1 fun names => (names.getD .empty).append entry.2) fields

theorem mergeTables_eq (table other : TokenTable) : mergeTables table other =
    other.entries.foldl (fun table entry => table.update entry.1 fun fields => mergeFields (fields.getD .empty) entry.2)
      table := rfl

/-- The names of a field in the other table are added to those in the first one. -/
theorem namesAt_mergeTables (table other : TokenTable) (parent field : String) :
    namesAt (mergeTables table other) parent field = (namesAt table parent field).append (namesAt other parent field) := by
  rw [namesAt, namesAt, namesAt, mergeTables_eq,
    Table.get?_foldl_update fun added fields => mergeFields (fields.getD .empty) added]
  cases other.get? parent with
  | none => simp [Table.append_empty]
  | some added =>
    simp only [Option.map_some, Option.some_or, Option.bind_some, mergeFields,
      Table.get?_foldl_update fun tokens names => (names.getD Table.empty).append tokens]
    cases added.get? field with
    | none => cases table.get? parent <;> simp [Table.append_empty]
    | some tokens => cases table.get? parent <;> simp

theorem mem_zipIdx_iff_of_nodup {α : Type} [DecidableEq α] {xs : List α} {x : α} {index : Nat} (distinct : xs.Nodup) :
    (x, index) ∈ xs.zipIdx ↔ xs.idxOf? x = some index := by
  rw [List.mk_mem_zipIdx_iff_getElem?, List.getElem?_eq_some_iff, List.idxOf?_eq_some_iff]
  constructor
  · rintro ⟨inside, same⟩
    refine ⟨inside, same, fun earlier before equal => ?_⟩
    have one := (distinct.getElem_inj_iff).mp (equal.trans same.symm)
    omega
  · rintro ⟨inside, same, _⟩
    exact ⟨inside, same⟩

theorem get?_skeleton_eq (grammar : Grammar) (parent field token : String) :
    (namesAt (skeleton grammar) parent field).get? token =
      ((tokensAt grammar.tokenUses parent field).idxOf? token).map (defaultTokenName token) := by
  ext name
  simp only [get?_skeleton, mem_zipIdx_iff_of_nodup (nodup_tokensAt grammar.nodup_tokenUses parent field),
    Option.map_eq_some_iff, @eq_comm _ name]

/-- Each token has its default name under its last number. -/
theorem get?_mergedSkeletons (grammars : List Grammar) (parent field token : String) :
    (namesAt (mergedSkeletons grammars) parent field).get? token =
      (lastNumber? grammars parent field token).map (defaultTokenName token) := by
  induction grammars using List.reverseRecOn with
  | nil => rfl
  | append_singleton grammars grammar ih =>
    rw [mergedSkeletons_concat, namesAt_mergeTables, Table.get?_append, get?_skeleton_eq, ih, lastNumber?_concat,
      Option.map_or]

/-- The name of a token by its last number. -/
def mergedName (grammars : List Grammar) (parent field token : String) : String :=
  defaultTokenName token ((lastNumber? grammars parent field token).getD 0)

/-- The merged table as names for all tokens. -/
abbrev mergedNames (grammars : List Grammar) : TokenNames := ⟨mergedSkeletons grammars, true⟩

variable {use : TokenUse}

theorem exists_lastNumber (member : grammar ∈ grammars) (used : use ∈ grammar.tokenUses) :
    ∃ number, lastNumber? grammars use.parent use.field use.token = some number := by
  have known : use.token ∈ tokensAt grammar.tokenUses use.parent use.field :=
    List.mem_map.mpr ⟨use, by simp [usesAt, used], rfl⟩
  exact Option.isSome_iff_exists.mp (isSome_lastNumber?.mpr ⟨grammar, member, known⟩)

theorem lookup?_mergedSkeletons (member : grammar ∈ grammars) (used : use ∈ grammar.tokenUses) :
    (mergedNames grammars).lookup? use = some (mergedName grammars use.parent use.field use.token) := by
  obtain ⟨number, last⟩ := exists_lastNumber member used
  have entry : TokenNames.entry? (mergedNames grammars) use.parent use.field use.token =
      some (mergedName grammars use.parent use.field use.token) := by
    rw [entry?_eq, get?_mergedSkeletons, mergedName, last]
    rfl
  exact TokenNames.lookup?_eq_some.mpr ⟨[], _, _, rfl, entry, List.forall_mem_nil _⟩

theorem validate_mergedSkeletons (member : grammar ∈ grammars) :
    (mergedNames grammars).validate grammar.tokenUses = .ok () := by
  apply (TokenNames.validate_eq_ok rfl).mpr
  intro use used unmapped
  rw [← TokenNames.lookup?_eq_none, lookup?_mergedSkeletons member used] at unmapped
  cases unmapped

theorem gives_automatic (parent field : String) (tokens : List String) :
    TokenNames.automatic.Gives parent field tokens fun token => defaultTokenName token (tokens.idxOf token) where
  named := by
    rintro done token rest rfl new
    rw [List.idxOf_append_of_notMem new, List.idxOf_cons_self, Nat.add_zero]
    rfl
  usable := fun _ _ => memberName_defaultTokenName _ _

theorem gives_mergedSkeletons {type : NodeType} {entry : Place × Slot} (member : grammar ∈ grammars)
    (described : type ∈ grammar.namedNodes) (listed : entry ∈ TypeGraph.slots type) :
    (mergedNames grammars).Gives type.name entry.1.tokenField entry.2.tokens
      (mergedName grammars type.name entry.1.tokenField) where
  named := by
    intro done token rest split _
    have inside : token ∈ entry.2.tokens := by simp [split]
    have used := Grammar.mem_tokenUses.mpr (Grammar.uses_of_slot described listed inside)
    rw [TokenNames.name, lookup?_mergedSkeletons member used]
  usable := fun _ _ => memberName_defaultTokenName _ _

/-- When tokens have different names under some numbers, they have different names under others just if no two of the
tokens that are numbered get one number. -/
theorem nodup_defaultNames_iff {tokens : List String} {first other : String → Nat}
    (apart : (tokens.map fun token => defaultTokenName token (first token)).Nodup) :
    (tokens.map fun token => defaultTokenName token (other token)).Nodup ↔
      ∀ one ∈ tokens, ∀ another ∈ tokens, Numbered one → Numbered another → other one = other another → one = another := by
  rw [List.nodup_map_iff_inj_on (List.Nodup.of_map _ apart)]
  constructor
  · intro injective one first another second numbered alsoNumbered same
    exact injective one first another second (defaultTokenName_eq_iff.mpr (Or.inl ⟨numbered, alsoNumbered, same⟩))
  · intro numbers one inside another alsoInside same
    rcases defaultTokenName_eq_iff.mp same with ⟨numbered, alsoNumbered, equal⟩ | words
    · exact numbers one inside another alsoInside numbered alsoNumbered equal
    · exact List.inj_on_of_nodup_map apart inside alsoInside (defaultTokenName_eq_iff.mpr (Or.inr words))

end Naming

open Naming (mergedSkeletons mergedNames mergedName lastNumber? Numbered)
open TypeGraph (slots)

variable {grammar : Grammar} {config : Config}

/-- To take in one by one what is loaded is to load everything first. -/
theorem foldlM_loaded {m : Type → Type} [Monad m] [LawfulMonad m] {α β σ : Type} (load : α → m β) (add : σ → β → σ)
    (items : List α) (start : σ) :
    items.foldlM (fun state item => do return add state (← load item)) start =
      (do return (← items.mapM load).foldl add start) := by
  induction items generalizing start with
  | nil => simp only [List.foldlM_nil, List.mapM_nil, pure_bind, List.foldl_nil]
  | cons item items ih => simp only [List.foldlM_cons, List.mapM_cons, bind_assoc, pure_bind, ih, List.foldl_cons]

/-- The command for tokens prints or writes the merged table of all grammars. -/
theorem CommandLine.runTokens_eq {m : Type → Type} [Monad m] [LawfulMonad m] [Host m] (inputs : List String)
    (out : Option String) :
    (runTokens inputs out : ExceptT Failure m Unit) = (do
      let paths ← expandInputs inputs
      let grammars ← paths.mapM fun path => attempt (load path Grammar.ofText) (.grammarUnusable path)
      let text := (tokenTableJson (mergedSkeletons grammars)).indented
      match out with
      | some path => writeFile path text
      | none => Host.print (m := m) (text ++ "\n")) := by
  simp only [runTokens, foldlM_loaded, bind_assoc, pure_bind]
  rfl

/-- When methods can be hoisted in what is built, there is a model of it. -/
theorem exists_generate {scheme : Naming.Scheme} {valid : ValidGrammar} {plain : TypeGraph} {final : Hoisting.Hoisted}
    (named : config.scheme = .ok scheme) (passes : scheme.tokens.validate grammar.tokenUses = .ok ())
    (validated : grammar.validate config.rootNode = .ok valid)
    (built : TypeGraph.build (config.settings scheme grammar) valid = .ok plain)
    (hoists : Hoisting.hoistAll plain = .ok final) : ∃ model, generate grammar config = .ok model := by
  obtain ⟨snapshot, construction⟩ := TypeGraph.exists_built (TypeGraph.distinctClasses_settings config scheme grammar) built
  have sound := construction.valid
  obtain ⟨graph, resolved⟩ := Hoisting.exists_resolve (fun id _ => sound.pending id) hoists
  have run : buildGraph grammar config = .ok graph := by
    simp only [buildGraph, named, passes, validated, built, resolved, bind, Except.bind]
    rfl
  have hierarchy := TypeGraph.hierarchy_of_buildGraph run
  obtain ⟨order, ordered⟩ := TypeGraph.exists_declarationOrder
    ⟨fun above below => (hierarchy.mirrored above below).symm, hierarchy.inside⟩
  exact ⟨_, bind_eq_ok.mpr ⟨graph, run, bind_eq_ok.mpr ⟨order, ordered, rfl⟩⟩⟩

/-- Constants of tokens have no part in hoisting. -/
theorem TypeGraph.EqualUpTo.sameMembers {graph other : TypeGraph}
    (same : TypeGraph.EqualUpTo TypeNode.withoutTokens graph other) : Hoisting.SameMembers graph other where
  ids := same.symm.ids
  identity := same.symm.field TypeNode.identity fun _ => rfl
  kind := same.symm.field TypeNode.kind fun _ => rfl
  supertypes := same.symm.field TypeNode.supertypes fun _ => rfl
  subtypes := same.symm.field TypeNode.subtypes fun _ => rfl
  methods := same.symm.field TypeNode.methods fun _ => rfl

/-- The tokens of a slot have names of their own if a model is generated. -/
theorem nodup_of_generate {model : Model} {type : NodeType} {entry : Place × Slot} {given : String → String}
    (generated : generate grammar config = .ok model) (member : type ∈ grammar.namedNodes) (listed : entry ∈ slots type)
    (gives : ∀ scheme, config.scheme = .ok scheme →
      scheme.tokens.Gives type.name entry.1.tokenField entry.2.tokens given) : (entry.2.tokens.map given).Nodup := by
  obtain ⟨graph, run, _⟩ := bind_eq_ok.mp generated
  obtain ⟨scheme, valid, plain, _, named, validated, built, _⟩ := exists_resolves_of_buildGraph run
  exact TypeGraph.nodup_of_build built (Grammar.mem_regular_of_slot validated member listed) listed (gives scheme named)

theorem gives_automatic_of_scheme (automatic : config.tokenNames = none) (type : NodeType) (entry : Place × Slot) :
    ∀ scheme, config.scheme = .ok scheme → scheme.tokens.Gives type.name entry.1.tokenField entry.2.tokens
      fun token => Naming.defaultTokenName token (entry.2.tokens.idxOf token) := by
  intro scheme named
  rw [Config.tokens_of_scheme automatic named]
  exact Naming.gives_automatic _ _ _

/-- With a table there is a model just if its names differ in each slot, provided that there is one without a table. -/
theorem exists_generate_withTokens {model : Model} {table : Naming.TokenTable}
    {given : NodeType → Place × Slot → String → String} (automatic : config.tokenNames = none)
    (generated : generate grammar config = .ok model)
    (passes : (⟨table, true⟩ : Naming.TokenNames).validate grammar.tokenUses = .ok ())
    (gives : ∀ type ∈ grammar.namedNodes, ∀ entry ∈ slots type,
      (⟨table, true⟩ : Naming.TokenNames).Gives type.name entry.1.tokenField entry.2.tokens (given type entry)) :
    (∃ model, generate grammar { config with tokenNames := some table } = .ok model) ↔
      ∀ type ∈ grammar.namedNodes, ∀ entry ∈ slots type, (entry.2.tokens.map (given type entry)).Nodup := by
  have schemes := Config.scheme_withTokens automatic table
  constructor
  · rintro ⟨_, generated⟩ type member entry listed
    refine nodup_of_generate generated member listed fun scheme named => ?_
    rw [schemes] at named
    cases first : config.scheme with
    | error error =>
      rw [first] at named
      cases named
    | ok scheme =>
      rw [first] at named
      cases named
      exact gives type member entry listed
  · intro apart
    obtain ⟨graph, run, _⟩ := bind_eq_ok.mp generated
    obtain ⟨scheme, valid, plain, final, named, validated, built, resolves, _⟩ := exists_resolves_of_buildGraph run
    have described : ∀ type ∈ valid.regular, type ∈ grammar.namedNodes := fun type member => by
      rw [(Grammar.parts_of_validate validated).plain] at member
      exact List.mem_of_mem_filter member
    have both : ListEffects.Matches ListEffects.AnyError (TypeGraph.EqualUpTo TypeNode.withoutTokens)
        (TypeGraph.build (config.settings scheme grammar) valid)
        (TypeGraph.build ((config.settings scheme grammar).withTokens ⟨table, true⟩) valid) :=
      TypeGraph.matches_build_withTokens
        (fun type member entry listed => ⟨gives_automatic_of_scheme automatic type entry scheme named,
          nodup_of_generate generated (described type member) listed (gives_automatic_of_scheme automatic type entry)⟩)
        fun type member entry listed =>
          ⟨gives type (described type member) entry listed, apart type (described type member) entry listed⟩
    rw [built, ← Config.settings_withTokens config (some table)] at both
    obtain ⟨another, other, same⟩ := both.exists_related
    have scheme : ({ config with tokenNames := some table } : Config).scheme =
        .ok { scheme with tokens := ⟨table, true⟩ } := by
      rw [schemes, named]
      rfl
    exact exists_generate scheme passes validated other (same.sameMembers.hoistAll.trans resolves.hoists)

/-- The table for several grammars names the tokens of each of them. It can be used for a grammar just if no two numbered
tokens of a slot got one number by other grammars; nothing is done to keep them apart. -/
theorem generate_mergedSkeletons (grammars : List Grammar) (config : Config) (automatic : config.tokenNames = none)
    (works : ∀ grammar ∈ grammars, ∃ model, generate grammar config = .ok model) :
    ∀ grammar ∈ grammars,
      (mergedNames grammars).validate grammar.tokenUses = .ok () ∧
      ((∃ model, generate grammar { config with tokenNames := some (mergedSkeletons grammars) } = .ok model) ↔
        ∀ type ∈ grammar.namedNodes, ∀ entry ∈ slots type, ∀ one ∈ entry.2.tokens, ∀ other ∈ entry.2.tokens,
          Numbered one → Numbered other →
            lastNumber? grammars type.name entry.1.tokenField one =
              lastNumber? grammars type.name entry.1.tokenField other → one = other) := by
  intro grammar member
  obtain ⟨model, generated⟩ := works grammar member
  have passes := Naming.validate_mergedSkeletons member
  refine ⟨passes, ?_⟩
  rw [exists_generate_withTokens automatic generated passes fun type described entry listed =>
    Naming.gives_mergedSkeletons member described listed]
  refine forall₂_congr fun type described => forall₂_congr fun entry listed => ?_
  have first := nodup_of_generate generated described listed (gives_automatic_of_scheme automatic type entry)
  have last (token : String) (inside : token ∈ entry.2.tokens) :=
    Naming.exists_lastNumber member (Grammar.mem_tokenUses.mpr (Grammar.uses_of_slot described listed inside))
  refine (Naming.nodup_defaultNames_iff first).trans ?_
  refine forall₂_congr fun one inside => forall₂_congr fun other alsoInside => forall₂_congr fun _ _ => ?_
  obtain ⟨number, known⟩ := last one inside
  obtain ⟨another, alsoKnown⟩ := last other alsoInside
  rw [known, alsoKnown, Option.getD_some, Option.getD_some, Option.some_inj]

/-- Arrows with these operators. -/
def arrows (operators : List String) : Grammar where
  nodeTypes := [
    { name := "arrow", named := true, extra := false, root := false, subtypes := none, children := none
      fields := some (.ofList [("operator", ⟨false, true, operators.map (⟨·, false⟩)⟩)]) }]

def Model.tokens (model : Model) : List (List TokenConstant) :=
  (model.declarations.filter (·.kind = .tokens)).map (·.tokens)

theorem exists_generate_arrows {operators : List String} (known : operators ∈ [["=>", "->"], ["->", "=>"], ["->"]]) :
    ∃ model, generate (arrows operators) Config.default = .ok model := by
  have each : ∀ operators ∈ [["=>", "->"], ["->", "=>"], ["->"]],
      (generate (arrows operators) Config.default).toOption.map (fun _ => ()) = some () := by
    decide +kernel
  obtain ⟨model, generated, _⟩ := exists_ok_of_map (each operators known)
  exact ⟨model, generated⟩

/-- The numbers of both operators come from the second grammar. -/
theorem generate_mergedSkeletons_arrows :
    let grammars := [arrows ["=>", "->"], arrows ["->", "=>"]]
    (∀ grammar ∈ grammars, ∃ model, generate grammar Config.default = .ok model) ∧
      (mergedNames grammars).validate (arrows ["=>", "->"]).tokenUses = .ok () ∧
      ∃ model, generate (arrows ["=>", "->"]) { Config.default with tokenNames := some (mergedSkeletons grammars) } =
        .ok model ∧ model.tokens = [[⟨"TOKEN_1", "=>"⟩, ⟨"TOKEN_0", "->"⟩]] := by
  intro grammars
  have works : ∀ grammar ∈ grammars, ∃ model, generate grammar Config.default = .ok model := by
    simp [grammars, exists_generate_arrows]
  obtain ⟨passes, usable⟩ := generate_mergedSkeletons grammars Config.default rfl works _ List.mem_cons_self
  obtain ⟨model, generated⟩ := usable.mpr (by decide +kernel)
  have tokens : (generate (arrows ["=>", "->"])
      { Config.default with tokenNames := some (mergedSkeletons grammars) }).toOption.map Model.tokens =
        some [[⟨"TOKEN_1", "=>"⟩, ⟨"TOKEN_0", "->"⟩]] := by
    decide +kernel
  rw [generated] at tokens
  exact ⟨works, passes, model, generated, Option.some.inj tokens⟩

/-- The only operator of the second grammar has the number of another operator in the first one, for which the table
cannot be used any more. -/
theorem clashing_arrows :
    let grammars := [arrows ["=>", "->"], arrows ["->"]]
    (∀ grammar ∈ grammars, ∃ model, generate grammar Config.default = .ok model) ∧
      generate (arrows ["=>", "->"]) { Config.default with tokenNames := some (mergedSkeletons grammars) } =
        .error (.duplicateName "TOKEN_0" "=>" "->") := by
  intro grammars
  exact ⟨by simp [grammars, exists_generate_arrows], failure?_eq_some.mp (by decide +kernel)⟩

end TypedTree
