import TypedTree.Proofs.BuildFailures
import TypedTree.Proofs.DistinctLists

/-! Tables that name all tokens. The tokens of a grammar are checked before anything is built, and the check asks for
just as much as building does: each token constant gets its name from the first place that has one for it. -/

namespace TypedTree

open ListEffects (bind_eq_ok)

namespace Naming.TokenNames

variable {names : TokenNames} {use : TokenUse} {uses : List TokenUse} {name : String}

/-- The places where a table may name a token, the first one that does so being decisive. -/
def levels (use : TokenUse) : List (String × String) :=
  [(use.parent, use.field), (use.parent, anyKey), (anyKey, use.field), (anyKey, anyKey)]

/-- No place names a token. -/
def Unmapped (names : TokenNames) (use : TokenUse) : Prop :=
  ∀ level ∈ levels use, names.entry? level.1 level.2 use.token = none

/-- The first place that names a token has this name for it. -/
def Maps (names : TokenNames) (use : TokenUse) (name : String) : Prop :=
  ∃ before level after, levels use = before ++ level :: after ∧ names.entry? level.1 level.2 use.token = some name ∧
    ∀ earlier ∈ before, names.entry? earlier.1 earlier.2 use.token = none

theorem lookup?_eq_none : names.lookup? use = none ↔ names.Unmapped use := List.findSome?_eq_none_iff

theorem lookup?_eq_some : names.lookup? use = some name ↔ names.Maps use name := List.findSome?_eq_some_iff

theorem maps_of_name {index : Nat} (exhaustive : names.exhaustive = true) (run : names.name use index = .ok name) :
    names.Maps use name := by
  rw [TokenNames.name] at run
  split at run
  next found =>
    cases run
    exact lookup?_eq_some.mp found
  next =>
    rw [if_pos exhaustive] at run
    cases run

theorem unmapped_of_nodup (distinct : uses.Nodup) :
    names.unmapped uses = uses.filter fun use => (names.lookup? use).isNone :=
  Distinct.ofList_of_nodup (distinct.filter _)

theorem validate_eq_ok (exhaustive : names.exhaustive = true) :
    names.validate uses = .ok () ↔ ∀ use ∈ uses, ¬ names.Unmapped use := by
  have nothing : names.unmapped uses = [] ↔ ∀ use ∈ uses, ¬ names.Unmapped use := by
    simp only [List.eq_nil_iff_forall_not_mem, unmapped, Distinct.mem_ofList, List.mem_filter, Option.isNone_iff_eq_none,
      lookup?_eq_none, not_and]
  rw [validate, ← nothing]
  by_cases none : names.unmapped uses = [] <;> simp [none, exhaustive]

theorem validate_eq_error {error : Error} (run : names.validate uses = .error error) :
    error = .unmappedTokens (names.unmapped uses) := by
  rw [validate] at run
  split at run
  · cases run
    rfl
  · cases run

end Naming.TokenNames

namespace Grammar

variable {grammar : Grammar} {use : TokenUse}

/-- A token may stand in a field of a node type with a name, or among its unnamed children. -/
inductive Uses (grammar : Grammar) : TokenUse → Prop
  | field {type : NodeType} {field token : String} {slot : Slot} (described : type ∈ grammar.nodeTypes)
      (named : type.named = true) (listed : (field, slot) ∈ type.fieldSlots) (inside : token ∈ slot.tokens) :
      Uses grammar ⟨type.name, field, token⟩
  | children {type : NodeType} {token : String} {slot : Slot} (described : type ∈ grammar.nodeTypes)
      (named : type.named = true) (present : type.children = some slot) (inside : token ∈ slot.tokens) :
      Uses grammar ⟨type.name, anyKey, token⟩

/-- The uses of tokens in the order of the grammar, with repetitions. -/
def mentions (grammar : Grammar) : List TokenUse := grammar.namedNodes.flatMap NodeType.tokenUses

theorem mem_tokenUses : use ∈ grammar.tokenUses ↔ grammar.Uses use := by
  simp only [tokenUses, Distinct.mem_ofList, List.mem_flatMap, namedNodes, List.mem_filter, NodeType.tokenUses,
    List.mem_append, List.mem_map]
  constructor
  · intro ⟨type, ⟨described, named⟩, standing⟩
    rcases standing with ⟨⟨field, slot⟩, listed, token, inside, rfl⟩ | standing
    · exact .field described named listed inside
    · split at standing
      next slot present =>
        obtain ⟨token, inside, rfl⟩ := List.mem_map.mp standing
        exact .children described named present inside
      next => cases standing
  · intro used
    cases used with
    | field described named listed inside => exact ⟨_, ⟨described, named⟩, Or.inl ⟨_, listed, _, inside, rfl⟩⟩
    | children described named present inside =>
      refine ⟨_, ⟨described, named⟩, Or.inr ?_⟩
      rw [present]
      exact List.mem_map_of_mem inside

theorem nodup_tokenUses (grammar : Grammar) : grammar.tokenUses.Nodup := Distinct.nodup_ofList _

theorem uses_of_slot {type : NodeType} {entry : Place × Slot} {token : String} (member : type ∈ grammar.namedNodes)
    (listed : entry ∈ TypeGraph.slots type) (inside : token ∈ entry.2.tokens) :
    grammar.Uses ⟨type.name, entry.1.tokenField, token⟩ := by
  obtain ⟨described, named⟩ := List.mem_filter.mp member
  rw [TypeGraph.slots, List.mem_append] at listed
  rcases listed with unnamed | listed
  · split at unnamed
    next slot present =>
      cases List.mem_singleton.mp unnamed
      exact .children described named present inside
    next => cases unnamed
  · obtain ⟨⟨field, slot⟩, known, rfl⟩ := List.mem_map.mp listed
    exact .field described named known inside

/-- What is built for a valid grammar uses the tokens as the grammar does. -/
theorem uses_of_valid {requested : Option String} {valid : ValidGrammar} {identity : String} {index : Nat}
    (validated : grammar.validate requested = .ok valid) (used : TypeGraph.Uses valid identity use index) :
    grammar.Uses use := by
  cases used with
  | slot member listed indexed =>
    rw [(parts_of_validate validated).plain] at member
    exact uses_of_slot (List.mem_of_mem_filter member) listed (List.fst_mem_of_mem_zipIdx indexed)

end Grammar

open Naming

/-- The tokens of a table that is meant to name all of them are checked before anything is built. The check reports the
uses without an entry, and behind it no token is without a name. -/
theorem validate_covers (grammar : Grammar) (table : TokenTable) :
    let names : TokenNames := ⟨table, true⟩
    ((∃ error, names.validate grammar.tokenUses = .error error) ↔ ∃ use, grammar.Uses use ∧ names.Unmapped use) ∧
    (∀ error, names.validate grammar.tokenUses = .error error → ∃ missing, error = .unmappedTokens missing ∧
      (∀ use, use ∈ missing ↔ grammar.Uses use ∧ names.Unmapped use) ∧
      missing.Pairwise fun first later => grammar.mentions.idxOf first < grammar.mentions.idxOf later) ∧
    (names.validate grammar.tokenUses = .ok () → ∀ requested valid settings,
      grammar.validate requested = .ok valid → settings.names.scheme.tokens = names →
        (∀ missing, TypeGraph.build settings valid ≠ .error (.unmappedTokens missing)) ∧
        ∀ graph, TypeGraph.build settings valid = .ok graph → ∀ id, ∀ constant ∈ (graph.node id).tokens,
          ∃ use index, TypeGraph.Uses valid (graph.node id).identity use index ∧ constant.token = use.token ∧
            names.Maps use constant.name) := by
  intro names
  have passes : names.validate grammar.tokenUses = .ok () ↔ ∀ use, grammar.Uses use → ¬ names.Unmapped use := by
    have exhaustive : names.exhaustive = true := rfl
    simp only [TokenNames.validate_eq_ok exhaustive, Grammar.mem_tokenUses]
  refine ⟨?_, fun error failed => ?_, fun passed requested valid settings validated given => ⟨?_, ?_⟩⟩
  · have fails : (∃ error, names.validate grammar.tokenUses = .error error) ↔
        ¬ names.validate grammar.tokenUses = .ok () := by
      cases names.validate grammar.tokenUses <;> simp
    rw [fails, passes]
    simp only [not_forall, not_not, exists_prop]
  · refine ⟨_, TokenNames.validate_eq_error failed, fun use => ?_, ?_⟩
    · rw [TokenNames.unmapped_of_nodup grammar.nodup_tokenUses, List.mem_filter, Grammar.mem_tokenUses,
        Option.isNone_iff_eq_none, TokenNames.lookup?_eq_none]
    · rw [TokenNames.unmapped_of_nodup grammar.nodup_tokenUses]
      exact (Distinct.pairwise_ofList grammar.mentions).filter _
  · intro missing failed
    refine TypeGraph.avoids_unmapped (fun identity use index used => ?_) _ failed rfl
    rw [given]
    exact mt TokenNames.lookup?_eq_none.mp (passes.mp passed use (Grammar.uses_of_valid validated used))
  · intro graph run id constant member
    obtain ⟨use, index, used, text, named⟩ := (TypeGraph.steps_of_build run).sourced id constant member
    rw [given] at named
    exact ⟨use, index, used, text, TokenNames.maps_of_name rfl named⟩

/-- Sums have an operator, and commas among their children. -/
def sums : Grammar where
  nodeTypes := [
    { name := "sum", named := true, extra := false, root := false, subtypes := none
      children := some ⟨true, false, [⟨",", false⟩]⟩
      fields := some (.ofList [("operator", ⟨false, true, [⟨"+", false⟩, ⟨"-", false⟩]⟩)]) }]

/-- Each token of a sum is named in another place. -/
def sumNames : TokenNames where
  table := .ofList [
    ("sum", .ofList [("operator", .ofList [("+", "PLUS")]), ("", .ofList [(",", "COMMA")])]),
    ("", .ofList [("operator", .ofList [("-", "MINUS")]), ("", .ofList [("+", "CROSS")])])]
  exhaustive := true

theorem validate_covers_sums :
    (∃ error, (⟨.empty, true⟩ : TokenNames).validate sums.tokenUses = .error error) ∧
      sumNames.validate sums.tokenUses = .ok () ∧
      ∃ valid graph, sums.validate none = .ok valid ∧
        TypeGraph.build (Config.default.settings ⟨sumNames, none⟩ sums) valid = .ok graph ∧
        (graph.ids.flatMap fun id => (graph.node id).tokens) = [⟨"COMMA", ","⟩, ⟨"PLUS", "+"⟩, ⟨"MINUS", "-"⟩] ∧
        ∀ id, ∀ constant ∈ (graph.node id).tokens, ∃ use index, TypeGraph.Uses valid (graph.node id).identity use index ∧
          constant.token = use.token ∧ sumNames.Maps use constant.name := by
  have unnamed : ∃ use, sums.Uses use ∧ (⟨.empty, true⟩ : TokenNames).Unmapped use := by
    refine ⟨⟨"sum", "", ","⟩, Grammar.mem_tokenUses.mp (by decide), ?_⟩
    rw [TokenNames.Unmapped]
    decide
  have passed : sumNames.validate sums.tokenUses = .ok () := by decide +kernel
  have told : (sums.validate none >>= TypeGraph.build (Config.default.settings ⟨sumNames, none⟩ sums)).toOption.map
      (fun graph => graph.ids.flatMap fun id => (graph.node id).tokens) =
        some [⟨"COMMA", ","⟩, ⟨"PLUS", "+"⟩, ⟨"MINUS", "-"⟩] := by
    decide +kernel
  obtain ⟨graph, run, tokens⟩ := ListEffects.exists_ok_of_map told
  obtain ⟨valid, validated, built⟩ := bind_eq_ok.mp run
  obtain ⟨_, _, covered⟩ := validate_covers sums sumNames.table
  exact ⟨(validate_covers sums .empty).1.mpr unnamed, passed, valid, graph, validated, built, tokens,
    (covered passed none valid _ validated rfl).2 graph built⟩

end TypedTree
