import TypedTree.Proofs.SimilarGraphs

/-! Other names for tokens. What is built under them differs in the constants of tokens alone, and it is built just if the
tokens of each slot get names of their own. -/

namespace TypedTree

open ListEffects (AnyError Matches bind_eq_ok exists_foldlM foldlM_invariant foldlM_invariant_of_split)
open Naming (TokenNames)

/-- The settings with other names for tokens. -/
def Settings.withTokens (settings : Settings) (tokens : TokenNames) : Settings :=
  { settings with names := { settings.names with scheme := { settings.names.scheme with tokens } } }

/-- The names that the tokens of a slot get where they occur first. -/
structure Naming.TokenNames.Gives (names : TokenNames) (parent field : String) (tokens : List String)
    (given : String → String) : Prop where
  named : ∀ done token rest, tokens = done ++ token :: rest → token ∉ done →
    names.name ⟨parent, field, token⟩ done.length = .ok (given token)
  usable : ∀ token ∈ tokens, Names.memberName (given token) = .ok (given token)

def TypeNode.withoutTokens (node : TypeNode) : TypeNode := { node with tokens := [] }

theorem split_of_zipIdx {α : Type} {xs : List α} {done rest : List (α × Nat)} {x : α} {index : Nat}
    (split : xs.zipIdx = done ++ (x, index) :: rest) :
    xs = done.map Prod.fst ++ x :: rest.map Prod.fst ∧ index = done.length := by
  constructor
  · have firsts := congrArg (List.map Prod.fst) split
    simpa using firsts
  · have here : xs.zipIdx[done.length]? = some (x, index) := by simp [split]
    rw [List.getElem?_zipIdx] at here
    obtain ⟨_, _, same⟩ := Option.map_eq_some_iff.mp here
    simpa using (congrArg Prod.snd same).symm

namespace TypeGraph

variable {settings other : Settings} {names : TokenNames} {graph another after : TypeGraph} {type : TypeId}
  {parent field : String} {texts : List String} {given : String → String} {failing : Error → Error → Prop}
  [Std.Refl failing]

/-- A class has constants for these tokens, under names of their own. -/
structure DeclaresTokens (graph : TypeGraph) (type : TypeId) (given : String → String) (texts : List String) : Prop
    extends graph.Lists type texts where
  names : (graph.node type).tokens.map (·.name) = texts.map given
  apart : (texts.map given).Nodup

theorem DeclaresTokens.addToken {token : String} (declares : graph.DeclaresTokens type given texts) (newText : token ∉ texts)
    (newName : given token ∉ texts.map given) :
    (graph.addToken type (given token) token).DeclaresTokens type given (texts ++ [token]) := by
  refine ⟨declares.toLists.addToken newText _, ?_, ?_⟩
  · rw [TypeGraph.addToken, node_modify, if_pos ⟨rfl, declares.inside⟩]
    simp [declares.names]
  · rw [List.map_append, List.nodup_append]
    refine ⟨declares.apart, by simp, fun _ known _ last same => ?_⟩
    exact newName (List.mem_singleton.mp last ▸ same ▸ known)

theorem declaresTokens_nil (blank : graph.Lists type []) : graph.DeclaresTokens type given [] := by
  have none := List.map_eq_nil_iff.mp blank.tokens
  exact ⟨blank, by simp [none], List.nodup_nil⟩

/-- A class is filled with the tokens of a slot just if their names differ, which is to say that they differ too. -/
theorem exists_filled (blank : graph.Lists type [])
    (gives : settings.names.scheme.tokens.Gives parent field texts given) :
    (∃ after, texts.zipIdx.foldlM (addSlotToken settings parent field type) graph = .ok after) ↔
      (texts.map given).Nodup := by
  constructor
  · rintro ⟨after, run⟩
    have declares : after.DeclaresTokens type given (texts.zipIdx.map Prod.fst) := by
      refine foldlM_invariant_of_split (fun done state => state.DeclaresTokens type given (done.map Prod.fst))
        (declaresTokens_nil blank) ?_ run
      rintro done ⟨token, index⟩ rest state next split declares step
      obtain ⟨order, rfl⟩ := split_of_zipIdx split
      obtain ⟨name, named, newText, newName, rfl⟩ := addSlotToken_eq_ok step
      have fresh : token ∉ done.map Prod.fst := by
        rw [← declares.tokens]
        simpa using newText
      have first := gives.named _ token _ order fresh
      rw [List.length_map, named] at first
      cases first
      rw [List.map_append]
      refine declares.addToken fresh ?_
      rw [← declares.names]
      simpa using newName
    rw [List.zipIdx_map_fst] at declares
    exact declares.apart
  · intro apart
    have filled : ∃ after, texts.zipIdx.foldlM (addSlotToken settings parent field type) graph = .ok after ∧
        after.DeclaresTokens type given (texts.zipIdx.map Prod.fst) := by
      refine exists_foldlM (fun done (state : TypeGraph) => state.DeclaresTokens type given (done.map Prod.fst))
        (declaresTokens_nil blank) ?_
      rintro done ⟨token, index⟩ rest state split declares
      obtain ⟨order, rfl⟩ := split_of_zipIdx split
      rw [order, List.map_append, List.map_cons, List.nodup_append] at apart
      have newName : given token ∉ (done.map Prod.fst).map given := fun known =>
        apart.2.2 _ known _ List.mem_cons_self rfl
      have newText : token ∉ done.map Prod.fst := fun known => newName (List.mem_map_of_mem known)
      have named := gives.named _ token _ order newText
      rw [List.length_map] at named
      refine ⟨state.addToken type (given token) token, ?_, ?_⟩
      · rw [addSlotToken_eq settings named (gives.usable token (by simp [order])), if_neg, List.find?_eq_none.mpr]
        · rw [← declares.names] at newName
          simpa using newName
        · rw [← declares.tokens] at newText
          simpa using newText
      · rw [List.map_append]
        exact declares.addToken newText newName
    obtain ⟨after, run, _⟩ := filled
    exact ⟨after, run⟩

omit [Std.Refl failing] in
/-- Names of tokens matter to the constants of tokens alone. -/
theorem Parallel.withTokens {instead : String → String} {related : TypeGraph → TypeGraph → Prop}
    (parallel : Parallel settings other instead failing related) (names : TokenNames) :
    Parallel settings (other.withTokens names) instead failing related :=
  { parallel with }

theorem parallel_eq (settings : Settings) : Parallel settings settings id failing Eq where
  types := rfl
  ids := by rintro graph _ rfl; rfl
  alike := by rintro graph _ rfl id; exact ⟨rfl, rfl, rfl⟩
  reserved := by rintro graph _ rfl; rfl
  supertypes := by rintro graph _ rfl id; rfl
  lookup := by rintro graph _ rfl name referencedBy; exact .refl failing _
  addNode := by
    rintro graph _ rfl identity name kind -
    refine (Matches.refl failing _).mono ?_
    rintro result _ rfl
    exact ⟨rfl, rfl⟩
  reserve := by rintro graph _ rfl parent name identity; rfl
  addSubtype := by rintro graph _ rfl above below; rfl
  addConstant := by rintro graph _ rfl id name value; rfl
  addMethod := by rintro graph _ rfl id method; rfl
  setRoot := by rintro graph _ rfl id; rfl

theorem parallel_withoutTokens (settings : Settings) :
    Parallel settings settings id failing (EqualUpTo TypeNode.withoutTokens) where
  types := rfl
  ids := fun same => same.ids
  alike := fun same id =>
    ⟨same.field TypeNode.identity (fun _ => rfl) id, same.field TypeNode.name (fun _ => rfl) id,
      same.field TypeNode.kind (fun _ => rfl) id⟩
  reserved := fun same => same.reserved
  supertypes := fun same => same.field TypeNode.supertypes fun _ => rfl
  lookup := fun same name referencedBy => by
    rw [id, lookup_congr same.ids (same.field TypeNode.identity fun _ => rfl) (same.field TypeNode.kind fun _ => rfl)]
    exact .refl failing _
  addNode := fun same _ _ _ _ => matches_addNode same.index same.size fun _ _ _ => same.added
  reserve := fun same => same.reserve
  addSubtype := fun same above below => by
    refine EqualUpTo.modify_of_comm ?_ fun _ => rfl
    exact same.modify_of_comm fun _ => rfl
  addConstant := fun same _ _ _ => same.modify_of_comm fun _ => rfl
  addMethod := fun same _ _ => same.modify_of_comm fun _ => rfl
  setRoot := fun same _ => ⟨same.size, same.index, same.reserved, same.node⟩

/-- Nothing but constants of tokens is added for the tokens of a slot. -/
theorem withoutTokens_of_fold (run : texts.zipIdx.foldlM (addSlotToken settings parent field type) graph = .ok after) :
    EqualUpTo TypeNode.withoutTokens graph after := by
  refine foldlM_invariant (fun _ state => EqualUpTo TypeNode.withoutTokens graph state) (.refl graph) ?_ run
  rintro _ _ state next _ same step
  obtain ⟨_, _, _, _, rfl⟩ := addSlotToken_eq_ok step
  exact same.trans (.changed fun _ => rfl)

omit [Std.Refl failing] in
theorem tokensMatch_withTokens {otherGiven : String → String}
    (gives : settings.names.scheme.tokens.Gives parent field texts given) (apart : (texts.map given).Nodup)
    (otherGives : names.Gives parent field texts otherGiven) (otherApart : (texts.map otherGiven).Nodup) :
    TokensMatch settings (settings.withTokens names) failing (EqualUpTo TypeNode.withoutTokens) parent field texts := by
  intro graph another type same blank otherBlank
  obtain ⟨after, run⟩ := (exists_filled blank gives).mpr apart
  obtain ⟨otherAfter, otherRun⟩ : ∃ after,
      texts.zipIdx.foldlM (addSlotToken (settings.withTokens names) parent field type) another = .ok after :=
    (exists_filled otherBlank otherGives).mpr otherApart
  rw [run, otherRun]
  exact .ok (((withoutTokens_of_fold run).symm.trans same).trans (withoutTokens_of_fold otherRun))

theorem exists_fill_of_addTokens {id : TypeId} {type : NodeType} {place : Place} {slot : Slot} {tokens : Option TypeId}
    (run : addTokens settings id type place slot graph = .ok (after, tokens)) (present : slot.tokens ≠ []) :
    ∃ before full id, TypeGraph.Lists before id [] ∧
      slot.tokens.zipIdx.foldlM (addSlotToken settings type.name place.tokenField id) before = .ok full := by
  rw [addTokens, if_neg (by simpa using present)] at run
  obtain ⟨⟨first, id⟩, nested, run⟩ := bind_eq_ok.mp run
  obtain ⟨full, run, _⟩ := bind_eq_ok.mp run
  exact ⟨first, full, id, lists_addNested nested, run⟩

theorem exists_fill_of_addTarget {known result : Java.Ancestry} {parent target : TypeId} {type : NodeType} {place : Place}
    {slot : Slot} (run : addTarget settings known parent type place slot graph = .ok (after, target, result))
    (present : slot.tokens ≠ []) :
    ∃ before full id, TypeGraph.Lists before id [] ∧
      slot.tokens.zipIdx.foldlM (addSlotToken settings type.name place.tokenField id) before = .ok full := by
  cases targets_of_addTarget run with
  | single none => exact absurd none present
  | tokens _ added => exact exists_fill_of_addTokens added present
  | several _ _ added => exact exists_fill_of_addTokens added present

/-- A class is filled with the tokens of every slot that has any. -/
theorem exists_fill_of_build {grammar : ValidGrammar} {type : NodeType} {entry : Place × Slot}
    (run : build settings grammar = .ok graph) (member : type ∈ grammar.regular) (listed : entry ∈ slots type)
    (present : entry.2.tokens ≠ []) :
    ∃ before after id, TypeGraph.Lists before id [] ∧
      entry.2.tokens.zipIdx.foldlM (addSlotToken settings type.name entry.1.tokenField id) before = .ok after := by
  obtain ⟨named, snapshot, filled, stages⟩ := exists_stages run
  have accessors := stages.accessors
  obtain ⟨earlier, later, split⟩ := List.append_of_mem member
  rw [split] at accessors
  obtain ⟨state, next, _, here, _⟩ := ListEffects.exists_of_foldlM_split accessors
  obtain ⟨parent, _, here⟩ := bind_eq_ok.mp here
  obtain ⟨earlier, later, split⟩ := List.append_of_mem listed
  rw [split] at here
  obtain ⟨state, next, _, here, _⟩ := ListEffects.exists_of_foldlM_split here
  obtain ⟨_, first, second, target, result, _, added, _⟩ := addAccessor_eq_ok here
  exact exists_fill_of_addTarget added present

/-- The tokens of a slot have names of their own if something was built. -/
theorem nodup_of_build {grammar : ValidGrammar} {type : NodeType} {entry : Place × Slot}
    (run : build settings grammar = .ok graph) (member : type ∈ grammar.regular) (listed : entry ∈ slots type)
    (gives : settings.names.scheme.tokens.Gives type.name entry.1.tokenField entry.2.tokens given) :
    (entry.2.tokens.map given).Nodup := by
  by_cases present : entry.2.tokens = []
  · simp [present]
  · obtain ⟨before, after, id, blank, fill⟩ := exists_fill_of_build run member listed present
    exact (exists_filled blank gives).mp ⟨after, fill⟩

/-- Under other names the same is built up to the constants of tokens, as long as the names in each slot differ. -/
theorem matches_build_withTokens {grammar : ValidGrammar} {given otherGiven : NodeType → Place × Slot → String → String}
    (gives : ∀ type ∈ grammar.regular, ∀ entry ∈ slots type,
      settings.names.scheme.tokens.Gives type.name entry.1.tokenField entry.2.tokens (given type entry) ∧
        (entry.2.tokens.map (given type entry)).Nodup)
    (otherGives : ∀ type ∈ grammar.regular, ∀ entry ∈ slots type,
      names.Gives type.name entry.1.tokenField entry.2.tokens (otherGiven type entry) ∧
        (entry.2.tokens.map (otherGiven type entry)).Nodup) :
    Matches failing (EqualUpTo TypeNode.withoutTokens) (build settings grammar)
      (build (settings.withTokens names) grammar) := by
  refine ((parallel_withoutTokens settings).withTokens names).build_id rfl rfl (fun _ named _ _ => .refl named) ?_
  intro type member entry listed
  obtain ⟨gives, apart⟩ := gives type member entry listed
  obtain ⟨otherGives, otherApart⟩ := otherGives type member entry listed
  exact tokensMatch_withTokens gives apart otherGives otherApart

end TypeGraph

end TypedTree
