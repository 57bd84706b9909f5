import Mathlib.Data.List.Nodup
import TypedTree.Generation
import TypedTree.Proofs.BuiltGraphs
import TypedTree.Proofs.PatternLanguage

/-! No two generated types can be taken for one another: the identity of a type tells where it stands, and types are
told apart by their names and by the text of their names. -/

namespace TypedTree

open Java (ClassName)
open Naming (IsMark isMark_dot isMark_star isMark_hash)

namespace Place

/-- What the identity of a slot has behind the dot. -/
def word : Place → List Char
  | children => ['*']
  | field name => name.toList

/-- What the identity of a type of a slot has behind that of the slot. -/
def mark : TypeKind → List Char
  | .tokens => "#tokens".toList
  | _ => []

variable {place other : Place} {kind otherKind : TypeKind} {owner otherOwner : String}

theorem identity_toList (place : Place) (owner : String) :
    (place.identity owner).toList = owner.toList ++ '.' :: place.word := by
  cases place with
  | children =>
    rw [identity, String.toList_append]
    rfl
  | field name =>
    rw [identity, String.toList_append, String.toList_append, List.append_assoc]
    rfl

theorem typeIdentity_toList (place : Place) (owner : String) (kind : TypeKind) :
    (place.typeIdentity owner kind).toList = owner.toList ++ '.' :: (place.word ++ mark kind) := by
  have plain : (place.identity owner).toList = owner.toList ++ '.' :: (place.word ++ []) := by
    rw [List.append_nil, identity_toList]
  cases kind with
  | tokens =>
    rw [typeIdentity, String.toList_append, identity_toList, List.append_assoc]
    rfl
  | regular => exact plain
  | supertype => exact plain
  | childTypes => exact plain

theorem Declared.not_mem_word (declared : place.Declared) {c : Char} (isMark : IsMark c) (other : c ≠ '*') :
    c ∉ place.word := by
  cases place with
  | children => exact fun member => other (List.mem_singleton.mp member)
  | field name => exact isMark.not_mem_field (declared name rfl)

theorem Declared.star_not_mem {name : String} (declared : (field name).Declared) : '*' ∉ name.toList :=
  isMark_star.not_mem_field (declared name rfl)

theorem eq_of_word (declared : place.Declared) (otherDeclared : other.Declared) (same : place.word = other.word) :
    place = other := by
  cases place with
  | children =>
    cases other with
    | children => rfl
    | field name =>
      have star : '*' ∈ (field name).word := by rw [← same]; exact List.mem_singleton_self _
      exact absurd star otherDeclared.star_not_mem
  | field name =>
    cases other with
    | children =>
      have star : '*' ∈ (field name).word := by rw [same]; exact List.mem_singleton_self _
      exact absurd star declared.star_not_mem
    | field otherName => exact congrArg field (String.toList_inj.mp same)

theorem kind_eq_tokens_iff (declared : place.Declared) (slot : kind.isNodeType = false) :
    '#' ∈ place.word ++ mark kind ↔ kind = .tokens := by
  rw [List.mem_append, or_iff_right (declared.not_mem_word isMark_hash (by decide))]
  cases kind with
  | regular => cases slot
  | supertype => cases slot
  | childTypes => decide
  | tokens => decide

/-- Behind the dot stand the slot and the kind of the type, which neither of them hides. -/
theorem eq_of_suffix (declared : place.Declared) (otherDeclared : other.Declared) (slot : kind.isNodeType = false)
    (otherSlot : otherKind.isNodeType = false) (same : place.word ++ mark kind = other.word ++ mark otherKind) :
    place = other ∧ kind = otherKind := by
  have tokens : kind = .tokens ↔ otherKind = .tokens := by
    rw [← kind_eq_tokens_iff declared slot, ← kind_eq_tokens_iff otherDeclared otherSlot, same]
  have kinds : kind = otherKind := by
    cases kind <;> cases otherKind <;> simp_all [TypeKind.isNodeType]
  rw [kinds] at same
  exact ⟨eq_of_word declared otherDeclared (List.append_cancel_right same), kinds⟩

end Place

/-- Two node types with classes are one, or have names without marks. -/
def Unmarked (settings : Settings) : Prop :=
  ∀ one other oneName otherName, settings.names.className one = .ok oneName → settings.names.className other = .ok otherName →
    one = other ∨ ∀ mark, IsMark mark → mark ∉ one.toList ∧ mark ∉ other.toList

theorem unmarked_settings {config : Config} {scheme : Naming.Scheme} (named : config.scheme = .ok scheme)
    (grammar : Grammar) : Unmarked (config.settings scheme grammar) :=
  fun _ _ _ _ first second => Naming.eq_or_unmarked (Naming.Scheme.readsTypes_of_config named) first second

theorem append_dot_inj {one other rest otherRest : List Char} (first : '.' ∉ one) (second : '.' ∉ other)
    (same : one ++ '.' :: rest = other ++ '.' :: otherRest) : one = other := by
  have texts := congrArg (List.takeWhile (· ≠ '.')) same
  rwa [Naming.takeWhile_before first, Naming.takeWhile_before second] at texts

namespace Unmarked

variable {settings : Settings} {place other : Place} {kind otherKind : TypeKind} {owner otherOwner name otherName : String}

/-- The types of slots have identities of their own. -/
theorem typeIdentity_inj (unmarked : Unmarked settings) (assigned : settings.names.className owner = .ok name)
    (otherAssigned : settings.names.className otherOwner = .ok otherName) (declared : place.Declared)
    (otherDeclared : other.Declared) (slot : kind.isNodeType = false) (otherSlot : otherKind.isNodeType = false)
    (same : place.typeIdentity owner kind = other.typeIdentity otherOwner otherKind) :
    owner = otherOwner ∧ place = other ∧ kind = otherKind := by
  have texts := congrArg String.toList same
  rw [Place.typeIdentity_toList, Place.typeIdentity_toList] at texts
  have owners : owner = otherOwner := by
    rcases unmarked _ _ _ _ assigned otherAssigned with owners | plain
    · exact owners
    · obtain ⟨first, second⟩ := plain '.' isMark_dot
      exact String.toList_inj.mp (append_dot_inj first second texts)
  rw [owners] at texts
  have suffixes := List.cons.inj (List.append_cancel_left texts)
  exact ⟨owners, Place.eq_of_suffix declared otherDeclared slot otherSlot suffixes.2⟩

/-- No node type is called like a type of a slot. -/
theorem ne_typeIdentity (unmarked : Unmarked settings) (assigned : settings.names.className owner = .ok name)
    (otherAssigned : settings.names.className otherOwner = .ok otherName) (place : Place) (kind : TypeKind) :
    owner ≠ place.typeIdentity otherOwner kind := by
  intro same
  have texts := congrArg String.toList same
  rw [Place.typeIdentity_toList] at texts
  rcases unmarked _ _ _ _ assigned otherAssigned with rfl | plain
  · have lengths := congrArg List.length texts
    simp at lengths
  · refine (plain '.' isMark_dot).1 ?_
    rw [texts]
    exact List.mem_append_right _ List.mem_cons_self

end Unmarked

namespace TypeGraph

variable {settings : Settings} {grammar : ValidGrammar} {graph after : TypeGraph} {all new : List Addition} {id : TypeId}

/-- No type has the identity of a type of a slot whose name is not reserved. -/
theorem Formed.id?_typeIdentity (formed : Formed settings grammar graph) (unmarked : Unmarked settings) {kind : TypeKind}
    {place : Place} {parent : TypeId} (slot : kind.isNodeType = false) (declared : place.Declared)
    (inside : parent ∈ graph.ids) (regular : (graph.node parent).kind = .regular)
    (free : graph.reservedBy? parent (place.typeName kind) = none) :
    graph.id? (place.typeIdentity (graph.node parent).identity kind) = none := by
  obtain ⟨_, assigned, _⟩ := formed.topLevel inside (by rw [regular]; rfl)
  refine formed.indexed.id?_eq_none fun other otherInside same => ?_
  cases formed.placed other otherInside with
  | nodeType otherName _ otherAssigned =>
    exact unmarked.ne_typeIdentity otherAssigned assigned place kind same
  | nested otherParent otherPlace otherSlot parentInside otherRegular otherDeclared _ identity _ reserved =>
    obtain ⟨_, otherAssigned, _⟩ := formed.topLevel parentInside (by rw [otherRegular]; rfl)
    rw [identity] at same
    obtain ⟨owners, places, kinds⟩ :=
      unmarked.typeIdentity_inj otherAssigned assigned otherDeclared declared otherSlot slot same
    rw [formed.unique otherParent parentInside parent inside owners, places, kinds] at reserved
    cases free.symm.trans reserved

/-- The constants of a token class differ in their names and in their tokens. -/
structure TokensApart (node : TypeNode) : Prop where
  names : (node.tokens.map (·.name)).Nodup
  texts : (node.tokens.map (·.token)).Nodup

theorem tokensApart_of_nil {node : TypeNode} (none : node.tokens = []) : TokensApart node := by
  constructor
  · rw [none]
    exact List.nodup_nil
  · rw [none]
    exact List.nodup_nil

theorem Step.tokensApart (step : Step settings grammar graph new after) (apart : ∀ id, TokensApart (graph.node id))
    (id : TypeId) : TokensApart (after.node id) := by
  obtain ⟨names, texts⟩ := apart id
  cases step.tokenChange id with
  | none tokens => exact ⟨tokens ▸ names, tokens ▸ texts⟩
  | added _ _ _ newText newName tokens =>
    constructor
    · rw [tokens]
      exact Distinct.nodup_map_concat names newName
    · rw [tokens]
      exact Distinct.nodup_map_concat texts newText

theorem Steps.tokensApart (steps : Steps settings grammar empty all graph) : ∀ id, TokensApart (graph.node id) := by
  induction steps with
  | refl =>
    intro id
    have blank : empty.node id = default := node_eq_default (by simp [ids, size, empty])
    exact tokensApart_of_nil (by rw [blank]; rfl)
  | tail _ step ih => exact step.tokensApart ih

/-- No name of a class has dots, other than those of its package. -/
structure PlainName (package : String) (name : ClassName) : Prop where
  package : name.package = package
  nonempty : name.names ≠ []
  words : ∀ word ∈ name.names, '.' ∉ word.toList

theorem PlainName.eq_of_text {package : String} {one other : ClassName} (first : PlainName package one)
    (second : PlainName package other) (same : one.text = other.text) : one = other := by
  have texts := congrArg String.toList same
  rw [ClassName.text, ClassName.text, String.toList_ofList, String.toList_ofList, ClassName.chars, ClassName.chars,
    first.package, second.package] at texts
  have names : ∀ {name : ClassName}, PlainName package name →
      (['.'].intercalate (name.names.map String.toList)).splitOn '.' = name.names.map String.toList := by
    intro name plain
    refine List.splitOn_intercalate '.' (fun chars listed => ?_) (by simpa using plain.nonempty)
    obtain ⟨word, inside, rfl⟩ := List.mem_map.mp listed
    exact plain.words word inside
  have words := congrArg (List.splitOn '.') (List.append_cancel_left texts)
  rw [names first, names second] at words
  obtain ⟨_, oneNames⟩ := one
  obtain ⟨_, otherNames⟩ := other
  cases first.package
  cases second.package
  exact congrArg _ (List.map_injective_iff.mpr (fun _ _ => String.toList_inj.mp) words)

theorem Formed.plainName (formed : Formed settings grammar graph) (inside : id ∈ graph.ids) :
    PlainName settings.package (graph.node id).name := by
  have top : ∀ {simple : String} {type : String}, settings.names.className type = .ok simple → '.' ∉ simple.toList :=
    fun assigned => isMark_dot.not_mem (Naming.isIdentifier_of_className assigned)
  cases formed.placed id inside with
  | nodeType simple _ assigned name =>
    rw [name]
    exact ⟨rfl, List.cons_ne_nil _ _, List.forall_mem_singleton.mpr (top assigned)⟩
  | nested parent place _ parentInside regular _ usable _ name =>
    obtain ⟨simple, assigned, outer⟩ := formed.topLevel parentInside (by rw [regular]; rfl)
    have inner : '.' ∉ (place.typeName (graph.node id).kind).toList := isMark_dot.not_mem (Naming.typeName_eq_ok usable).2
    rw [name, outer]
    exact ⟨rfl, List.cons_ne_nil _ _, List.forall_mem_cons.mpr ⟨top assigned, List.forall_mem_singleton.mpr inner⟩⟩

/-- Types are told apart by their identities, by their names and by the texts of these, and the constants of a token
class by their names and by their tokens. -/
structure Unambiguous (graph : TypeGraph) : Prop where
  identities : (graph.ids.map fun id => (graph.node id).identity).Nodup
  names : (graph.ids.map graph.className).Nodup
  texts : (graph.ids.map fun id => (graph.className id).text).Nodup
  tokens : ∀ id ∈ graph.ids, TokensApart (graph.node id)

theorem unambiguous_of_build (distinct : DistinctClasses settings) (run : build settings grammar = .ok graph) :
    graph.Unambiguous := by
  have steps := steps_of_build run
  have formed := steps.reached.formed
  have named := formed.named distinct
  refine ⟨List.Nodup.map_on formed.unique List.nodup_range, List.Nodup.map_on named List.nodup_range, ?_,
    fun id _ => steps.tokensApart id⟩
  refine List.Nodup.map_on (fun one first other second same => ?_) List.nodup_range
  exact named one first other second ((formed.plainName first).eq_of_text (formed.plainName second) same)

end TypeGraph

end TypedTree
