import Mathlib.Data.List.Induction
import Mathlib.Data.List.Perm.Basic
import TypedTree.Grammar.Validation
import TypedTree.Proofs.ListEffects

/-! What validation makes of a grammar. It accepts just the well-formed grammars, and splits their named node types into
two lists. -/

namespace TypedTree.Grammar

open ListEffects (bind_eq_ok error_ne_ok)

structure Bare (type : NodeType) : Prop where
  children : type.children = none
  fields : type.fieldSlots = []

/-- What some of the named node types of a grammar are split into. -/
structure Parts (named regular supertypes : List NodeType) : Prop where
  plain : regular = named.filter (!·.isSupertype)
  super : supertypes = named.filter (·.isSupertype)
  distinct : (named.map (·.name)).Nodup
  bare : ∀ type ∈ supertypes, Bare type

theorem Parts.distinct_parts {named regular supertypes : List NodeType} (parts : Parts named regular supertypes) :
    ((regular ++ supertypes).map (·.name)).Nodup := by
  have all : (regular ++ supertypes).Perm named := by
    rw [parts.plain, parts.super]
    simpa using List.filter_append_perm (fun type : NodeType => !type.isSupertype) named
  exact (all.map _).nodup_iff.mpr parts.distinct

/-- Nothing but the name of a token is described. -/
structure Unstructured (type : NodeType) : Prop extends Bare type where
  subtypes : type.subtypes = none
  root : type.root = false

structure Supertype (type : NodeType) (subtypes : List TypeMention) : Prop extends Bare type where
  several : 2 ≤ subtypes.length

/-- Node types that can stand in one grammar. If a root is requested for it, none of them is marked as the root. -/
structure Sound (requested : Option String) (types : List NodeType) : Prop where
  tokens : ∀ type ∈ types, type.named = false → Unstructured type
  distinct : ((types.filter (·.named)).map (·.name)).Nodup
  supertypes : ∀ type ∈ types, type.named = true → ∀ subtypes, type.subtypes = some subtypes → Supertype type subtypes
  marked : ((types.filter (·.named)).filter (·.root)).length ≤ 1
  unmarked : requested ≠ none → ∀ type ∈ types, type.named = true → type.root = false

/-- A node type that can come behind others. -/
structure Admits (requested : Option String) (types : List NodeType) (type : NodeType) : Prop where
  token : type.named = false → Unstructured type
  new : type.named = true → type.name ∉ (types.filter (·.named)).map (·.name)
  supertype : type.named = true → ∀ subtypes, type.subtypes = some subtypes → Supertype type subtypes
  root : type.named = true → type.root = true →
    requested = none ∧ (types.filter (·.named)).filter (·.root) = []

/-- A request names one of the node types, besides. -/
structure WellFormed (grammar : Grammar) (requested : Option String) : Prop
    extends Sound requested grammar.nodeTypes where
  present : ∀ root, requested = some root → root ∈ grammar.typeNames

variable {requested : Option String} {types : List NodeType} {type : NodeType}

theorem sound_nil : Sound requested [] :=
  ⟨List.forall_mem_nil _, List.nodup_nil, List.forall_mem_nil _, Nat.zero_le 1, fun _ => List.forall_mem_nil _⟩

theorem sound_concat : Sound requested (types ++ [type]) ↔ Sound requested types ∧ Admits requested types type := by
  have named (isNamed : type.named = true) : (types ++ [type]).filter (·.named) = types.filter (·.named) ++ [type] := by
    simp [isNamed]
  have unnamed (isToken : type.named = false) : (types ++ [type]).filter (·.named) = types.filter (·.named) := by
    simp [isToken]
  constructor
  · intro ⟨tokens, distinct, supertypes, marked, unmarked⟩
    rw [List.forall_mem_append, List.forall_mem_singleton] at tokens supertypes
    have sublist : (types.filter (·.named)).Sublist ((types ++ [type]).filter (·.named)) :=
      (List.sublist_append_left ..).filter _
    refine ⟨⟨tokens.1, distinct.sublist (sublist.map _), supertypes.1, ?_, fun given other inside => ?_⟩,
      tokens.2, fun isNamed repeated => ?_, supertypes.2, fun isNamed isRoot => ?_⟩
    · exact Nat.le_trans (sublist.filter _).length_le marked
    · exact unmarked given other (List.mem_append_left _ inside)
    · rw [named isNamed, List.map_append, List.nodup_append] at distinct
      exact distinct.2.2 _ repeated _ (List.mem_singleton_self _) rfl
    · refine ⟨Decidable.byContradiction fun given => ?_, ?_⟩
      · rw [unmarked given type (List.mem_append_right _ (List.mem_singleton_self _)) isNamed] at isRoot
        cases isRoot
      · rw [named isNamed, List.filter_append, List.length_append, List.filter_singleton, isRoot] at marked
        exact List.length_eq_zero_iff.mp (Nat.le_zero.mp (Nat.le_of_succ_le_succ marked))
  · intro ⟨⟨tokens, distinct, supertypes, marked, unmarked⟩, admits⟩
    refine ⟨?_, ?_, ?_, ?_, fun given => ?_⟩
    · rw [List.forall_mem_append, List.forall_mem_singleton]
      exact ⟨tokens, admits.token⟩
    · cases isNamed : type.named with
      | false => rwa [unnamed isNamed]
      | true =>
        rw [named isNamed]
        exact Distinct.nodup_map_concat distinct fun other known same =>
          admits.new isNamed (List.mem_map.mpr ⟨other, known, same⟩)
    · rw [List.forall_mem_append, List.forall_mem_singleton]
      exact ⟨supertypes, admits.supertype⟩
    · cases isNamed : type.named with
      | false => rwa [unnamed isNamed]
      | true =>
        rw [named isNamed, List.filter_append]
        cases isRoot : type.root with
        | false => simpa [isRoot] using marked
        | true => simp [(admits.root isNamed isRoot).2, isRoot]
    · rw [List.forall_mem_append, List.forall_mem_singleton]
      refine ⟨unmarked given, fun isNamed => Bool.eq_false_iff.mpr fun isRoot => given (admits.root isNamed isRoot).1⟩

theorem bare_iff : Bare type ↔ type.children.isSome = false ∧ type.hasFields = false := by
  constructor
  · intro ⟨children, fields⟩
    simp [children, fields, NodeType.hasFields]
  · intro ⟨childless, fieldless⟩
    exact ⟨by simpa using childless, by simpa [NodeType.hasFields] using fieldless⟩

theorem tokenFlaw?_eq_none : tokenFlaw? type = none ↔ Unstructured type := by
  have parts : Unstructured type ↔ Bare type ∧ type.subtypes = none ∧ type.root = false :=
    ⟨fun flat => ⟨flat.toBare, flat.subtypes, flat.root⟩, fun ⟨bare, subtypes, root⟩ => ⟨bare, subtypes, root⟩⟩
  rw [parts, bare_iff, tokenFlaw?, NodeType.isSupertype]
  cases type.subtypes <;> grind

theorem supertypeFlaw?_eq_none {subtypes : List TypeMention} :
    supertypeFlaw? type subtypes = none ↔ Supertype type subtypes := by
  have parts : Supertype type subtypes ↔ Bare type ∧ 2 ≤ subtypes.length :=
    ⟨fun super => ⟨super.toBare, super.several⟩, fun ⟨bare, several⟩ => ⟨bare, several⟩⟩
  rw [parts, bare_iff, supertypeFlaw?]
  grind

theorem checkRoot_eq_ok {marked next : Option String} : checkRoot requested marked type = .ok next ↔
    (type.root = true → requested = none ∧ marked = none) ∧
      next = marked.or (if type.root then some type.name else none) := by
  rw [checkRoot.eq_def]
  cases isRoot : type.root with
  | false => simp [eq_comm]
  | true =>
    cases requested with
    | some root => exact iff_of_false error_ne_ok fun both => nomatch (both.1 rfl).1
    | none =>
      cases marked with
      | some previous => exact iff_of_false error_ne_ok fun both => nomatch (both.1 rfl).2
      | none => simp [eq_comm]

theorem checkNamed_eq_ok {checked next : Checked} : checkNamed requested checked type = .ok next ↔
    type.name ∉ checked.names ∧ (type.root = true → requested = none ∧ checked.marked = none) ∧
      (∀ subtypes, type.subtypes = some subtypes → Supertype type subtypes) ∧
      next = {
        names := checked.names ++ [type.name]
        regular := if type.isSupertype then checked.regular else checked.regular ++ [type]
        supertypes := if type.isSupertype then checked.supertypes ++ [type] else checked.supertypes
        marked := checked.marked.or (if type.root then some type.name else none) } := by
  rw [checkNamed]
  by_cases known : type.name ∈ checked.names
  · rw [if_pos known]
    exact iff_of_false error_ne_ok fun both => both.1 known
  · rw [if_neg known, bind_eq_ok]
    simp only [checkRoot_eq_ok, and_assoc, exists_and_left, exists_eq_left, known, not_false_eq_true, true_and]
    refine and_congr_right fun _ => ?_
    cases super : type.subtypes with
    | none =>
      simp only [NodeType.isSupertype, super]
      exact ⟨fun run => ⟨by simp, (Except.ok.inj run).symm⟩, fun both => congrArg Except.ok both.2.symm⟩
    | some subtypes =>
      simp only [NodeType.isSupertype, super, Option.some.injEq, forall_eq', Option.isSome_some, if_true,
        ← supertypeFlaw?_eq_none]
      cases supertypeFlaw? type subtypes with
      | none => exact ⟨fun run => ⟨rfl, (Except.ok.inj run).symm⟩, fun both => congrArg Except.ok both.2.symm⟩
      | some flaw => exact iff_of_false error_ne_ok (by simp)

/-- What is known after some node types were checked. -/
def Checked.ofTypes (types : List NodeType) : Checked :=
  let named := types.filter (·.named)
  ⟨named.map (·.name), named.filter (!·.isSupertype), named.filter (·.isSupertype), (named.find? (·.root)).map (·.name)⟩

theorem checkNode_eq_ok {next : Checked} : checkNode requested (.ofTypes types) type = .ok next ↔
    Admits requested types type ∧ next = .ofTypes (types ++ [type]) := by
  rw [checkNode]
  cases isNamed : type.named with
  | false =>
    have same : Checked.ofTypes (types ++ [type]) = .ofTypes types := by simp [Checked.ofTypes, isNamed]
    have admits : Admits requested types type ↔ tokenFlaw? type = none := by
      rw [tokenFlaw?_eq_none]
      refine ⟨fun admits => admits.token isNamed, fun flat => ⟨fun _ => flat, ?_, ?_, ?_⟩⟩
      all_goals
        intro named
        rw [isNamed] at named
        cases named
    rw [same, admits]
    cases tokenFlaw? type with
    | none => simp [eq_comm]
    | some flaw => exact iff_of_false error_ne_ok (by simp)
  | true =>
    have same : Checked.ofTypes (types ++ [type]) = {
        names := (Checked.ofTypes types).names ++ [type.name]
        regular := if type.isSupertype then (Checked.ofTypes types).regular else (Checked.ofTypes types).regular ++ [type]
        supertypes :=
          if type.isSupertype then (Checked.ofTypes types).supertypes ++ [type] else (Checked.ofTypes types).supertypes
        marked := (Checked.ofTypes types).marked.or (if type.root then some type.name else none) } := by
      cases super : type.isSupertype <;> cases isRoot : type.root <;>
        simp [Checked.ofTypes, List.find?_append, isNamed, super, isRoot]
    have unmarked : (Checked.ofTypes types).marked = none ↔ (types.filter (·.named)).filter (·.root) = [] := by
      rw [Checked.ofTypes, Option.map_eq_none_iff, List.find?_eq_none, List.filter_eq_nil_iff]
    have admits : Admits requested types type ↔ type.name ∉ (Checked.ofTypes types).names ∧
        (type.root = true → requested = none ∧ (Checked.ofTypes types).marked = none) ∧
        ∀ subtypes, type.subtypes = some subtypes → Supertype type subtypes := by
      rw [unmarked]
      refine ⟨fun admits => ⟨admits.new isNamed, admits.root isNamed, admits.supertype isNamed⟩,
        fun ⟨new, root, supertype⟩ => ⟨fun isToken => ?_, fun _ => new, fun _ => supertype, fun _ => root⟩⟩
      rw [isNamed] at isToken
      cases isToken
    rw [if_pos rfl, checkNamed_eq_ok, admits, same, and_assoc, and_assoc]

theorem foldlM_checkNode {checked : Checked} : types.foldlM (checkNode requested) (.ofTypes []) = .ok checked ↔
    Sound requested types ∧ checked = .ofTypes types := by
  induction types using List.reverseRecOn generalizing checked with
  | nil => exact ⟨fun run => ⟨sound_nil, (Except.ok.inj run).symm⟩, fun both => congrArg Except.ok both.2.symm⟩
  | append_singleton types type ih =>
    simp only [List.foldlM_append, List.foldlM_cons, List.foldlM_nil, bind_pure, bind_eq_ok, ih, and_assoc,
      exists_and_left, exists_eq_left, checkNode_eq_ok, sound_concat]

variable {grammar : Grammar} {valid : ValidGrammar}

/-- A grammar is valid if it is well-formed. Its root is the one that is requested, or else the one that is marked. -/
theorem validate_eq_ok : grammar.validate requested = .ok valid ↔ WellFormed grammar requested ∧ valid = {
    regular := grammar.namedNodes.filter (!·.isSupertype)
    supertypes := grammar.namedNodes.filter (·.isSupertype)
    root := requested.or ((grammar.namedNodes.find? (·.root)).map (·.name)) } := by
  have wellFormed : WellFormed grammar requested ↔
      Sound requested grammar.nodeTypes ∧ ∀ root, requested = some root → root ∈ grammar.typeNames :=
    ⟨fun formed => ⟨formed.toSound, formed.present⟩, fun ⟨sound, present⟩ => ⟨sound, present⟩⟩
  have start : (⟨[], [], [], none⟩ : Checked) = .ofTypes [] := rfl
  rw [validate, start, bind_eq_ok]
  simp only [foldlM_checkNode, and_assoc, exists_and_left, exists_eq_left, wellFormed]
  refine and_congr_right fun _ => ?_
  cases requested with
  | none => exact ⟨fun run => ⟨by simp, (Except.ok.inj run).symm⟩, fun both => congrArg Except.ok both.2.symm⟩
  | some root =>
    have names : (Checked.ofTypes grammar.nodeTypes).names = grammar.typeNames := rfl
    simp only [names, Option.some.injEq, forall_eq', Option.some_or]
    split
    next present => exact ⟨fun run => ⟨present, (Except.ok.inj run).symm⟩, fun both => congrArg Except.ok both.2.symm⟩
    next absent => exact iff_of_false error_ne_ok fun both => absent both.1

/-- A valid grammar has all named node types, each under a name of its own, and its supertypes are bare. -/
theorem parts_of_validate (run : grammar.validate requested = .ok valid) :
    Parts grammar.namedNodes valid.regular valid.supertypes := by
  obtain ⟨formed, rfl⟩ := validate_eq_ok.mp run
  refine ⟨rfl, rfl, formed.distinct, fun type member => ?_⟩
  obtain ⟨inside, super⟩ := List.mem_filter.mp member
  obtain ⟨described, named⟩ := List.mem_filter.mp inside
  obtain ⟨subtypes, present⟩ := Option.isSome_iff_exists.mp super
  exact (formed.supertypes type described named subtypes present).toBare

end TypedTree.Grammar
