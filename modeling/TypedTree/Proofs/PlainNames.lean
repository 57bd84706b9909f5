import TypedTree.Proofs.BuildFailures
import TypedTree.Proofs.DefaultNames
import TypedTree.Proofs.HoistingOutcomes
import TypedTree.Proofs.Spellings

/-! Names made of ASCII letters, digits and underscores. All names that are made of them by default can be declared: each has
a word in front of it that no reserved name begins with, and the spellings add nothing but underscores. -/

namespace TypedTree

open ListEffects (Avoids avoids_ok avoids_error bind_eq_ok)

namespace Naming

/-- An ASCII letter or digit, or an underscore. -/
def IsPlainPart (c : Char) : Prop := c.isAlphanum = true ∨ c = '_'

/-- A name of plain parts, which may be empty. -/
def IsPlain (name : String) : Prop := ∀ c ∈ name.toList, IsPlainPart c

instance : DecidablePred IsPlainPart := fun c => inferInstanceAs (Decidable (c.isAlphanum = true ∨ c = '_'))

instance (name : String) : Decidable (IsPlain name) := List.decidableBAll IsPlainPart name.toList

variable {text : List Char} {c : Char} {front name back : String}

theorem isLower_iff : c.isLower = true ↔ 97 ≤ c.toNat ∧ c.toNat ≤ 122 := by
  simp [Char.isLower, UInt32.le_iff_toNat_le, ← Char.toNat_val]

theorem IsPlainPart.ascii (plain : IsPlainPart c) : c.toNat < 128 := by
  rcases plain with letter | rfl
  · simp only [Char.isAlphanum, Char.isAlpha, Bool.or_eq_true, isUpper_iff, isLower_iff, isDigit_iff] at letter
    omega
  · decide

theorem IsPlainPart.upper (plain : IsPlainPart c) : ∀ big ∈ Text.upper c, IsPlainPart big := by
  rw [Text.upper_of_ascii plain.ascii]
  refine List.forall_mem_singleton.mpr ?_
  rcases plain with letter | rfl
  · rcases Bool.or_eq_true_iff.mp letter with letter | digit
    · exact Or.inl (by rw [Char.isAlphanum, Char.isAlpha_toUpper_eq_isAlpha, letter, Bool.true_or])
    · have small : c.isLower = false := by
        rw [Bool.eq_false_iff, ne_eq, isLower_iff]
        rw [isDigit_iff] at digit
        omega
      exact Or.inl (by rw [Char.toUpper_eq_of_not_isLower (by simp [small])]; exact letter)
  · exact Or.inr rfl

theorem IsPlainPart.identifier (plain : IsPlainPart c) : Java.isIdentifierPart c = true := by
  rcases plain with letter | rfl
  · have ascii : c.toNat < 128 := IsPlainPart.ascii (Or.inl letter)
    have known : c.isAlpha = true ∨ c.isDigit = true := by simpa [Char.isAlphanum] using letter
    simp only [Java.isIdentifierPart, Text.isLetter, Text.isNumber, ascii, if_true, Bool.or_eq_true]
    exact Or.inl (Or.inl known)
  · rfl

theorem isIdentifier_append {rest : List Char} (valid : Java.isIdentifier text = true)
    (parts : ∀ c ∈ rest, Java.isIdentifierPart c = true) : Java.isIdentifier (text ++ rest) = true := by
  cases text with
  | nil => cases valid
  | cons first text =>
    obtain ⟨start, others⟩ : Java.isIdentifierStart first = true ∧ text.all Java.isIdentifierPart = true := by
      simpa [Java.isIdentifier] using valid
    rw [List.cons_append, Java.isIdentifier, start, List.all_append, others, List.all_eq_true.mpr parts]
    rfl

/-- Behind a word with a letter in upper case, plain parts make a name that can be declared. -/
theorem typeNameFlaw?_of_front (valid : Java.isIdentifier front.toList = true) (loud : front.toList.any Char.isUpper = true)
    (plain : IsPlain name) : Java.typeNameFlaw? (front ++ name) = none := by
  obtain ⟨c, inside, upper⟩ := List.any_eq_true.mp loud
  refine typeNameFlaw?_of_isUpper (c := c) ?_ ?_ upper
  · rw [String.toList_append]
    exact isIdentifier_append valid fun c member => (plain c member).identifier
  · rw [String.toList_append]
    exact List.mem_append_left _ inside

theorem isPlain_spell {spelling : List Char → List Char} (keeps : ∀ c ∈ spelling name.toList, IsPlainPart c) :
    IsPlain (spell spelling name) := by
  rwa [IsPlain, spell, String.toList_ofList]

theorem IsPlain.append (plain : IsPlain name) (more : IsPlain back) : IsPlain (name ++ back) := by
  rw [IsPlain, String.toList_append]
  exact List.forall_mem_append.mpr ⟨plain, more⟩

theorem IsPlain.typeCase (plain : IsPlain name) : IsPlain (spell typeCase name) :=
  isPlain_spell (forall_mem_typeCase (fun _ => IsPlainPart.upper) plain)

theorem IsPlain.constantCase (plain : IsPlain name) : IsPlain (spell constantCase name) :=
  isPlain_spell (forall_mem_constantCase (fun _ => IsPlainPart.upper) (Or.inr rfl) plain)

theorem IsPlain.fieldWord (plain : IsPlain name) : IsPlain (spell (fun field => upperFirst (camelCase field)) name) :=
  isPlain_spell (forall_mem_upperFirst (fun _ => IsPlainPart.upper) (forall_mem_camelCase (fun _ => IsPlainPart.upper) plain))

end Naming

/-- A field of the place has a plain name. -/
def Place.IsPlain (place : Place) : Prop := ∀ field, place = .field field → Naming.IsPlain field

namespace Place

open Naming (typeNameFlaw?_of_front)

theorem IsPlain.getter {place : Place} (plain : place.IsPlain) (multiple : Bool) :
    Java.typeNameFlaw? (place.getter multiple) = none := by
  cases place with
  | children => cases multiple <;> decide +kernel
  | field name => exact typeNameFlaw?_of_front (by decide +kernel) (by decide +kernel) (plain name rfl).fieldWord

theorem IsPlain.typeName {place : Place} (plain : place.IsPlain) (kind : TypeKind) :
    Java.typeNameFlaw? (place.typeName kind) = none := by
  cases place with
  | children => cases kind <;> decide +kernel
  | field name =>
    have word := (plain name rfl).fieldWord
    have interface : Java.typeNameFlaw? (Naming.Scheme.fieldInterface name) = none :=
      typeNameFlaw?_of_front (by decide +kernel) (by decide +kernel) word
    have tokens : Java.typeNameFlaw? (Naming.Scheme.fieldTokens name) = none :=
      typeNameFlaw?_of_front (by decide +kernel) (by decide +kernel) word
    cases kind with
    | tokens => exact tokens
    | regular => exact interface
    | supertype => exact interface
    | childTypes => exact interface

end Place

/-- Nothing is configured that gives names to types, tokens or methods. -/
structure Config.NamesByDefault (config : Config) : Prop where
  pattern : config.typeNamePattern = none
  tokens : config.tokenNames = none
  customs : config.customMethods.nodeTypes = .empty

theorem Config.NamesByDefault.scheme {config : Config} (byDefault : config.NamesByDefault) :
    config.scheme = .ok .automatic := by
  rw [Config.scheme, byDefault.pattern, byDefault.tokens]
  rfl

/-- The names of the node types and of their fields are plain. Tokens may be any text. -/
def Grammar.IsPlain (grammar : Grammar) : Prop :=
  ∀ type ∈ grammar.namedNodes, Naming.IsPlain type.name ∧ ∀ entry ∈ type.fieldSlots, Naming.IsPlain entry.1

theorem Grammar.IsPlain.place {grammar : Grammar} (plain : grammar.IsPlain) {type : NodeType} {place : Place} {slot : Slot}
    (member : type ∈ grammar.namedNodes) (listed : (place, slot) ∈ TypeGraph.slots type) : place.IsPlain := by
  rintro field rfl
  have inside : (field, slot) ∈ type.fieldSlots := by
    rw [TypeGraph.slots, List.mem_append] at listed
    rcases listed with children | fields
    · split at children <;> simp at children
    · simpa using fields
  exact (plain type member).2 _ inside

variable {config : Config} {grammar : Grammar} {valid : ValidGrammar} {name : String}

/-- All names that are proposed by default can be declared. -/
theorem usable_of_proposes (byDefault : config.NamesByDefault) (plain : grammar.IsPlain)
    (validated : grammar.validate config.rootNode = .ok valid)
    (proposed : TypeGraph.Proposes (config.settings .automatic grammar) valid name) : Java.typeNameFlaw? name = none := by
  have parts := Grammar.parts_of_validate validated
  have regular {type : NodeType} (member : type ∈ valid.regular) : type ∈ grammar.namedNodes := by
    rw [parts.plain] at member
    exact List.mem_of_mem_filter member
  have supertype {type : NodeType} (member : type ∈ valid.supertypes) : type ∈ grammar.namedNodes := by
    rw [parts.super] at member
    exact List.mem_of_mem_filter member
  cases proposed with
  | @nodeType type _ _ member assigned found =>
    have spelled : name = Naming.Scheme.automatic.className type.name :=
      Naming.eq_className_of_assignClasses (fun _ _ none => by cases none) assigned found
    have named := (List.mem_append.mp member).elim regular supertype
    rw [spelled]
    exact Naming.typeNameFlaw?_of_front (by decide +kernel) (by decide +kernel) (plain type named).1.typeCase
  | custom configured =>
    have none : (config.settings .automatic grammar).customMethods.nodeTypes = .empty := byDefault.customs
    rw [none] at configured
    cases configured
  | fieldName member listed =>
    have word := (plain.place (regular member) listed _ rfl).constantCase
    exact Naming.typeNameFlaw?_of_front (by decide +kernel) (by decide +kernel) word
  | fieldId member listed =>
    have word := (plain.place (regular member) listed _ rfl).constantCase.append (show Naming.IsPlain "_ID" by decide +kernel)
    rw [Naming.Scheme.fieldIdConstant, String.append_assoc]
    exact Naming.typeNameFlaw?_of_front (by decide +kernel) (by decide +kernel) word
  | getter member listed => exact (plain.place (regular member) listed).getter _
  | slotType member listed kind => exact (plain.place (regular member) listed).typeName kind
  | @token _ _ use index _ named =>
    have automatic : (config.settings .automatic grammar).names.scheme.tokens.name use index =
        .ok (Naming.defaultTokenName use.token index) := rfl
    cases automatic.symm.trans named
    exact Naming.typeNameFlaw?_of_isShouted (Naming.isShouted_defaultTokenName use.token index)

/-- A run that does not fail by a name. -/
abbrev AcceptsNames {α : Type} (run : Except Error α) : Prop := Avoids (·.isInvalidName = true) run

theorem acceptsNames_checkRoot (requested marked : Option String) (type : NodeType) :
    AcceptsNames (Grammar.checkRoot requested marked type) := by
  unfold Grammar.checkRoot
  split
  · exact avoids_ok _
  · split
    · exact avoids_error Bool.false_ne_true
    · split
      · exact avoids_error Bool.false_ne_true
      · exact avoids_ok _

theorem acceptsNames_checkNode (requested : Option String) (checked : Grammar.Checked) (type : NodeType) :
    AcceptsNames (Grammar.checkNode requested checked type) := by
  unfold Grammar.checkNode Grammar.checkNamed
  split
  · split
    · exact avoids_error Bool.false_ne_true
    · refine (acceptsNames_checkRoot requested _ type).bind fun _ _ => ?_
      split
      · split
        · exact avoids_error Bool.false_ne_true
        · exact avoids_ok _
      · exact avoids_ok _
  · split
    · exact avoids_error Bool.false_ne_true
    · exact avoids_ok _

theorem acceptsNames_validate (grammar : Grammar) (requested : Option String) : AcceptsNames (grammar.validate requested) := by
  refine Avoids.bind (.foldlM (fun type _ checked => acceptsNames_checkNode requested checked type) _) fun checked _ => ?_
  split
  · split
    · exact avoids_ok _
    · exact avoids_error Bool.false_ne_true
  · exact avoids_ok _

theorem acceptsNames_resolve (graph : TypeGraph) : AcceptsNames (Hoisting.resolve graph).2 := by
  have record (entries : List (TypeId × List Method)) (graph : TypeGraph) :
      AcceptsNames (Hoisting.record graph entries).2 := by
    induction entries generalizing graph with
    | nil => exact avoids_ok _
    | cons entry entries ih =>
      rw [Hoisting.record, TypeGraph.setCommonMethods]
      split
      · exact ih _
      next failed =>
        split at failed
        · cases failed
          exact avoids_error Bool.false_ne_true
        · cases failed
  rw [Hoisting.resolve]
  split
  · exact record _ _
  next failed =>
    obtain ⟨_, _, _, _, _, _, _, rfl⟩ := Classical.not_not.mp (Hoisting.avoids_hoistAll graph _ failed)
    exact avoids_error Bool.false_ne_true

theorem acceptsNames_model (graph : TypeGraph) : AcceptsNames graph.model := by
  refine Avoids.bind ?_ fun _ _ => avoids_ok _
  rw [TypeGraph.declarationOrder, TypeGraph.orderIds]
  cases Order.sort (graph.edges TypeNode.subtypes rfl) .refuse graph.ids.reverse with
  | error => exact avoids_error Bool.false_ne_true
  | ok => exact avoids_ok _

theorem acceptsNames_build (byDefault : config.NamesByDefault) (plain : grammar.IsPlain)
    (validated : grammar.validate config.rootNode = .ok valid) :
    AcceptsNames (TypeGraph.build (config.settings .automatic grammar) valid) := by
  intro error failed refused
  cases error with
  | invalidName name flaw =>
    obtain ⟨proposed, flawed⟩ := TypeGraph.proposes_of_build failed
    rw [usable_of_proposes byDefault plain validated proposed] at flawed
    cases flawed
  | _ => cases refused

/-- By default, plain names of node types and fields are enough for all names to be usable, whatever the tokens are. -/
theorem generate_acceptsNames (config : Config) (byDefault : config.NamesByDefault) (grammar : Grammar)
    (plain : grammar.IsPlain) :
    (∀ name flaw, generate grammar config ≠ .error (.invalidName name flaw)) ∧
      ∀ token index, Java.memberNameFlaw? (Naming.defaultTokenName token index) = none := by
  refine ⟨fun name flaw failed => ?_, fun token index => ?_⟩
  · have keeps : AcceptsNames (generate grammar config) := by
      refine Avoids.bind ?_ fun graph _ => acceptsNames_model graph
      rw [buildGraph, byDefault.scheme]
      refine (avoids_ok _).bind fun scheme same => ?_
      cases same
      refine (avoids_ok ()).bind fun _ _ => (acceptsNames_validate grammar _).bind fun valid validated => ?_
      refine (acceptsNames_build byDefault plain validated).bind fun graph _ => ?_
      -- hoisting hands back the graph beside its outcome, so this is no bind
      have resolved := acceptsNames_resolve graph
      split
      next => exact avoids_ok _
      next unresolved =>
        rw [unresolved] at resolved
        exact avoids_error (resolved _ rfl)
    exact keeps _ failed rfl
  · exact Naming.memberNameFlaw?_of_type (Naming.typeNameFlaw?_of_isShouted (Naming.isShouted_defaultTokenName token index))

/-- Names that are empty, begin with digits or are keywords, and tokens that are blanks or not in ASCII. -/
def oddities : Grammar where
  nodeTypes := [
    { name := "", named := true, extra := false, root := false, subtypes := none
      children := some ⟨true, false, [⟨"\t", false⟩, ⟨"λ", false⟩, ⟨"if", false⟩]⟩
      fields := some (.ofList [
        ("", ⟨false, true, [⟨" ", false⟩, ⟨"\u0085", false⟩]⟩),
        ("9_lives", ⟨false, true, [⟨"", true⟩]⟩)]) },
    { name := "_1", named := true, extra := false, root := false, children := none, subtypes := none
      fields := some (.ofList [
        ("class", ⟨true, false, [⟨"", true⟩, ⟨"_1", true⟩]⟩),
        ("__", ⟨false, true, [⟨"_", false⟩]⟩)]) }]

theorem generate_acceptsNames_oddities :
    Config.default.NamesByDefault ∧ oddities.IsPlain ∧ (generate oddities .default).toOption.isSome = true ∧
      (∀ name flaw, generate oddities .default ≠ .error (.invalidName name flaw)) ∧
        ∀ token index, Java.memberNameFlaw? (Naming.defaultTokenName token index) = none := by
  have byDefault : Config.default.NamesByDefault := ⟨rfl, rfl, rfl⟩
  have plain : oddities.IsPlain := by
    have types : oddities.namedNodes.all fun type =>
        decide (Naming.IsPlain type.name) && type.fieldSlots.all fun entry => decide (Naming.IsPlain entry.1) := by
      decide +kernel
    simpa only [Grammar.IsPlain, List.all_eq_true, Bool.and_eq_true, decide_eq_true_eq] using types
  exact ⟨byDefault, plain, by decide +kernel, generate_acceptsNames .default byDefault oddities plain⟩

end TypedTree
