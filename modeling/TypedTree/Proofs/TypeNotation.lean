import Mathlib.Data.List.Basic
import TypedTree.Java.TypeParser

/-! Which types can be written, and how their two notations differ: between a class and the classes nested in it, source
has a dollar sign where text has a dot. -/

namespace TypedTree.Java

open TypeParser (isNameChar)

/-- A run of letters, digits and underscores. -/
structure IsWord (word : String) : Prop where
  nonempty : word.toList ≠ []
  chars : ∀ c ∈ word.toList, isNameChar c = true

instance (word : String) : Decidable (IsWord word) :=
  decidable_of_iff (word.toList.isEmpty = false ∧ word.toList.all isNameChar = true)
    ⟨fun ⟨nonempty, chars⟩ => ⟨List.isEmpty_eq_false_iff.mp nonempty, List.all_eq_true.mp chars⟩,
      fun ⟨nonempty, chars⟩ => ⟨List.isEmpty_eq_false_iff.mpr nonempty, List.all_eq_true.mpr chars⟩⟩

def startsUpper (word : String) : Bool := word.toList.head?.any Text.isUpperCase

namespace ClassName

/-- A package is a list of words with dots between them. Without words it is empty. -/
def IsPackage (package : String) : Prop :=
  ∃ segments : List String, (∀ segment ∈ segments, IsWord segment) ∧ package = ".".intercalate segments

/-- A name by which source can refer to a class. -/
structure WellFormed (name : ClassName) : Prop where
  package : IsPackage name.package
  nonempty : name.names ≠ []
  words : ∀ word ∈ name.names, IsWord word
  unreserved : ∀ word, name = topLevel "" word → word ≠ "void" ∧ Primitive.ofKeyword? word = none

/-- Where a class and a type variable can stand, a single word in upper case is a variable. -/
structure NamesType (name : ClassName) : Prop extends WellFormed name where
  constant : ∀ word, name = topLevel "" word → startsUpper word = false

theorem ne_topLevel {name : ClassName} (packaged : name.package ≠ "") (word : String) : name ≠ topLevel "" word :=
  fun same => packaged (congrArg package same)

end ClassName

namespace JavaType

/-- Where a type stands. -/
inductive Position where
  | whole
  /-- In an array. -/
  | component
  | argument
  /-- Of a wildcard. -/
  | bound
deriving DecidableEq

/-- A type that can be written where it stands. Only arguments are wildcards, and neither arguments nor their bounds
are primitive. -/
inductive WellFormed : Position → JavaType → Prop
  | primitive {position : Position} {annotations : List ClassName} {kind : Primitive}
      (labels : ∀ label ∈ annotations, label.WellFormed) (place : position = .whole ∨ position = .component) :
      WellFormed position (.primitive annotations kind)
  | classType {position : Position} {annotations : List ClassName} {name : ClassName}
      (labels : ∀ label ∈ annotations, label.WellFormed) (named : name.NamesType) :
      WellFormed position (.classType annotations name)
  | parameterized {position : Position} {annotations : List ClassName} {raw : ClassName} {arguments : List JavaType}
      (labels : ∀ label ∈ annotations, label.WellFormed) (named : raw.NamesType) (nonempty : arguments ≠ [])
      (each : ∀ argument ∈ arguments, WellFormed .argument argument) :
      WellFormed position (.parameterized annotations raw arguments)
  | array {position : Position} {annotations : List ClassName} {element : JavaType}
      (labels : ∀ label ∈ annotations, label.WellFormed) (component : WellFormed .component element) :
      WellFormed position (.array annotations element)
  | typeVariable {position : Position} {annotations : List ClassName} {name : String}
      (labels : ∀ label ∈ annotations, label.WellFormed) (word : IsWord name) (upper : startsUpper name = true) :
      WellFormed position (.typeVariable annotations name)
  | wildcard : WellFormed .argument (.wildcard [])
  | wildcardExtends {bound : JavaType} (above : WellFormed .bound bound) :
      WellFormed .argument (.wildcardExtends [] bound)
  | wildcardSuper {bound : JavaType} (below : WellFormed .bound bound) :
      WellFormed .argument (.wildcardSuper [] bound)

/-- The notation in which a type is read. -/
def source (t : JavaType) : String := String.ofList (t.chars '$')

end JavaType

/-- What text has for a character of source. -/
def dotted (c : Char) : Char := if c = '$' then '.' else c

theorem map_dotted {chars : List Char} (plain : '$' ∉ chars) : chars.map dotted = chars := by
  have same : ∀ c ∈ chars, dotted c = c := by
    intro c member
    refine if_neg fun mark => plain ?_
    rwa [← mark]
  rw [List.map_congr_left same, List.map_id']

theorem mem_intercalate {mark c : Char} {words : List (List Char)} (member : c ∈ [mark].intercalate words) :
    c = mark ∨ ∃ word ∈ words, c ∈ word := by
  induction words with
  | nil => cases member
  | cons word words ih =>
    cases words with
    | nil =>
      rw [List.intercalate_singleton] at member
      exact Or.inr ⟨word, List.mem_cons_self, member⟩
    | cons next rest =>
      rw [List.intercalate_cons_cons, List.mem_append, List.mem_append, List.mem_singleton] at member
      rcases member with (here | mark) | later
      · exact Or.inr ⟨word, List.mem_cons_self, here⟩
      · exact Or.inl mark
      · exact (ih later).imp_right fun ⟨other, inside, there⟩ => ⟨other, List.mem_cons_of_mem _ inside, there⟩

theorem map_dotted_intercalate {words : List (List Char)} (plain : ∀ word ∈ words, '$' ∉ word) :
    (['$'].intercalate words).map dotted = ['.'].intercalate words := by
  induction words with
  | nil => rfl
  | cons word words ih =>
    have here := map_dotted (plain word List.mem_cons_self)
    have later := ih fun other inside => plain other (List.mem_cons_of_mem _ inside)
    cases words with
    | nil => rw [List.intercalate_singleton, List.intercalate_singleton, here]
    | cons next rest =>
      rw [List.intercalate_cons_cons, List.intercalate_cons_cons, List.map_append, List.map_append, here, later]
      rfl

theorem IsWord.not_mem {word : String} (isWord : IsWord word) {c : Char} (mark : isNameChar c = false) :
    c ∉ word.toList := by
  intro member
  rw [isWord.chars c member] at mark
  cases mark

namespace ClassName

theorem IsPackage.not_mem {package : String} (isPackage : IsPackage package) {c : Char} (mark : isNameChar c = false)
    (other : c ≠ '.') : c ∉ package.toList := by
  obtain ⟨segments, words, rfl⟩ := isPackage
  intro member
  rw [String.toList_intercalate] at member
  rcases mem_intercalate member with dot | ⟨chars, listed, there⟩
  · exact other dot
  · obtain ⟨segment, inside, rfl⟩ := List.mem_map.mp listed
    exact (words segment inside).not_mem mark there

theorem WellFormed.map_chars {name : ClassName} (wellFormed : name.WellFormed) :
    (name.chars '$').map dotted = name.chars '.' := by
  have package : name.package.toList.map dotted = name.package.toList :=
    map_dotted (wellFormed.package.not_mem rfl (by decide))
  have names : (['$'].intercalate (name.names.map String.toList)).map dotted =
      ['.'].intercalate (name.names.map String.toList) := by
    refine map_dotted_intercalate fun chars listed => ?_
    obtain ⟨word, inside, rfl⟩ := List.mem_map.mp listed
    exact (wellFormed.words word inside).not_mem rfl
  rw [chars, chars, List.map_append, names]
  split
  · rfl
  · rw [List.map_append, package]
    rfl

end ClassName

namespace JavaType

variable {annotations : List ClassName}

theorem map_annotationChars (labels : ∀ label ∈ annotations, label.WellFormed) :
    (annotationChars '$' annotations).map dotted = annotationChars '.' annotations := by
  rw [annotationChars, annotationChars, List.map_flatMap]
  refine List.flatMap_congr fun label member => ?_
  rw [List.map_append, List.map_append, (labels label member).map_chars]
  rfl

theorem map_dimensionChars (labels : ∀ label ∈ annotations, label.WellFormed) :
    (dimensionChars '$' annotations).map dotted = dimensionChars '.' annotations := by
  have each : (annotations.flatMap fun label => [' ', '@'] ++ label.chars '$').map dotted =
      annotations.flatMap fun label => [' ', '@'] ++ label.chars '.' := by
    rw [List.map_flatMap]
    refine List.flatMap_congr fun label member => ?_
    rw [List.map_append, (labels label member).map_chars]
    rfl
  rw [dimensionChars, dimensionChars]
  split
  · rfl
  · rw [List.map_append, each]
    rfl

theorem argumentChars_cons_cons (mark : Char) (first next : JavaType) (rest : List JavaType) :
    argumentChars mark (first :: next :: rest) =
      first.charsBefore mark [] ++ [',', ' '] ++ argumentChars mark (next :: rest) := rfl

theorem map_argumentChars {arguments : List JavaType}
    (each : ∀ argument ∈ arguments, (argument.chars '$').map dotted = argument.chars '.') :
    (argumentChars '$' arguments).map dotted = argumentChars '.' arguments := by
  induction arguments with
  | nil => rfl
  | cons first rest ih =>
    have here := each first List.mem_cons_self
    have later := ih fun argument inside => each argument (List.mem_cons_of_mem _ inside)
    rw [chars, chars] at here
    cases rest with
    | nil => exact here
    | cons next rest =>
      rw [argumentChars_cons_cons, argumentChars_cons_cons, List.map_append, List.map_append, here, later]
      rfl

theorem chars_wildcardExtends (mark : Char) (bound : JavaType) :
    (wildcardExtends [] bound).chars mark = '?' :: (" extends ".toList ++ bound.chars mark) := by
  simp [chars, charsBefore, annotationChars]

theorem chars_wildcardSuper (mark : Char) (bound : JavaType) :
    (wildcardSuper [] bound).chars mark = '?' :: (" super ".toList ++ bound.chars mark) := by
  simp [chars, charsBefore, annotationChars]

theorem WellFormed.map_charsBefore {position : Position} {t : JavaType} (wellFormed : WellFormed position t)
    (dimensions : List Char) :
    (t.charsBefore '$' dimensions).map dotted = t.charsBefore '.' (dimensions.map dotted) := by
  induction wellFormed generalizing dimensions with
  | @primitive _ _ kind labels _ =>
    have keyword : kind.keyword.toList.map dotted = kind.keyword.toList := map_dotted (by cases kind <;> decide)
    rw [charsBefore, charsBefore, List.map_append, List.map_append, map_annotationChars labels, keyword]
  | classType labels named =>
    rw [charsBefore, charsBefore, List.map_append, List.map_append, map_annotationChars labels, named.map_chars]
  | parameterized labels named nonempty each ih =>
    have arguments := map_argumentChars fun argument inside => ih argument inside []
    simp only [charsBefore, List.map_append, map_annotationChars labels, named.map_chars, arguments]
    rfl
  | array labels component ih =>
    rw [charsBefore, charsBefore, ih, List.map_append, map_dimensionChars labels]
  | typeVariable labels word upper =>
    rw [charsBefore, charsBefore, List.map_append, List.map_append, map_annotationChars labels,
      map_dotted (word.not_mem rfl)]
  | wildcard => rfl
  | wildcardExtends above ih =>
    simp only [charsBefore, List.map_append, ih]
    rfl
  | wildcardSuper below ih =>
    simp only [charsBefore, List.map_append, ih]
    rfl

/-- Text is source with dots for dollar signs. -/
theorem WellFormed.text_eq {position : Position} {t : JavaType} (wellFormed : WellFormed position t) :
    t.text = t.source.map dotted := by
  rw [← String.toList_inj, String.toList_map, text, source, String.toList_ofList, String.toList_ofList, chars, chars,
    wellFormed.map_charsBefore]
  rfl

end JavaType

end TypedTree.Java
