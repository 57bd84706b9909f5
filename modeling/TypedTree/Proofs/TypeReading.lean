import Mathlib.Data.List.TakeWhile
import TypedTree.Proofs.NameReading

/-! What is read as a type is the source of that type, and the type can be written. -/

namespace TypedTree.Java

open JavaType (annotationChars dimensionChars argumentChars)
open ListEffects (bind_eq_ok)

namespace TypeParser

variable {fuel : Nat} {text rest : List Char} {annotations : List ClassName} {dimensions : List (List ClassName)}

theorem className_eq_ok {named : Named} {name : ClassName} (run : named.className = .ok name) :
    named = .classType name := by
  cases named with
  | classType => exact congrArg Named.classType (Except.ok.inj run)
  | primitive => cases run

theorem readAnnotations_eq_ok (run : readAnnotations fuel text = .ok (annotations, rest)) :
    text = annotationChars '$' annotations ++ rest ∧ ∀ label ∈ annotations, label.WellFormed := by
  induction fuel generalizing text annotations with
  | zero =>
    cases run
    exact ⟨rfl, List.forall_mem_nil _⟩
  | succ fuel ih =>
    unfold readAnnotations at run
    split at run
    next _ text same =>
      cases same
      obtain ⟨⟨named, behind⟩, read, run⟩ := bind_eq_ok.mp run
      obtain ⟨label, isClass, ended⟩ := bind_eq_ok.mp run
      cases className_eq_ok isClass
      obtain ⟨same, _, wellFormed⟩ := readName_eq_ok read
      dsimp only at ended
      split at ended
      next =>
        obtain ⟨⟨others, _⟩, more, ended⟩ := bind_eq_ok.mp ended
        cases ended
        obtain ⟨sameRest, labels⟩ := ih more
        refine ⟨?_, List.forall_mem_cons.mpr ⟨wellFormed label rfl, labels⟩⟩
        rw [same, sameRest, Named.chars]
        simp [annotationChars]
      next => cases ended
    next =>
      cases run
      exact ⟨rfl, List.forall_mem_nil _⟩

theorem typeVariable?_eq_some {name : List Char} (found : typeVariable? text = some (name, rest)) :
    text = name ++ rest ∧ IsWord (String.ofList name) ∧ startsUpper (String.ofList name) = true := by
  rw [typeVariable?] at found
  split at found
  next starts =>
    dsimp only at found
    split at found
    next => cases found
    next =>
      cases found
      obtain ⟨first, head, upper⟩ : ∃ first, text.head? = some first ∧ Text.isUpperCase first = true := by
        simpa [Option.any_eq_true] using starts
      obtain ⟨more, rfl⟩ := List.head?_eq_some_iff.mp head
      have letter : isNameChar first = true := by
        rw [isNameChar, Text.isAlphanumeric_of_isUpperCase upper, Bool.true_or]
      refine ⟨List.takeWhile_append_dropWhile.symm, ⟨?_, ?_⟩, ?_⟩
      · simp [letter]
      · intro c member
        rw [String.toList_ofList] at member
        exact List.mem_takeWhile_imp member
      · simp [startsUpper, letter, upper]
  next => cases found

/-- The space that ends an annotation can as well be said to begin the next one. -/
theorem cons_annotationChars (annotations : List ClassName) :
    ' ' :: annotationChars '$' annotations =
      annotations.flatMap (fun label => [' ', '@'] ++ label.chars '$') ++ [' '] := by
  induction annotations with
  | nil => rfl
  | cons label labels ih =>
    simp only [annotationChars, List.flatMap_cons, List.append_assoc, List.cons_append, List.nil_append] at ih ⊢
    rw [ih]

theorem dimensionChars_eq (labelled : annotations ≠ []) :
    dimensionChars '$' annotations = ' ' :: annotationChars '$' annotations ++ ['[', ']'] := by
  rw [cons_annotationChars, dimensionChars, List.isEmpty_eq_false_iff.mpr labelled, List.append_assoc]
  rfl

/-- The dimensions of an array, the outermost one first. -/
def dimensionsChars (dimensions : List (List ClassName)) : List Char := dimensions.flatMap (dimensionChars '$')

theorem readLabels_eq_ok (run : readLabels fuel text = .ok (annotations, rest)) :
    (annotations = [] ∧ text = rest ∨ annotations ≠ [] ∧ text = ' ' :: annotationChars '$' annotations ++ rest) ∧
      ∀ label ∈ annotations, label.WellFormed := by
  unfold readLabels at run
  split at run
  next =>
    obtain ⟨⟨labels, _⟩, read, run⟩ := bind_eq_ok.mp run
    obtain ⟨same, wellFormed⟩ := readAnnotations_eq_ok read
    dsimp only at run
    split at run
    next => cases run
    next labelled =>
      cases run
      refine ⟨Or.inr ⟨mt List.isEmpty_iff.mpr labelled, ?_⟩, wellFormed⟩
      rw [same, List.cons_append]
  next =>
    cases run
    exact ⟨Or.inl ⟨rfl, rfl⟩, List.forall_mem_nil _⟩

theorem readDimensions_eq_ok (run : readDimensions fuel text = .ok (dimensions, rest)) :
    text = dimensionsChars dimensions ++ rest ∧ ∀ labels ∈ dimensions, ∀ label ∈ labels, label.WellFormed := by
  induction fuel generalizing text dimensions with
  | zero =>
    cases run
    exact ⟨rfl, List.forall_mem_nil _⟩
  | succ fuel ih =>
    obtain ⟨⟨labels, behind⟩, labelled, run⟩ := bind_eq_ok.mp run
    obtain ⟨before, wellFormed⟩ := readLabels_eq_ok labelled
    dsimp only at run
    split at run
    next more =>
      obtain ⟨⟨others, _⟩, later, ended⟩ := bind_eq_ok.mp run
      cases ended
      obtain ⟨same, each⟩ := ih later
      refine ⟨?_, List.forall_mem_cons.mpr ⟨wellFormed, each⟩⟩
      rw [dimensionsChars, List.flatMap_cons, List.append_assoc, ← dimensionsChars, ← same]
      rcases before with ⟨rfl, bare⟩ | ⟨some, before⟩
      · exact bare
      · rw [dimensionChars_eq some, before, List.append_assoc]
        rfl
    next => cases run
    next =>
      split at run
      next none =>
        cases run
        obtain ⟨_, bare⟩ := before.resolve_right fun ⟨labelled, _⟩ => labelled (List.isEmpty_iff.mp none)
        exact ⟨bare, List.forall_mem_nil _⟩
      next => cases run

theorem charsBefore_inArrays (mark : Char) (dimensions : List (List ClassName)) (element : JavaType)
    (around : List Char) :
    (inArrays dimensions element).charsBefore mark around =
      element.charsBefore mark (around ++ dimensions.flatMap (dimensionChars mark)) := by
  induction dimensions generalizing around with
  | nil => rw [List.flatMap_nil, List.append_nil]; rfl
  | cons labels dimensions ih =>
    rw [List.flatMap_cons, ← List.append_assoc, ← ih]
    rfl

theorem wellFormed_inArrays {position : JavaType.Position} {element : JavaType}
    (each : ∀ labels ∈ dimensions, ∀ label ∈ labels, label.WellFormed) (component : element.WellFormed .component)
    (alone : dimensions = [] → element.WellFormed position) : (inArrays dimensions element).WellFormed position := by
  induction dimensions generalizing position with
  | nil => exact alone rfl
  | cons labels dimensions ih =>
    obtain ⟨labels, each⟩ := List.forall_mem_cons.mp each
    exact .array labels (ih each fun _ => component)

/-- Where the type that is read stands. -/
def place (asArgument : Bool) : JavaType.Position := bif asArgument then .bound else .whole

end TypeParser

theorem JavaType.WellFormed.argument {bound : JavaType} (wellFormed : bound.WellFormed .bound) :
    bound.WellFormed .argument := by
  cases wellFormed with
  | primitive labels place => exact absurd place (by decide)
  | classType labels named => exact .classType labels named
  | parameterized labels named nonempty each => exact .parameterized labels named nonempty each
  | array labels component => exact .array labels component
  | typeVariable labels word upper => exact .typeVariable labels word upper

def JavaType.isArray : JavaType → Bool
  | .array _ _ => true
  | _ => false

namespace TypeParser

variable {asArgument : Bool} {type : JavaType} {types : List JavaType}

theorem afterWord?_eq_some {word : String} {behind : List Char} (found : afterWord? word text = some behind) :
    text = word.toList ++ behind := by
  rw [afterWord?] at found
  split at found
  next starts =>
    cases found
    obtain ⟨behind, rfl⟩ := List.isPrefixOf_iff_prefix.mp starts
    rw [← String.length_toList, List.drop_left]
  next => cases found

/-- A type that is not an array stands before the dimensions around it. -/
theorem charsBefore_element {element : JavaType} (plain : element.isArray = false) (mark : Char)
    (around : List Char) : element.charsBefore mark around = element.chars mark ++ around := by
  cases element with
  | array => cases plain
  | _ => simp [JavaType.chars, JavaType.charsBefore]

theorem inArrays_chars {element : JavaType} (plain : element.isArray = false)
    (dimensions : List (List ClassName)) :
    (inArrays dimensions element).chars '$' = element.chars '$' ++ dimensionsChars dimensions := by
  rw [JavaType.chars, charsBefore_inArrays, charsBefore_element plain]
  rfl

theorem head_word {word : String} (isWord : IsWord word) (text : List Char) :
    (word.toList ++ text).head?.any Text.isUpperCase = startsUpper word := by
  obtain ⟨first, others, split⟩ := List.exists_cons_of_ne_nil isWord.nonempty
  simp [startsUpper, split]

theorem dropWhile_word {word : String} (isWord : IsWord word)
    (stops : ∀ c, text.head? = some c → isNameChar c = false) :
    (word.toList ++ text).dropWhile isNameChar = text := by
  rw [List.dropWhile_append_of_pos isWord.chars]
  cases text with
  | nil => rfl
  | cons c text => rw [List.dropWhile_cons, stops c rfl, if_neg Bool.false_ne_true]

theorem typeVariable?_word {word : String} (isWord : IsWord word) (upper : startsUpper word = true) (ends : Ends rest) :
    typeVariable? (word.toList ++ rest) = some (word.toList, rest) := by
  have unqualified : ¬(rest.head? = some '.' ∨ rest.head? = some '$') := fun qualified =>
    qualified.elim (fun dot => (ends _ dot).1 rfl) fun dollar => (ends _ dollar).2.1 rfl
  have behind : (word.toList ++ rest).dropWhile isNameChar = rest :=
    dropWhile_word isWord fun c head => (ends c head).2.2
  have before : (word.toList ++ rest).takeWhile isNameChar = word.toList := by
    have all := List.takeWhile_append_dropWhile (p := isNameChar) (l := word.toList ++ rest)
    rw [behind] at all
    exact List.append_cancel_right all
  rw [typeVariable?, head_word isWord, if_pos upper, behind, before]
  exact if_neg unqualified

/-- A class that was not taken for a type variable is none. -/
theorem namesType_of_typeVariable?_eq_none {name : ClassName} (wellFormed : name.WellFormed) (ends : Ends rest)
    (noVariable : typeVariable? (name.chars '$' ++ rest) = none) : name.NamesType := by
  refine ⟨wellFormed, fun word same => Bool.eq_false_iff.mpr fun upper => ?_⟩
  have isWord : IsWord word := wellFormed.words word (by simp [same, ClassName.topLevel])
  have chars : name.chars '$' = word.toList := by simp [same, ClassName.topLevel, ClassName.chars]
  rw [chars, typeVariable?_word isWord upper ends] at noVariable
  cases noVariable

theorem readElement_eq_ok {readArguments : List Char → Except Problem (List JavaType × List Char)} {name : Named}
    {element : JavaType}
    (reads : ∀ {text rest : List Char} {types : List JavaType}, readArguments text = .ok (types, rest) →
      text = argumentChars '$' types ++ rest ∧ types ≠ [] ∧ ∀ type ∈ types, type.WellFormed .argument)
    (labels : ∀ label ∈ annotations, label.WellFormed) (named : ∀ raw, name = .classType raw → raw.NamesType)
    (run : readElement readArguments annotations name text = .ok (element, rest)) :
    annotationChars '$' annotations ++ (name.chars ++ text) = element.chars '$' ++ rest ∧
      element.isArray = false ∧
      ∀ position, (position = .whole ∨ position = .component ∨ ∃ raw, name.className = .ok raw) →
        element.WellFormed position := by
  unfold readElement at run
  split at run
  next text =>
    obtain ⟨raw, isClass, run⟩ := bind_eq_ok.mp run
    obtain ⟨⟨arguments, behind⟩, read, closed⟩ := bind_eq_ok.mp run
    obtain rfl := className_eq_ok isClass
    obtain ⟨rfl, some, each⟩ := reads read
    dsimp only at closed
    split at closed
    next =>
      cases closed
      exact ⟨by simp [JavaType.chars, JavaType.charsBefore, Named.chars], rfl,
        fun _ _ => .parameterized labels (named raw rfl) some each⟩
    next => cases closed
  next =>
    split at run
    next raw =>
      cases run
      exact ⟨by simp [JavaType.chars, JavaType.charsBefore, Named.chars], rfl, fun _ _ => .classType labels (named raw rfl)⟩
    next kind _ =>
      cases run
      refine ⟨by simp [JavaType.chars, JavaType.charsBefore, Named.chars], rfl, fun position place => ?_⟩
      refine .primitive labels (place.imp_right fun place => place.resolve_right ?_)
      rintro ⟨_, ⟨⟩⟩

theorem checkPlace_eq_ok {name : Named} {asArgument : Bool}
    (run : name.checkPlace asArgument dimensions = .ok ()) (alone : dimensions = []) :
    place asArgument = .whole ∨ ∃ raw, name.className = .ok raw := by
  cases asArgument with
  | false => exact Or.inl rfl
  | true =>
    rw [Named.checkPlace, if_pos ⟨rfl, List.isEmpty_iff.mpr alone⟩] at run
    cases name with
    | classType raw => exact Or.inr ⟨raw, rfl⟩
    | primitive => cases run

mutual

theorem readType_eq_ok {fuel : Nat} {text rest : List Char} {asArgument : Bool} {type : JavaType}
    (run : readType fuel asArgument text = .ok (type, rest)) :
    text = type.chars '$' ++ rest ∧ type.WellFormed (place asArgument) := by
  cases fuel with
  | zero => cases run
  | succ fuel =>
    obtain ⟨⟨annotations, behind⟩, annotated, onward⟩ := bind_eq_ok.mp run
    obtain ⟨rfl, labels⟩ := readAnnotations_eq_ok annotated
    dsimp only at onward
    split at onward
    next name behind found =>
      obtain ⟨rfl, word, upper⟩ := typeVariable?_eq_some found
      split at onward
      next => cases onward
      next =>
        obtain ⟨⟨dimensions, _⟩, read, onward⟩ := bind_eq_ok.mp onward
        cases onward
        obtain ⟨rfl, each⟩ := readDimensions_eq_ok read
        refine ⟨?_, wellFormed_inArrays each (.typeVariable labels word upper) fun _ => .typeVariable labels word upper⟩
        rw [inArrays_chars rfl, JavaType.chars, JavaType.charsBefore, String.toList_ofList]
        simp
    next noVariable =>
      obtain ⟨⟨name, behind⟩, named, onward⟩ := bind_eq_ok.mp onward
      obtain ⟨⟨element, behind⟩, read, onward⟩ := bind_eq_ok.mp onward
      obtain ⟨⟨dimensions, _⟩, bracketed, onward⟩ := bind_eq_ok.mp onward
      obtain ⟨_, placed, onward⟩ := bind_eq_ok.mp onward
      cases onward
      obtain ⟨rfl, ends, wellFormed⟩ := readName_eq_ok named
      have namesType : ∀ raw, name = .classType raw → raw.NamesType := by
        rintro raw rfl
        exact namesType_of_typeVariable?_eq_none (wellFormed raw rfl) ends noVariable
      obtain ⟨same, plain, wellFormed⟩ := readElement_eq_ok readArguments_eq_ok labels namesType read
      obtain ⟨rfl, each⟩ := readDimensions_eq_ok bracketed
      refine ⟨?_, wellFormed_inArrays each (wellFormed _ (Or.inr (Or.inl rfl))) fun alone => wellFormed _ ?_⟩
      · rw [inArrays_chars plain, same, List.append_assoc]
      · exact (checkPlace_eq_ok placed alone).imp_right Or.inr

theorem readArguments_eq_ok {fuel : Nat} {text rest : List Char} {types : List JavaType}
    (run : readArguments fuel text = .ok (types, rest)) :
    text = argumentChars '$' types ++ rest ∧ types ≠ [] ∧ ∀ type ∈ types, type.WellFormed .argument := by
  cases fuel with
  | zero => cases run
  | succ fuel =>
    obtain ⟨⟨first, behind⟩, read, onward⟩ := bind_eq_ok.mp run
    obtain ⟨rfl, wellFormed⟩ := readArgument_eq_ok read
    dsimp only at onward
    split at onward
    next =>
      obtain ⟨⟨others, _⟩, more, onward⟩ := bind_eq_ok.mp onward
      cases onward
      obtain ⟨rfl, some, each⟩ := readArguments_eq_ok more
      obtain ⟨next, others, rfl⟩ := List.exists_cons_of_ne_nil some
      refine ⟨?_, List.cons_ne_nil _ _, List.forall_mem_cons.mpr ⟨wellFormed, each⟩⟩
      simp [JavaType.argumentChars_cons_cons, JavaType.chars]
    next =>
      cases onward
      exact ⟨rfl, List.cons_ne_nil _ _, List.forall_mem_singleton.mpr wellFormed⟩

theorem readArgument_eq_ok {fuel : Nat} {text rest : List Char} {type : JavaType}
    (run : readArgument fuel text = .ok (type, rest)) :
    text = type.chars '$' ++ rest ∧ type.WellFormed .argument := by
  cases fuel with
  | zero => cases run
  | succ fuel =>
    unfold readArgument at run
    split at run
    next =>
      split at run
      next found =>
        obtain ⟨⟨bound, _⟩, read, onward⟩ := bind_eq_ok.mp run
        obtain ⟨same, above⟩ := readType_eq_ok read
        cases onward
        exact ⟨by simp [afterWord?_eq_some found, same, JavaType.chars, JavaType.charsBefore, annotationChars], .wildcardExtends above⟩
      next =>
        split at run
        next found =>
          obtain ⟨⟨bound, _⟩, read, onward⟩ := bind_eq_ok.mp run
          obtain ⟨same, below⟩ := readType_eq_ok read
          cases onward
          refine ⟨?_, .wildcardSuper below⟩
          rw [afterWord?_eq_some found, same, JavaType.chars_wildcardSuper, List.cons_append, List.append_assoc]
        next =>
          cases run
          exact ⟨rfl, .wildcard⟩
    next =>
      obtain ⟨same, wellFormed⟩ := readType_eq_ok run
      exact ⟨same, wellFormed.argument⟩

end

theorem readAll_eq_ok {text : List Char} {type : JavaType} (run : readAll text = .ok type) :
    text = type.chars '$' ∧ type.WellFormed .whole := by
  obtain ⟨⟨type, rest⟩, read, onward⟩ := bind_eq_ok.mp run
  obtain ⟨same, wellFormed⟩ := readType_eq_ok read
  dsimp only at onward
  split at onward
  next ended =>
    cases onward
    rw [List.isEmpty_iff.mp ended, List.append_nil] at same
    exact ⟨same, wellFormed⟩
  next => cases onward

end TypeParser

namespace JavaType

/-- What is read is the source of the type that is found. -/
theorem source_of_ofText {text : String} {type : JavaType} (run : ofText text = .ok type) :
    text = type.source ∧ type.WellFormed .whole := by
  cases read : TypeParser.readAll text.toList with
  | error => simp [ofText, read, Except.mapError] at run
  | ok found =>
    rw [ofText, read] at run
    cases run
    obtain ⟨same, wellFormed⟩ := TypeParser.readAll_eq_ok read
    exact ⟨by rw [source, ← same, String.ofList_toList], wellFormed⟩

/-- A text is read as a type that can be written, and its notation is that text with dots for dollar signs. -/
theorem text_of_ofText {text : String} {type : JavaType} (run : ofText text = .ok type) :
    type.text = text.map dotted ∧ type.WellFormed .whole := by
  obtain ⟨rfl, wellFormed⟩ := source_of_ofText run
  exact ⟨wellFormed.text_eq, wellFormed⟩

/-- Two dimensions, of which the outer one is annotated, around a nested class with two arguments. -/
def entries : JavaType :=
  .array [.topLevel "" "Sorted"] (.array [] (.parameterized [] ⟨"java.util", ["Map", "Entry"]⟩
    [.typeVariable [.topLevel "a" "Key"] "K", .wildcardExtends [] (.array [] (.primitive [] .int))]))

theorem text_of_ofText_entries :
    ofText "java.util.Map$Entry<@a.Key K, ? extends int[]> @Sorted [][]" = .ok entries ∧
      entries.text = "java.util.Map$Entry<@a.Key K, ? extends int[]> @Sorted [][]".map dotted ∧
      entries.WellFormed .whole := by
  have run : ofText "java.util.Map$Entry<@a.Key K, ? extends int[]> @Sorted [][]" = .ok entries := by decide +kernel
  exact ⟨run, text_of_ofText run⟩

end JavaType

end TypedTree.Java
