import TypedTree.Proofs.TypeReading

/-! The source of every type that can be written is read as that type, whatever is nested in it. -/

namespace TypedTree.Java

namespace TypeParser

open JavaType (annotationChars dimensionChars argumentChars Position)

variable {fuel : Nat} {text rest : List Char} {annotations : List ClassName} {dimensions : List (List ClassName)}
  {asArgument : Bool}

/-- What can stand behind a type: nothing, another argument, or the end of the arguments. -/
def Follows (rest : List Char) : Prop := ∀ c, rest.head? = some c → c = ',' ∨ c = '>'

theorem follows_nil : Follows [] := nofun

theorem follows_comma (rest : List Char) : Follows (',' :: rest) := by
  rintro _ ⟨⟩
  exact Or.inl rfl

theorem follows_bracket (rest : List Char) : Follows ('>' :: rest) := by
  rintro _ ⟨⟩
  exact Or.inr rfl

theorem Follows.head_ne (follows : Follows rest) {c : Char} (comma : c ≠ ',') (bracket : c ≠ '>') :
    rest.head? ≠ some c := fun head => (follows c head).elim comma bracket

theorem readAnnotations_none (plain : text.head? ≠ some '@') : readAnnotations fuel text = .ok ([], text) := by
  unfold readAnnotations
  split
  · exact absurd rfl plain
  · rfl

theorem readAnnotations_chars (labels : ∀ label ∈ annotations, label.WellFormed) (plain : rest.head? ≠ some '@')
    (enough : annotations.length ≤ fuel) :
    readAnnotations fuel (annotationChars '$' annotations ++ rest) = .ok (annotations, rest) := by
  induction annotations generalizing fuel with
  | nil => exact readAnnotations_none plain
  | cons label annotations ih =>
    obtain ⟨label, labels⟩ := List.forall_mem_cons.mp labels
    obtain ⟨fuel, rfl⟩ := Nat.exists_eq_add_one.mpr (Nat.lt_of_lt_of_le (Nat.succ_pos _) enough)
    have later := ih labels (Nat.le_of_succ_le_succ enough)
    have ends : Ends (' ' :: (annotationChars '$' annotations ++ rest)) := ends_cons (by decide) (by decide) rfl
    have name := readName_chars label ends
    rw [annotationChars] at later name
    simp only [annotationChars, List.flatMap_cons, List.append_assoc, List.cons_append, List.nil_append] at later name ⊢
    rw [readAnnotations, name]
    simp only [bind, Except.bind, Named.className]
    rw [later]
    rfl

theorem length_le_annotationChars (annotations : List ClassName) :
    annotations.length ≤ (annotationChars '$' annotations).length := by
  induction annotations with
  | nil => exact Nat.zero_le _
  | cons label annotations ih =>
    rw [annotationChars] at ih ⊢
    simp only [List.flatMap_cons, List.length_append, List.length_cons, List.length_nil]
    omega

theorem readLabels_chars (labels : ∀ label ∈ annotations, label.WellFormed) (enough : annotations.length ≤ fuel)
    (rest : List Char) :
    readLabels fuel (dimensionChars '$' annotations ++ rest) = .ok (annotations, '[' :: ']' :: rest) := by
  cases annotations with
  | nil => rfl
  | cons label others =>
    have read : readAnnotations fuel (annotationChars '$' (label :: others) ++ '[' :: ']' :: rest) =
        .ok (label :: others, '[' :: ']' :: rest) := readAnnotations_chars labels nofun enough
    rw [dimensionChars_eq (List.cons_ne_nil _ _), List.cons_append, List.cons_append, List.append_assoc, readLabels]
    simp only [bind, Except.bind, List.cons_append, List.nil_append, read]
    rfl

theorem length_lt_dimensionChars (annotations : List ClassName) :
    annotations.length < (dimensionChars '$' annotations).length := by
  cases annotations with
  | nil => decide
  | cons label others =>
    have annotated := length_le_annotationChars (label :: others)
    rw [dimensionChars_eq (List.cons_ne_nil _ _), List.length_append, List.length_cons (a := ' ')]
    omega

theorem readDimensions_none (plain : rest.head? ≠ some '[' ∧ rest.head? ≠ some ' ') :
    readDimensions fuel rest = .ok ([], rest) := by
  cases fuel with
  | zero => rfl
  | succ fuel =>
    have unlabelled : readLabels fuel rest = .ok ([], rest) := by
      unfold readLabels
      split
      · exact absurd rfl plain.2
      · rfl
    rw [readDimensions, unlabelled]
    simp only [bind, Except.bind]
    split
    · exact absurd rfl plain.1
    · exact absurd rfl plain.1
    · rfl

theorem readDimensions_chars (each : ∀ labels ∈ dimensions, ∀ label ∈ labels, label.WellFormed)
    (plain : rest.head? ≠ some '[' ∧ rest.head? ≠ some ' ') (enough : (dimensionsChars dimensions).length ≤ fuel) :
    readDimensions fuel (dimensionsChars dimensions ++ rest) = .ok (dimensions, rest) := by
  induction dimensions generalizing fuel with
  | nil => exact readDimensions_none plain
  | cons labels dimensions ih =>
    obtain ⟨labelled, each⟩ := List.forall_mem_cons.mp each
    have some := length_lt_dimensionChars labels
    rw [dimensionsChars, List.flatMap_cons, List.length_append] at enough
    obtain ⟨fuel, rfl⟩ := Nat.exists_eq_add_one.mpr (show 0 < fuel by omega)
    have later := @ih fuel each (by rw [dimensionsChars]; omega)
    rw [dimensionsChars, List.flatMap_cons, List.append_assoc, readDimensions, readLabels_chars labelled (by omega)]
    simp only [bind, Except.bind]
    rw [← dimensionsChars, later]
    rfl

/-- No name goes on with dimensions or with what stands behind a type. -/
theorem head_dimensionsChars (follows : Follows rest) {c : Char}
    (head : (dimensionsChars dimensions ++ rest).head? = some c) : c = '[' ∨ c = ' ' ∨ c = ',' ∨ c = '>' := by
  cases dimensions with
  | nil => exact Or.inr (Or.inr (follows c head))
  | cons labels dimensions =>
    cases labels with
    | nil => exact Or.inl (Option.some.inj head).symm
    | cons label labels =>
      rw [dimensionsChars, List.flatMap_cons, dimensionChars_eq (List.cons_ne_nil _ _)] at head
      exact Or.inr (Or.inl (Option.some.inj head).symm)

theorem no_arguments (follows : Follows rest) : (dimensionsChars dimensions ++ rest).head? ≠ some '<' := fun head => by
  rcases head_dimensionsChars follows head with same | same | same | same <;> cases same

theorem ends_dimensionsChars (dimensions : List (List ClassName)) (follows : Follows rest) :
    Ends (dimensionsChars dimensions ++ rest) := by
  intro c head
  rcases head_dimensionsChars follows head with rfl | rfl | rfl | rfl <;> decide

/-- A class that names a type is not taken for a type variable. -/
theorem typeVariable?_chars {name : ClassName} (named : name.NamesType) (rest : List Char) :
    typeVariable? (name.chars '$' ++ rest) = none := by
  obtain ⟨word, tail, isWord, same, alone | qualified⟩ := exists_first_word named.toWellFormed
  · obtain ⟨rfl, topLevel⟩ := alone
    rw [same, List.append_assoc, typeVariable?, head_word isWord, named.constant word topLevel]
    rfl
  · have head : (tail ++ rest).head? = some '.' ∨ (tail ++ rest).head? = some '$' :=
      qualified.imp (fun dot => by rw [List.head?_append, dot]; rfl) fun dollar => by rw [List.head?_append, dollar]; rfl
    have stops : ∀ c, (tail ++ rest).head? = some c → isNameChar c = false := by
      rintro c first
      rcases head with dot | dollar
      · cases dot.symm.trans first
        rfl
      · cases dollar.symm.trans first
        rfl
    rw [same, List.append_assoc, typeVariable?, dropWhile_word isWord stops]
    split
    · exact if_pos head
    · rfl

theorem typeVariable?_keyword (kind : Primitive) (rest : List Char) :
    typeVariable? (kind.keyword.toList ++ rest) = none := by
  cases kind <;> rfl

theorem readElement_plain {read : List Char → Except Problem (List JavaType × List Char)} {name : Named}
    (noArguments : text.head? ≠ some '<') :
    readElement read annotations name text =
      .ok (match name with
        | .classType name => .classType annotations name
        | .primitive kind _ => .primitive annotations kind, text) := by
  unfold readElement
  split
  · exact absurd rfl noArguments
  · cases name <;> rfl

theorem head_word_ne {word : String} (isWord : IsWord word) (text : List Char) {c : Char} (mark : isNameChar c = false) :
    (word.toList ++ text).head? ≠ some c := by
  obtain ⟨first, others, split⟩ := List.exists_cons_of_ne_nil isWord.nonempty
  rw [split]
  rintro ⟨⟩
  exact isWord.not_mem mark (by simp [split])

theorem head_chars_ne {name : ClassName} (wellFormed : name.WellFormed) (text : List Char) :
    (name.chars '$' ++ text).head? ≠ some '@' := by
  obtain ⟨word, tail, isWord, same, _⟩ := exists_first_word wellFormed
  rw [same, List.append_assoc]
  exact head_word_ne isWord _ rfl

/-- The reading of a type that is no variable and no wildcard: annotations, a name, arguments, dimensions. -/
theorem readType_named {name : Named} {behind : List Char} {element : JavaType}
    (labels : ∀ label ∈ annotations, label.WellFormed) (plain : text.head? ≠ some '@')
    (enough : annotations.length ≤ fuel) (noVariable : typeVariable? text = none)
    (named : readName text = .ok (name, behind))
    (read : readElement (readArguments fuel) annotations name behind = .ok (element, dimensionsChars dimensions ++ rest))
    (bracketed : readDimensions fuel (dimensionsChars dimensions ++ rest) = .ok (dimensions, rest))
    (placed : name.checkPlace asArgument dimensions = .ok ()) :
    readType (fuel + 1) asArgument (annotationChars '$' annotations ++ text) = .ok (inArrays dimensions element, rest) := by
  rw [readType, readAnnotations_chars labels plain enough]
  simp only [bind, Except.bind, noVariable, named, read, bracketed, placed]
  rfl

/-- From the source of a type, and of the dimensions around it, that type is read. -/
def Reads (position : Position) (type : JavaType) : Prop :=
  ∀ ⦃fuel asArgument dimensions rest⦄, (∀ labels ∈ dimensions, ∀ label ∈ labels, label.WellFormed) →
    (asArgument = true → dimensions = [] → position ≠ .whole ∧ position ≠ .component) → Follows rest →
    3 * (type.charsBefore '$' (dimensionsChars dimensions)).length < fuel →
    readType fuel asArgument (type.charsBefore '$' (dimensionsChars dimensions) ++ rest) =
      .ok (inArrays dimensions type, rest)

def ReadsArgument (type : JavaType) : Prop :=
  ∀ ⦃fuel rest⦄, Follows rest → 3 * (type.chars '$').length + 1 < fuel →
    readArgument fuel (type.chars '$' ++ rest) = .ok (type, rest)

variable {position : Position}

/-- Alone, without dimensions around it. -/
theorem Reads.alone {type : JavaType} (reads : Reads position type)
    (allowed : asArgument = true → position ≠ .whole ∧ position ≠ .component) (follows : Follows rest)
    (enough : 3 * (type.chars '$').length < fuel) :
    readType fuel asArgument (type.chars '$' ++ rest) = .ok (type, rest) :=
  @reads fuel asArgument [] rest (List.forall_mem_nil _) (fun argument _ => allowed argument) follows enough

theorem Follows.plain (follows : Follows rest) : rest.head? ≠ some '[' ∧ rest.head? ≠ some ' ' :=
  ⟨follows.head_ne (by decide) (by decide), follows.head_ne (by decide) (by decide)⟩

theorem reads_typeVariable {name : String} (labels : ∀ label ∈ annotations, label.WellFormed) (word : IsWord name)
    (upper : startsUpper name = true) : Reads position (.typeVariable annotations name) := by
  intro fuel asArgument dimensions rest each _ follows enough
  have few := length_le_annotationChars annotations
  rw [JavaType.charsBefore, List.length_append, List.length_append] at enough
  obtain ⟨fuel, rfl⟩ := Nat.exists_eq_add_one.mpr (show 0 < fuel by omega)
  have ends : Ends (dimensionsChars dimensions ++ rest) := ends_dimensionsChars dimensions follows
  rw [JavaType.charsBefore, List.append_assoc, List.append_assoc, readType,
    readAnnotations_chars labels (head_word_ne word _ rfl) (by omega)]
  simp only [bind, Except.bind, typeVariable?_word word upper ends]
  rw [if_neg (no_arguments follows), readDimensions_chars each follows.plain (by omega), String.ofList_toList]
  rfl

theorem reads_primitive {kind : Primitive} (labels : ∀ label ∈ annotations, label.WellFormed)
    (place : position = .whole ∨ position = .component) : Reads position (.primitive annotations kind) := by
  intro fuel asArgument dimensions rest each allowed follows enough
  have few := length_le_annotationChars annotations
  rw [JavaType.charsBefore, List.length_append, List.length_append] at enough
  obtain ⟨fuel, rfl⟩ := Nat.exists_eq_add_one.mpr (show 0 < fuel by omega)
  obtain ⟨left, named⟩ := readName_keyword kind (ends_dimensionsChars dimensions follows)
  have plain : (kind.keyword.toList ++ (dimensionsChars dimensions ++ rest)).head? ≠ some '@' := by cases kind <;> nofun
  have placed : (Named.primitive kind left).checkPlace asArgument dimensions = .ok () := by
    refine if_neg fun ⟨argument, alone⟩ => ?_
    obtain ⟨notWhole, notComponent⟩ := allowed argument (List.isEmpty_iff.mp alone)
    exact place.elim notWhole notComponent
  rw [JavaType.charsBefore, List.append_assoc, List.append_assoc]
  exact readType_named labels plain (by omega) (typeVariable?_keyword kind _) named
    (readElement_plain (no_arguments follows)) (readDimensions_chars each follows.plain (by omega)) placed

theorem checkPlace_classType (name : ClassName) (asArgument : Bool) (dimensions : List (List ClassName)) :
    (Named.classType name).checkPlace asArgument dimensions = .ok () := by
  rw [Named.checkPlace]
  split <;> rfl

theorem reads_classType {name : ClassName} (labels : ∀ label ∈ annotations, label.WellFormed) (named : name.NamesType) :
    Reads position (.classType annotations name) := by
  intro fuel asArgument dimensions rest each _ follows enough
  have few := length_le_annotationChars annotations
  rw [JavaType.charsBefore, List.length_append, List.length_append] at enough
  obtain ⟨fuel, rfl⟩ := Nat.exists_eq_add_one.mpr (show 0 < fuel by omega)
  rw [JavaType.charsBefore, List.append_assoc, List.append_assoc]
  exact readType_named labels (head_chars_ne named.toWellFormed _) (by omega) (typeVariable?_chars named _)
    (readName_chars named.toWellFormed (ends_dimensionsChars dimensions follows))
    (readElement_plain (no_arguments follows)) (readDimensions_chars each follows.plain (by omega))
    (checkPlace_classType name asArgument dimensions)

theorem readArguments_chars {types : List JavaType} (some : types ≠ []) (each : ∀ type ∈ types, ReadsArgument type)
    (enough : 3 * (argumentChars '$' types).length + 2 < fuel) (rest : List Char) :
    readArguments fuel (argumentChars '$' types ++ '>' :: rest) = .ok (types, '>' :: rest) := by
  induction types generalizing fuel with
  | nil => exact absurd rfl some
  | cons first others ih =>
    obtain ⟨first, each⟩ := List.forall_mem_cons.mp each
    obtain ⟨fuel, rfl⟩ := Nat.exists_eq_add_one.mpr (show 0 < fuel by omega)
    cases others with
    | nil =>
      rw [argumentChars, ← JavaType.chars] at enough ⊢
      rw [readArguments, first (follows_bracket rest) (by omega)]
      rfl
    | cons next others =>
      rw [JavaType.argumentChars_cons_cons, ← JavaType.chars, List.length_append, List.length_append] at enough
      have later := @ih fuel (List.cons_ne_nil _ _) each (by simp at enough ⊢; omega)
      have here := @first fuel _ (follows_comma (' ' :: (argumentChars '$' (next :: others) ++ '>' :: rest))) (by omega)
      rw [JavaType.argumentChars_cons_cons, ← JavaType.chars, List.append_assoc, List.append_assoc, readArguments]
      simp only [List.cons_append, List.nil_append, bind, Except.bind, here, later]
      rfl

theorem reads_parameterized {raw : ClassName} {arguments : List JavaType}
    (labels : ∀ label ∈ annotations, label.WellFormed) (named : raw.NamesType) (some : arguments ≠ [])
    (reads : ∀ argument ∈ arguments, ReadsArgument argument) :
    Reads position (.parameterized annotations raw arguments) := by
  intro fuel asArgument dimensions rest each _ follows enough
  have few := length_le_annotationChars annotations
  simp only [JavaType.charsBefore, List.length_append, List.length_cons, List.length_nil] at enough
  obtain ⟨fuel, rfl⟩ := Nat.exists_eq_add_one.mpr (show 0 < fuel by omega)
  have ends : Ends ('<' :: (argumentChars '$' arguments ++ '>' :: (dimensionsChars dimensions ++ rest))) :=
    ends_cons (by decide) (by decide) rfl
  have read : readElement (readArguments fuel) annotations (.classType raw)
      ('<' :: (argumentChars '$' arguments ++ '>' :: (dimensionsChars dimensions ++ rest))) =
        .ok (.parameterized annotations raw arguments, dimensionsChars dimensions ++ rest) := by
    have inside := @readArguments_chars fuel arguments some reads (by omega) (dimensionsChars dimensions ++ rest)
    rw [readElement]
    simp only [bind, Except.bind, Named.className, inside]
    rfl
  have source : (JavaType.parameterized annotations raw arguments).charsBefore '$' (dimensionsChars dimensions) ++ rest =
      annotationChars '$' annotations ++ (raw.chars '$' ++
        '<' :: (argumentChars '$' arguments ++ '>' :: (dimensionsChars dimensions ++ rest))) := by
    simp [JavaType.charsBefore]
  rw [source]
  exact readType_named labels (head_chars_ne named.toWellFormed _) (by omega) (typeVariable?_chars named _)
    (readName_chars named.toWellFormed ends) read (readDimensions_chars each follows.plain (by omega))
    (checkPlace_classType raw asArgument dimensions)

/-- The dimension of an array joins the dimensions around it, as the innermost one. -/
theorem reads_array {element : JavaType} (labels : ∀ label ∈ annotations, label.WellFormed)
    (reads : Reads .component element) : Reads position (.array annotations element) := by
  intro fuel asArgument dimensions rest each _ follows enough
  have chars : (JavaType.array annotations element).charsBefore '$' (dimensionsChars dimensions) =
      element.charsBefore '$' (dimensionsChars (dimensions ++ [annotations])) := by
    rw [JavaType.charsBefore, dimensionsChars, dimensionsChars, List.flatMap_append, List.flatMap_singleton]
  have types : inArrays (dimensions ++ [annotations]) element = inArrays dimensions (.array annotations element) :=
    List.foldr_append
  rw [chars] at enough ⊢
  rw [← types]
  exact reads (List.forall_mem_append.mpr ⟨each, List.forall_mem_singleton.mpr labels⟩)
    (fun _ none => by simp at none) follows enough

theorem readType_question (fuel : Nat) (asArgument : Bool) (text : List Char) :
    ∃ problem, readType fuel asArgument ('?' :: text) = .error problem := by
  cases fuel with
  | zero => exact ⟨_, rfl⟩
  | succ fuel =>
    have plain : ('?' :: text).head? ≠ some '@' := nofun
    rw [readType, readAnnotations_none plain]
    exact ⟨_, rfl⟩

/-- What is read as a type is read as an argument too: it does not begin as a wildcard does. -/
theorem Reads.argument {type : JavaType} (reads : Reads .argument type) : ReadsArgument type := by
  intro fuel rest follows enough
  obtain ⟨fuel, rfl⟩ := Nat.exists_eq_add_one.mpr (show 0 < fuel by omega)
  have read : readType fuel true (type.chars '$' ++ rest) = .ok (type, rest) :=
    reads.alone (fun _ => by decide) follows (Nat.lt_of_succ_lt_succ enough)
  unfold readArgument
  split
  next same =>
    obtain ⟨problem, failed⟩ := readType_question fuel true _
    rw [same, failed] at read
    cases read
  next => exact read

theorem afterWord?_append (word : String) (text : List Char) : afterWord? word (word.toList ++ text) = some text := by
  rw [afterWord?, if_pos (List.isPrefixOf_iff_prefix.mpr (List.prefix_append _ _)), ← String.length_toList,
    List.drop_left]

/-- No bound begins with what stands behind a type. -/
theorem afterWord?_follows (follows : Follows rest) {word : String} (space : word.toList.head? = some ' ') :
    afterWord? word rest = none := by
  refine if_neg fun starts => ?_
  obtain ⟨behind, rfl⟩ := List.isPrefixOf_iff_prefix.mp starts
  exact follows.plain.2 (by rw [List.head?_append, space]; rfl)

theorem readsArgument_wildcard : ReadsArgument (.wildcard []) := by
  intro fuel rest follows enough
  obtain ⟨fuel, rfl⟩ := Nat.exists_eq_add_one.mpr (show 0 < fuel by omega)
  have source : (JavaType.wildcard []).chars '$' ++ rest = '?' :: rest := rfl
  rw [source, readArgument, afterWord?_follows follows rfl]
  dsimp only
  rw [afterWord?_follows follows rfl]

/-- Behind a question mark and a word, the bound is read. -/
theorem Reads.bound {bound : JavaType} (reads : Reads .bound bound) (follows : Follows rest) {word : List Char}
    (enough : 3 * ('?' :: (word ++ bound.chars '$')).length + 1 < fuel + 1) :
    readType fuel true (bound.chars '$' ++ rest) = .ok (bound, rest) := by
  rw [List.length_cons, List.length_append] at enough
  exact reads.alone (fun _ => by decide) follows (by omega)

theorem readsArgument_wildcardExtends {bound : JavaType} (reads : Reads .bound bound) :
    ReadsArgument (.wildcardExtends [] bound) := by
  intro fuel rest follows enough
  obtain ⟨fuel, rfl⟩ := Nat.exists_eq_add_one.mpr (show 0 < fuel by omega)
  rw [JavaType.chars_wildcardExtends] at enough ⊢
  rw [List.cons_append, List.append_assoc, readArgument, afterWord?_append]
  simp only [bind, Except.bind, reads.bound follows enough]
  rfl

theorem readsArgument_wildcardSuper {bound : JavaType} (reads : Reads .bound bound) :
    ReadsArgument (.wildcardSuper [] bound) := by
  intro fuel rest follows enough
  obtain ⟨fuel, rfl⟩ := Nat.exists_eq_add_one.mpr (show 0 < fuel by omega)
  have notAbove : afterWord? " extends " (" super ".toList ++ (bound.chars '$' ++ rest)) = none := rfl
  rw [JavaType.chars_wildcardSuper] at enough ⊢
  rw [List.cons_append, List.append_assoc, readArgument, notAbove, afterWord?_append]
  simp only [bind, Except.bind, reads.bound follows enough]
  rfl

theorem reads_of_wellFormed {type : JavaType} (wellFormed : type.WellFormed position) :
    (position ≠ .argument → Reads position type) ∧ (position = .argument → ReadsArgument type) := by
  have both {type : JavaType} {position : Position} (reads : Reads position type) :
      (position ≠ .argument → Reads position type) ∧ (position = .argument → ReadsArgument type) :=
    ⟨fun _ => reads, by rintro rfl; exact reads.argument⟩
  induction wellFormed with
  | primitive labels place => exact both (reads_primitive labels place)
  | classType labels named => exact both (reads_classType labels named)
  | parameterized labels named some _ ih =>
    exact both (reads_parameterized labels named some fun argument member => (ih argument member).2 rfl)
  | array labels _ ih => exact both (reads_array labels (ih.1 (by decide)))
  | typeVariable labels word upper => exact both (reads_typeVariable labels word upper)
  | wildcard => exact ⟨fun other => absurd rfl other, fun _ => readsArgument_wildcard⟩
  | wildcardExtends _ ih => exact ⟨fun other => absurd rfl other, fun _ => readsArgument_wildcardExtends (ih.1 (by decide))⟩
  | wildcardSuper _ ih => exact ⟨fun other => absurd rfl other, fun _ => readsArgument_wildcardSuper (ih.1 (by decide))⟩

end TypeParser

namespace JavaType

/-- Every type that can be written is read from its source. -/
theorem ofText_source {type : JavaType} (wellFormed : type.WellFormed .whole) : ofText type.source = .ok type := by
  have reads := (TypeParser.reads_of_wellFormed wellFormed).1 (by decide)
  have read : TypeParser.readType (3 * (type.chars '$').length + 2) false (type.chars '$' ++ []) = .ok (type, []) :=
    reads.alone nofun TypeParser.follows_nil (Nat.lt_add_of_pos_right Nat.two_pos)
  rw [List.append_nil] at read
  rw [ofText, source, String.toList_ofList, TypeParser.readAll, read]
  rfl

theorem ofText_source_entries : entries.WellFormed .whole ∧ ofText entries.source = .ok entries := by
  have sorted : (ClassName.topLevel "" "Sorted").WellFormed := by
    refine ⟨⟨[], List.forall_mem_nil _, rfl⟩, List.cons_ne_nil _ _, by decide, ?_⟩
    rintro _ ⟨⟩
    decide
  have key : (ClassName.topLevel "a" "Key").WellFormed :=
    ⟨⟨["a"], by decide, by decide⟩, List.cons_ne_nil _ _, by decide,
      fun _ same => absurd same (ClassName.ne_topLevel (by decide) _)⟩
  have entry : ClassName.NamesType ⟨"java.util", ["Map", "Entry"]⟩ := by
    have nested : ∀ word, (⟨"java.util", ["Map", "Entry"]⟩ : ClassName) ≠ .topLevel "" word :=
      ClassName.ne_topLevel (by decide)
    exact ⟨⟨⟨["java", "util"], by decide, by decide⟩, List.cons_ne_nil _ _, by decide,
      fun word same => absurd same (nested word)⟩, fun word same => absurd same (nested word)⟩
  have variableK : WellFormed .argument (.typeVariable [.topLevel "a" "Key"] "K") :=
    .typeVariable (List.forall_mem_singleton.mpr key) (by decide) rfl
  have ints : WellFormed .bound (.array [] (.primitive [] .int)) :=
    .array (List.forall_mem_nil _) (.primitive (List.forall_mem_nil _) (Or.inr rfl))
  have wellFormed : entries.WellFormed .whole :=
    .array (List.forall_mem_singleton.mpr sorted) (.array (List.forall_mem_nil _)
      (.parameterized (List.forall_mem_nil _) entry (List.cons_ne_nil _ _)
        (List.forall_mem_cons.mpr ⟨variableK, List.forall_mem_singleton.mpr (.wildcardExtends ints)⟩)))
  exact ⟨wellFormed, ofText_source wellFormed⟩

end JavaType

end TypedTree.Java
