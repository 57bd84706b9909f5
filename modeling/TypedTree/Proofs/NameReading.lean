import TypedTree.Proofs.ListEffects
import TypedTree.Proofs.TypeNotation

/-! Reading names. What is read is the source of what is found, and from the source of a name that name is found. -/

namespace TypedTree.Java.TypeParser

open ListEffects (bind_eq_ok)

/-- A name cannot go on with this text. -/
def Ends (text : List Char) : Prop := ∀ c, text.head? = some c → c ≠ '.' ∧ c ≠ '$' ∧ isNameChar c = false

theorem ends_nil : Ends [] := nofun

theorem ends_cons {c : Char} {text : List Char} (dot : c ≠ '.') (dollar : c ≠ '$') (other : isNameChar c = false) :
    Ends (c :: text) := by
  rintro _ ⟨⟩
  exact ⟨dot, dollar, other⟩

theorem intercalate_concat (mark : Char) (words : List (List Char)) (last : List Char) :
    [mark].intercalate (words ++ [last]) = words.flatMap (· ++ [mark]) ++ last := by
  induction words with
  | nil => exact List.intercalate_singleton
  | cons word words ih =>
    cases words with
    | nil => simp [List.intercalate_cons_cons]
    | cons next rest =>
      rw [List.cons_append] at ih
      rw [List.cons_append, List.cons_append, List.intercalate_cons_cons, ih, List.flatMap_cons (x := word),
        List.append_assoc (word ++ [mark])]

theorem intercalate_mark (mark : Char) {words : List (List Char)} (nonempty : words ≠ []) :
    [mark].intercalate words ++ [mark] = words.flatMap (· ++ [mark]) := by
  rw [← List.dropLast_concat_getLast nonempty, intercalate_concat]
  simp

namespace NameParts

variable {parts found : NameParts} {text rest : List Char}

/-- The source that has these parts. -/
def chars (parts : NameParts) : List Char :=
  parts.packages.flatMap (· ++ ['.']) ++ parts.outer.flatMap (· ++ ['$']) ++ parts.simple

/-- All parts are words; the last one may not have begun. -/
structure Valid (parts : NameParts) : Prop where
  packages : ∀ word ∈ parts.packages, IsWord (String.ofList word)
  outer : ∀ word ∈ parts.outer, IsWord (String.ofList word)
  last : ∀ c ∈ parts.last, isNameChar c = true

theorem valid_nil : Valid ⟨[], [], []⟩ :=
  ⟨List.forall_mem_nil _, List.forall_mem_nil _, List.forall_mem_nil _⟩

theorem Valid.simple (valid : parts.Valid) (begun : parts.last ≠ []) : IsWord (String.ofList parts.simple) := by
  constructor
  · simpa [NameParts.simple] using begun
  · intro c member
    rw [String.toList_ofList, NameParts.simple, List.mem_reverse] at member
    exact valid.last c member

theorem packages_eq_nil (valid : parts.Valid) : parts.className.package = "" ↔ parts.packages = [] := by
  rw [className, ← String.toList_inj, String.toList_ofList]
  constructor
  · intro none
    cases split : parts.packages with
    | nil => rfl
    | cons word words =>
      have word := (valid.packages word (by simp [split])).nonempty
      rw [String.toList_ofList] at word
      cases words <;> simp_all
  · intro none
    rw [none]
    rfl

theorem className_eq_topLevel (valid : parts.Valid) {word : String} :
    parts.className = .topLevel "" word ↔
      parts.packages = [] ∧ parts.outer = [] ∧ word = String.ofList parts.simple := by
  have split : parts.className = .topLevel "" word ↔
      parts.className.package = "" ∧ parts.className.names = [word] := by
    rw [ClassName.topLevel]
    exact ⟨fun same => by rw [same]; exact ⟨rfl, rfl⟩, fun ⟨package, names⟩ => by rw [← package, ← names]⟩
  have names : parts.className.names = [word] ↔ parts.outer = [] ∧ word = String.ofList parts.simple := by
    rw [className]
    cases parts.outer with
    | nil => simp [eq_comm (a := word)]
    | cons => simp
  rw [split, packages_eq_nil valid, names]

theorem className_chars (valid : parts.Valid) : parts.className.chars '$' = parts.chars := by
  have names : ['$'].intercalate (parts.className.names.map String.toList) =
      parts.outer.flatMap (· ++ ['$']) ++ parts.simple := by
    have same : parts.className.names.map String.toList = parts.outer ++ [parts.simple] := by
      simp [className, Function.comp_def]
    rw [same, intercalate_concat]
  rw [ClassName.chars, names, chars, List.append_assoc]
  congr 1
  by_cases none : parts.packages = []
  · rw [String.isEmpty_iff.mpr ((packages_eq_nil valid).mpr none), none]
    rfl
  · have package : parts.className.package.isEmpty = false := by
      rw [Bool.eq_false_iff, Ne, String.isEmpty_iff, packages_eq_nil valid]
      exact none
    rw [package, ← intercalate_mark '.' none, className, String.toList_ofList]
    rfl

theorem wellFormed_className (valid : parts.Valid) (begun : parts.last ≠ [])
    (unreserved : ∀ word, parts.className = .topLevel "" word → word ≠ "void" ∧ Primitive.ofKeyword? word = none) :
    parts.className.WellFormed := by
  refine ⟨⟨parts.packages.map String.ofList, ?_, ?_⟩, by simp [className], ?_, unreserved⟩
  · intro segment listed
    obtain ⟨word, inside, rfl⟩ := List.mem_map.mp listed
    exact valid.packages word inside
  · rw [← String.toList_inj, String.toList_intercalate, className]
    simp [Function.comp_def]
  · intro word listed
    obtain ⟨chars, inside, rfl⟩ := List.mem_map.mp listed
    rcases List.mem_append.mp inside with outer | last
    · exact valid.outer chars outer
    · exact List.mem_singleton.mp last ▸ valid.simple begun

theorem finishName_eq_ok : finishName parts text = .ok (found, rest) ↔
    parts.last ≠ [] ∧ parts = found ∧ text = rest := by
  by_cases begun : parts.last = []
  · have failed : ∃ problem, finishName parts text = .error problem := by
      simp only [finishName, begun, List.isEmpty_nil, Bool.not_true, Bool.false_eq_true, if_false]
      split
      · exact ⟨_, rfl⟩
      · split
        · exact ⟨_, rfl⟩
        · cases text <;> exact ⟨_, rfl⟩
    obtain ⟨problem, failed⟩ := failed
    rw [failed]
    exact iff_of_false nofun fun ⟨late, _⟩ => late begun
  · simp [finishName, begun]

/-- Reading on behind valid parts leads to valid parts, and nothing of the text is lost. It stops where no name can go
on. -/
theorem valid_of_scanName (valid : parts.Valid) (run : scanName parts text = .ok (found, rest)) :
    found.Valid ∧ found.last ≠ [] ∧ parts.chars ++ text = found.chars ++ rest ∧ Ends rest := by
  induction text generalizing parts with
  | nil =>
    rw [scanName] at run
    obtain ⟨begun, rfl, rfl⟩ := finishName_eq_ok.mp run
    exact ⟨valid, begun, rfl, ends_nil⟩
  | cons c text ih =>
    rw [scanName] at run
    split at run
    next dot =>
      split at run
      next => cases run
      next plain =>
        split at run
        next => cases run
        next begun =>
          have plain : parts.outer = [] := by simpa using plain
          have word := valid.simple (by simpa using begun)
          have next : Valid ⟨parts.packages ++ [parts.simple], [], []⟩ :=
            ⟨List.forall_mem_append.mpr ⟨valid.packages, List.forall_mem_singleton.mpr word⟩, List.forall_mem_nil _,
              List.forall_mem_nil _⟩
          obtain ⟨foundValid, foundBegun, same, ends⟩ := ih next run
          refine ⟨foundValid, foundBegun, same ▸ ?_, ends⟩
          simp [chars, plain, dot, NameParts.simple]
    next notDot =>
      split at run
      next dollar =>
        split at run
        next begun =>
          have word := valid.simple (by simpa using begun)
          have next : Valid ⟨parts.packages, parts.outer ++ [parts.simple], []⟩ :=
            ⟨valid.packages, List.forall_mem_append.mpr ⟨valid.outer, List.forall_mem_singleton.mpr word⟩,
              List.forall_mem_nil _⟩
          obtain ⟨foundValid, foundBegun, same, ends⟩ := ih next run
          refine ⟨foundValid, foundBegun, same ▸ ?_, ends⟩
          simp [chars, dollar, NameParts.simple]
        next =>
          split at run
          all_goals cases run
      next notDollar =>
        split at run
        next letter =>
          have next : Valid { parts with last := c :: parts.last } :=
            ⟨valid.packages, valid.outer, List.forall_mem_cons.mpr ⟨letter, valid.last⟩⟩
          obtain ⟨foundValid, foundBegun, same, ends⟩ := ih next run
          refine ⟨foundValid, foundBegun, same ▸ ?_, ends⟩
          simp [chars, NameParts.simple]
        next other =>
          obtain ⟨begun, rfl, rfl⟩ := finishName_eq_ok.mp run
          exact ⟨valid, begun, rfl, ends_cons notDot notDollar (Bool.eq_false_iff.mpr other)⟩

/-- The letters of a word are all read. -/
theorem scanName_word {word : List Char} (letters : ∀ c ∈ word, isNameChar c = true) (parts : NameParts) (text : List Char) :
    scanName parts (word ++ text) = scanName { parts with last := word.reverse ++ parts.last } text := by
  induction word generalizing parts with
  | nil => rfl
  | cons c word ih =>
    obtain ⟨letter, letters⟩ := List.forall_mem_cons.mp letters
    have dot : c ≠ '.' := by
      rintro rfl
      cases letter
    have dollar : c ≠ '$' := by
      rintro rfl
      cases letter
    rw [List.cons_append, scanName, if_neg dot, if_neg dollar, if_pos letter, ih letters]
    simp

theorem scanName_packages {segments : List String} (words : ∀ segment ∈ segments, IsWord segment)
    (before : List (List Char)) (text : List Char) :
    scanName ⟨before, [], []⟩ ((segments.map String.toList).flatMap (· ++ ['.']) ++ text) =
      scanName ⟨before ++ segments.map String.toList, [], []⟩ text := by
  induction segments generalizing before with
  | nil => simp
  | cons segment segments ih =>
    obtain ⟨word, words⟩ := List.forall_mem_cons.mp words
    rw [List.map_cons, List.flatMap_cons, List.append_assoc, List.append_assoc, scanName_word word.chars,
      List.singleton_append, scanName, if_pos rfl]
    simp [NameParts.simple, word.nonempty, ih words]

theorem scanName_outer {names : List String} (words : ∀ name ∈ names, IsWord name) (packages before : List (List Char))
    (text : List Char) :
    scanName ⟨packages, before, []⟩ ((names.map String.toList).flatMap (· ++ ['$']) ++ text) =
      scanName ⟨packages, before ++ names.map String.toList, []⟩ text := by
  induction names generalizing before with
  | nil => simp
  | cons name names ih =>
    obtain ⟨word, words⟩ := List.forall_mem_cons.mp words
    rw [List.map_cons, List.flatMap_cons, List.append_assoc, List.append_assoc, scanName_word word.chars,
      List.singleton_append, scanName, if_neg (by decide), if_pos rfl]
    simp [NameParts.simple, word.nonempty, ih words]

theorem scanName_end (begun : parts.last ≠ []) (ends : Ends text) : scanName parts text = .ok (parts, text) := by
  have finished : finishName parts text = .ok (parts, text) := finishName_eq_ok.mpr ⟨begun, rfl, rfl⟩
  cases text with
  | nil => exact finished
  | cons c text =>
    obtain ⟨dot, dollar, other⟩ := ends c rfl
    rw [scanName, if_neg dot, if_neg dollar, other, if_neg Bool.false_ne_true, finished]

/-- The parts of a name that can be written. -/
theorem exists_parts {name : ClassName} (wellFormed : name.WellFormed) :
    ∃ parts : NameParts, parts.Valid ∧ parts.last ≠ [] ∧ parts.className = name := by
  obtain ⟨segments, words, package⟩ := wellFormed.package
  obtain ⟨init, last, names⟩ : ∃ init last, name.names = init ++ [last] :=
    ⟨_, _, (List.dropLast_concat_getLast wellFormed.nonempty).symm⟩
  have all := wellFormed.words
  rw [names, List.forall_mem_append, List.forall_mem_singleton] at all
  refine ⟨⟨segments.map String.toList, init.map String.toList, last.toList.reverse⟩, ⟨?_, ?_, ?_⟩, ?_, ?_⟩
  · simpa using words
  · simpa using all.1
  · simpa using all.2.chars
  · simpa using all.2.nonempty
  · have same : name = ⟨".".intercalate segments, init ++ [last]⟩ := by rw [← package, ← names]
    rw [same, className]
    simp [NameParts.simple, Function.comp_def, ← String.toList_inj, String.toList_intercalate]

/-- The source of a name has its parts. -/
theorem scanName_chars (valid : parts.Valid) (begun : parts.last ≠ []) (ends : Ends rest) :
    scanName ⟨[], [], []⟩ (parts.chars ++ rest) = .ok (parts, rest) := by
  obtain ⟨packages, outer, last⟩ := parts
  have strings : ∀ words : List (List Char), words = (words.map String.ofList).map String.toList := fun words => by
    simp [Function.comp_def]
  have first := scanName_packages (List.forall_mem_map.mpr valid.packages) []
    (outer.flatMap (· ++ ['$']) ++ last.reverse ++ rest)
  have second := scanName_outer (List.forall_mem_map.mpr valid.outer) packages [] (last.reverse ++ rest)
  have letters : ∀ c ∈ last.reverse, isNameChar c = true := by simpa using valid.last
  have third := scanName_word letters ⟨packages, outer, []⟩ rest
  rw [← strings] at first second
  rw [List.reverse_reverse, List.append_nil] at third
  rw [chars, NameParts.simple, List.append_assoc, List.append_assoc, ← List.append_assoc _ last.reverse, first,
    List.nil_append, List.append_assoc, second, List.nil_append, third]
  exact scanName_end begun ends

end NameParts

theorem Primitive.eq_of_ofKeyword? {word : String} {kind : Primitive} (found : Primitive.ofKeyword? word = some kind) :
    kind.keyword = word := by
  simpa using List.find?_some found

/-- The source that a name was read from. -/
def Named.chars : Named → List Char
  | .classType name => name.chars '$'
  | .primitive kind _ => kind.keyword.toList

theorem readName_eq_ok {named : Named} {text rest : List Char} (run : readName text = .ok (named, rest)) :
    text = named.chars ++ rest ∧ Ends rest ∧ ∀ name, named = .classType name → name.WellFormed := by
  obtain ⟨⟨parts, behind⟩, scan, run⟩ := bind_eq_ok.mp run
  obtain ⟨valid, begun, same, ends⟩ := NameParts.valid_of_scanName NameParts.valid_nil scan
  have all : text = parts.className.chars '$' ++ behind := by
    rw [NameParts.className_chars valid, ← same]
    rfl
  dsimp only at run
  split at run
  next single =>
    obtain ⟨noPackage, noOuter⟩ : parts.packages = [] ∧ parts.outer = [] := by simpa using single
    have alone : parts.className = .topLevel "" (String.ofList parts.simple) :=
      (NameParts.className_eq_topLevel valid).mpr ⟨noPackage, noOuter, rfl⟩
    split at run
    next => cases run
    next notVoid =>
      split at run
      next kind found =>
        cases run
        refine ⟨?_, ends, nofun⟩
        rw [all, alone, Named.chars, Primitive.eq_of_ofKeyword? found]
        simp [ClassName.topLevel, ClassName.chars]
      next notPrimitive =>
        cases run
        refine ⟨all, ends, ?_⟩
        rintro _ ⟨⟩
        refine NameParts.wellFormed_className valid begun fun word same => ?_
        obtain ⟨_, _, rfl⟩ := (NameParts.className_eq_topLevel valid).mp same
        exact ⟨notVoid, notPrimitive⟩
  next several =>
    cases run
    refine ⟨all, ends, ?_⟩
    rintro _ ⟨⟩
    refine NameParts.wellFormed_className valid begun fun word same => ?_
    obtain ⟨noPackage, noOuter, _⟩ := (NameParts.className_eq_topLevel valid).mp same
    exact absurd (by simp [noPackage, noOuter]) several

theorem readName_chars {name : ClassName} (wellFormed : name.WellFormed) {rest : List Char} (ends : Ends rest) :
    readName (name.chars '$' ++ rest) = .ok (.classType name, rest) := by
  obtain ⟨parts, valid, begun, rfl⟩ := NameParts.exists_parts wellFormed
  rw [NameParts.className_chars valid, readName, NameParts.scanName_chars valid begun ends]
  simp only [bind, Except.bind]
  split
  next single =>
    obtain ⟨noPackage, noOuter⟩ : parts.packages = [] ∧ parts.outer = [] := by simpa using single
    obtain ⟨notVoid, notPrimitive⟩ := wellFormed.unreserved _
      ((NameParts.className_eq_topLevel valid).mpr ⟨noPackage, noOuter, rfl⟩)
    rw [if_neg notVoid, notPrimitive]
    rfl
  next => rfl

theorem readName_keyword (kind : Primitive) {rest : List Char} (ends : Ends rest) :
    ∃ left, readName (kind.keyword.toList ++ rest) = .ok (.primitive kind left, rest) := by
  have letters : ∀ c ∈ kind.keyword.toList, isNameChar c = true := List.all_eq_true.mp (by cases kind <;> rfl)
  have begun : kind.keyword.toList.reverse ≠ [] := by cases kind <;> decide
  have notVoid : kind.keyword ≠ "void" := by cases kind <;> decide
  have found : Primitive.ofKeyword? kind.keyword = some kind := by cases kind <;> decide
  have scan : scanName ⟨[], [], []⟩ (kind.keyword.toList ++ rest) = .ok (⟨[], [], kind.keyword.toList.reverse⟩, rest) := by
    rw [NameParts.scanName_word letters, List.append_nil]
    exact NameParts.scanName_end begun ends
  have simple : String.ofList (NameParts.simple ⟨[], [], kind.keyword.toList.reverse⟩) = kind.keyword := by
    simp [NameParts.simple]
  refine ⟨(kind.keyword.toList ++ rest).length, ?_⟩
  rw [readName, scan]
  simp only [bind, Except.bind, simple, notVoid, found, List.isEmpty_nil, and_self, if_true, if_false]
  rfl

/-- The first word of a name, and what separates it from the rest. -/
theorem exists_first_word {name : ClassName} (wellFormed : name.WellFormed) :
    ∃ word tail, IsWord word ∧ name.chars '$' = word.toList ++ tail ∧
      (tail = [] ∧ name = .topLevel "" word ∨ tail.head? = some '.' ∨ tail.head? = some '$') := by
  obtain ⟨parts, valid, begun, rfl⟩ := NameParts.exists_parts wellFormed
  rw [NameParts.className_chars valid, NameParts.chars]
  cases packages : parts.packages with
  | cons segment segments =>
    exact ⟨String.ofList segment, '.' :: (segments.flatMap (· ++ ['.']) ++ parts.outer.flatMap (· ++ ['$']) ++ parts.simple),
      valid.packages segment (by simp [packages]), by simp, Or.inr (Or.inl rfl)⟩
  | nil =>
    cases outer : parts.outer with
    | cons first others =>
      exact ⟨String.ofList first, '$' :: (others.flatMap (· ++ ['$']) ++ parts.simple),
        valid.outer first (by simp [outer]), by simp, Or.inr (Or.inr rfl)⟩
    | nil =>
      refine ⟨String.ofList parts.simple, [], valid.simple begun, by simp, Or.inl ⟨rfl, ?_⟩⟩
      exact (NameParts.className_eq_topLevel valid).mpr ⟨packages, outer, rfl⟩

end TypedTree.Java.TypeParser
