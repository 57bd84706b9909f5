import Mathlib.Data.List.Basic
import TypedTree.Config
import TypedTree.Proofs.ClassAssignment

/-! What the use of a generated name says of the name that it was made of: marks that no identifier has are kept by every
spelling, so they are not in there either. -/

namespace TypedTree.Naming

open ListEffects (bind_eq_ok)

/-- A character that is not a part of any identifier, and that all spellings keep. -/
structure IsMark (c : Char) : Prop where
  part : Java.isIdentifierPart c = false
  upper : Text.upper c = [c]
  hyphen : c ≠ '-'

theorem isMark_dot : IsMark '.' := ⟨rfl, rfl, by decide⟩

theorem isMark_star : IsMark '*' := ⟨rfl, rfl, by decide⟩

theorem isMark_hash : IsMark '#' := ⟨rfl, rfl, by decide⟩

variable {mark : Char} {name : String} {text : List Char}

theorem IsMark.underscore (isMark : IsMark mark) : mark ≠ '_' := by
  rintro rfl
  cases isMark.part

theorem IsMark.ne_separator (isMark : IsMark mark) {c : Char} (separator : (decide (c = '_') || decide (c = '-')) = true) :
    mark ≠ c := by
  rintro rfl
  have either : mark = '_' ∨ mark = '-' := by simpa using separator
  exact either.elim isMark.underscore isMark.hyphen

theorem isIdentifierPart_of_isIdentifier (valid : Java.isIdentifier text = true) {c : Char} (member : c ∈ text) :
    Java.isIdentifierPart c = true := by
  cases text with
  | nil => cases member
  | cons first rest =>
    obtain ⟨start, parts⟩ : Java.isIdentifierStart first = true ∧ rest.all Java.isIdentifierPart = true := by
      simpa [Java.isIdentifier] using valid
    rcases List.mem_cons.mp member with rfl | later
    · simp only [Java.isIdentifierStart, Bool.or_eq_true] at start
      simp only [Java.isIdentifierPart, Bool.or_eq_true]
      rcases start with (letter | underscore) | dollar
      · exact Or.inl (Or.inl (Or.inl letter))
      · exact Or.inl (Or.inr underscore)
      · exact Or.inr dollar
    · exact List.all_eq_true.mp parts c later

theorem isIdentifier_of_memberName {result : String} (run : Names.memberName name = .ok result) :
    Java.isIdentifier name.toList = true := by
  rw [Names.memberName] at run
  split at run
  next => cases run
  next usable =>
    rw [Java.memberNameFlaw?] at usable
    split at usable
    · cases usable
    · split at usable
      · cases usable
      next valid => simpa using valid

theorem typeName_eq_ok {result : String} (run : Names.typeName name = .ok result) :
    result = name ∧ Java.isIdentifier name.toList = true := by
  rw [Names.typeName] at run
  split at run
  next => cases run
  next usable =>
    cases run
    have member : Names.memberName name = .ok name := by
      rw [Java.typeNameFlaw?] at usable
      split at usable
      · cases usable
      next free => rw [Names.memberName, free]
    exact ⟨rfl, isIdentifier_of_memberName member⟩

theorem IsMark.not_mem (isMark : IsMark mark) (valid : Java.isIdentifier text = true) : mark ∉ text := by
  intro member
  have part := isIdentifierPart_of_isIdentifier valid member
  rw [isMark.part] at part
  cases part

theorem IsMark.mem_camelCase (isMark : IsMark mark) (member : mark ∈ text) : mark ∈ camelCase text := by
  fun_induction camelCase text with
  | case1 => cases member
  | case2 => exact absurd (List.mem_singleton.mp member) isMark.underscore
  | case3 next rest ih =>
    rcases List.mem_cons.mp member with same | member
    · exact absurd same isMark.underscore
    · rcases List.mem_cons.mp member with rfl | later
      · exact List.mem_append_left _ (by rw [isMark.upper]; exact List.mem_singleton_self _)
      · exact List.mem_append_right _ (ih later)
  | case4 c rest _ _ ih =>
    rcases List.mem_cons.mp member with rfl | later
    · exact List.mem_cons_self
    · exact List.mem_cons_of_mem _ (ih later)

theorem IsMark.mem_upperFirst (isMark : IsMark mark) (member : mark ∈ text) : mark ∈ upperFirst text := by
  cases text with
  | nil => cases member
  | cons first rest =>
    rcases List.mem_cons.mp member with rfl | later
    · exact List.mem_append_left _ (by rw [isMark.upper]; exact List.mem_singleton_self _)
    · exact List.mem_append_right _ later

theorem IsMark.mem_typeCase (isMark : IsMark mark) (member : mark ∈ text) : mark ∈ typeCase text := by
  refine isMark.mem_upperFirst (isMark.mem_camelCase ?_)
  split
  next => exact (List.mem_cons.mp member).resolve_left isMark.underscore
  next => exact member

theorem IsMark.mem_splitWords (isMark : IsMark mark) {afterLower : Bool} (member : mark ∈ text) :
    mark ∈ splitWords afterLower text := by
  fun_induction splitWords afterLower text with
  | case1 => cases member
  | case2 _ c _ separator =>
    -- The character that an underscore replaces.
    exact absurd (List.mem_singleton.mp member) (isMark.ne_separator separator)
  | case3 _ c _ separator next rest ih =>
    rcases List.mem_cons.mp member with same | member
    · exact absurd same (isMark.ne_separator separator)
    · rcases List.mem_cons.mp member with rfl | later
      · exact List.mem_cons_of_mem _ List.mem_cons_self
      · exact List.mem_cons_of_mem _ (List.mem_cons_of_mem _ (ih later))
  | case4 _ c rest _ _ ih =>
    rcases List.mem_cons.mp member with rfl | later
    · exact List.mem_cons_of_mem _ List.mem_cons_self
    · exact List.mem_cons_of_mem _ (List.mem_cons_of_mem _ (ih later))
  | case5 _ c rest _ ih =>
    rcases List.mem_cons.mp member with rfl | later
    · exact List.mem_cons_self
    · exact List.mem_cons_of_mem _ (ih later)

theorem IsMark.mem_constantCase (isMark : IsMark mark) (member : mark ∈ text) : mark ∈ constantCase text := by
  refine List.mem_flatMap.mpr ⟨mark, isMark.mem_splitWords member, ?_⟩
  rw [isMark.upper]
  exact List.mem_singleton_self _

/-- The field of a constant that can be declared. -/
theorem IsMark.not_mem_field (isMark : IsMark mark) {field result : String}
    (run : Names.memberName (Scheme.fieldNameConstant field) = .ok result) : mark ∉ field.toList := by
  intro member
  have spelled : mark ∈ (spell constantCase field).toList := by
    rw [spell, String.toList_ofList]
    exact isMark.mem_constantCase member
  refine isMark.not_mem (isIdentifier_of_memberName run) ?_
  rw [Scheme.fieldNameConstant, String.toList_append]
  exact List.mem_append_right _ spelled

namespace NamePattern

variable {α : Type} {placeholders : Placeholders α}

theorem not_mem_literalPiece (value : α → String) (text : List Char) :
    Piece.placeholder value ∉ (literalPiece text : List (Piece α)) := by
  rw [literalPiece]
  split <;> simp

theorem placeholder_of_readPieces {pieces : List (Piece α)} (run : readPieces placeholders text = .ok pieces)
    {value : α → String} (member : .placeholder value ∈ pieces) : ∃ name, placeholders.get? name = some value := by
  fun_induction readPieces placeholders text generalizing pieces with
  | case2 =>
    cases run
    exact absurd member (not_mem_literalPiece value _)
  | case7 =>
    rename_i found ih
    obtain ⟨others, later, run⟩ := bind_eq_ok.mp run
    cases run
    rcases List.mem_append.mp member with before | member
    · exact absurd before (not_mem_literalPiece value _)
    · rcases List.mem_cons.mp member with same | after
      · cases same
        exact ⟨_, found⟩
      · exact ih later after
  | case1 => cases run
  | case3 => cases run
  | case4 => cases run
  | case5 => cases run
  | case6 => cases run

theorem placeholder_of_read {source : String} {pattern : NamePattern α} (run : read placeholders source = .ok pattern)
    {value : α → String} (member : .placeholder value ∈ pattern.pieces) : ∃ name, placeholders.get? name = some value := by
  rw [read] at run
  split at run
  next => cases run
  next =>
    split at run
    next => cases run
    next =>
      split at run
      next pieces found =>
        cases run
        exact placeholder_of_readPieces found member
      next => cases run

/-- Without placeholders a pattern stands for one name. -/
theorem apply_eq_of_no_placeholder {pattern : NamePattern α} (none : ∀ value, .placeholder value ∉ pattern.pieces)
    (one other : α) : pattern.apply one = pattern.apply other := by
  have same : ∀ piece ∈ pattern.pieces, applyPiece one piece = applyPiece other piece := by
    intro piece member
    cases piece with
    | literal => rfl
    | placeholder value => exact absurd member (none value)
  rw [apply, apply, List.flatMap_congr same]

end NamePattern

theorem eq_of_typePlaceholders {key : String} {value : String → String} (found : typePlaceholders.get? key = some value) :
    value = spell typeCase := by
  rw [typePlaceholders, Table.ofList, List.foldl_cons, List.foldl_nil, Table.get?_insert] at found
  split at found
  · exact (Option.some.inj found).symm
  · cases found

/-- A scheme that knows nothing of node types but their names in camel case. -/
def Scheme.ReadsTypes (scheme : Scheme) : Prop :=
  ∀ pattern, scheme.typePattern = some pattern → ∀ value, .placeholder value ∈ pattern.pieces → value = spell typeCase

theorem Scheme.readsTypes_of_config {config : Config} {scheme : Scheme} (run : config.scheme = .ok scheme) :
    scheme.ReadsTypes := by
  intro pattern given value member
  rw [Config.scheme] at run
  split at run
  next source _ =>
    cases outcome : NamePattern.read typePlaceholders source with
    | error => simp [Scheme.withPattern, outcome, bind, Except.bind, Except.mapError] at run
    | ok found =>
      rw [Scheme.withPattern, outcome] at run
      cases run
      cases given
      obtain ⟨_, known⟩ := NamePattern.placeholder_of_read outcome member
      exact eq_of_typePlaceholders known
  next =>
    cases run
    cases given

/-- The class of a node type has the marks of its name, or else all classes have one name. -/
theorem Scheme.mem_className_or_eq {scheme : Scheme} (reads : scheme.ReadsTypes) :
    (∀ mark type, IsMark mark → mark ∈ type.toList → mark ∈ (scheme.className type).toList) ∨
      ∀ one other, scheme.className one = scheme.className other := by
  have spelled : ∀ {mark : Char} {type : String}, IsMark mark → mark ∈ type.toList → mark ∈ (spell typeCase type).toList := by
    intro mark type isMark member
    rw [spell, String.toList_ofList]
    exact isMark.mem_typeCase member
  cases given : scheme.typePattern with
  | none =>
    refine Or.inl fun mark type isMark member => ?_
    rw [className, given, String.toList_append]
    exact List.mem_append_right _ (spelled isMark member)
  | some pattern =>
    by_cases placed : ∃ value, .placeholder value ∈ pattern.pieces
    · obtain ⟨value, inside⟩ := placed
      refine Or.inl fun mark type isMark member => ?_
      rw [className, given]
      dsimp only
      rw [NamePattern.apply, String.toList_ofList]
      refine List.mem_flatMap.mpr ⟨_, inside, ?_⟩
      rw [NamePattern.applyPiece, reads pattern given value inside]
      exact spelled isMark member
    · refine Or.inr fun one other => ?_
      rw [className, className, given]
      exact NamePattern.apply_eq_of_no_placeholder (fun value inside => placed ⟨value, inside⟩) one other

theorem eq_className_of_assignClasses {scheme : Scheme} {owners classes result : ClassTable} {types : List String}
    (spelled : ∀ type name, classes.get? type = some name → name = scheme.className type)
    (run : assignClasses scheme owners classes types = .ok result) {type name : String}
    (found : result.get? type = some name) : name = scheme.className type := by
  induction types generalizing owners classes with
  | nil =>
    cases run
    exact spelled type name found
  | cons first types ih =>
    rw [assignClasses] at run
    split at run
    next => cases run
    next =>
      refine ih (fun type name found => ?_) run
      rw [Table.get?_insert] at found
      split at found
      next same => rw [← Option.some.inj found, same]
      next => exact spelled type name found

theorem isIdentifier_of_className {names : Names} {type : String} (run : names.className type = .ok name) :
    Java.isIdentifier name.toList = true := by
  rw [Names.className] at run
  split at run
  next => cases run
  next =>
    split at run
    next => cases run
    next =>
      obtain ⟨rfl, valid⟩ := typeName_eq_ok run
      exact valid

variable {scheme : Scheme} {types : List String}

/-- The class of a node type is called as the scheme says. -/
theorem className_spelled {type : String} (run : (Names.forTypes scheme types).className type = .ok name) :
    name = scheme.className type := by
  obtain ⟨classes, assigned, found⟩ := className_eq_ok run
  exact eq_className_of_assignClasses (fun _ _ none => by cases none) assigned found

/-- Two node types with classes are one, or have names without marks. -/
theorem eq_or_unmarked (reads : scheme.ReadsTypes) {one other oneName otherName : String}
    (first : (Names.forTypes scheme types).className one = .ok oneName)
    (second : (Names.forTypes scheme types).className other = .ok otherName) :
    one = other ∨ ∀ mark, IsMark mark → mark ∉ one.toList ∧ mark ∉ other.toList := by
  rcases Scheme.mem_className_or_eq reads with kept | same
  · have unmarked : ∀ {type name : String}, (Names.forTypes scheme types).className type = .ok name →
        ∀ mark, IsMark mark → mark ∉ type.toList := by
      intro type name run mark isMark member
      refine isMark.not_mem (isIdentifier_of_className run) ?_
      rw [className_spelled run]
      exact kept mark type isMark member
    exact Or.inr fun mark isMark => ⟨unmarked first mark isMark, unmarked second mark isMark⟩
  · refine Or.inl (className_injective first ?_)
    rw [second, className_spelled second, className_spelled first, same other one]

end TypedTree.Naming
