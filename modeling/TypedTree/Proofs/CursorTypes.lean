import TypedTree.Error
import TypedTree.Proofs.CursorNames
import TypedTree.Proofs.SourceReading

/-! Reading types by position. It goes along with reading what is left of a text, so that the cursor never leaves the text. -/

namespace TypedTree.Java.TypeCursor

open TypeParser (Problem Named isNameChar typeVariable? afterWord?)

variable {chars text rest word : List Char} {c : Char} {i first before : Nat}

/-- A step in between that both readers take, or stop at. -/
inductive Both {α : Type} (chars : List Char) : Except Stop α → Except Problem α → Prop
  | ok (value : α) : Both chars (.ok value) (.ok value)
  | flawed {flaw : TypeFlaw} {i left : Nat} (place : i + left = chars.length) :
    Both chars (.error (.flawed flaw i)) (.error ⟨flaw, left⟩)

theorem Both.bind {α β γ : Type} {related : β → γ → Prop} {run : Except Stop α} {other : Except Problem α}
    {next : α → Except Stop (β × Nat)} {otherNext : α → Except Problem (γ × List Char)} (both : Both chars run other)
    (later : ∀ value, Along chars first related (next value) (otherNext value)) :
    Along chars first related (run >>= next) (other >>= otherNext) := by
  cases both with
  | ok value => exact later value
  | flawed place => exact .flawed place

theorem SameName.className {found : Found} {named : Named} (same : SameName chars found named) :
    Both chars (found.className chars) named.className := by
  cases same with
  | classType name => exact .ok name
  | primitive kind place =>
    rw [Found.className, moveTo_eq (Nat.le.intro place)]
    exact .flawed place

theorem consume_cons (isAt : IsAt chars i (c :: text)) : consume chars c i = .ok (true, i + 1) := by
  rw [consume, isAt.next, List.head?_cons, if_pos rfl, moveTo_eq isAt.step.inside]
  rfl

theorem consume_other (isAt : IsAt chars i text) (other : text.head? ≠ some c) : consume chars c i = .ok (false, i) := by
  rw [consume, isAt.next, if_neg other]
  rfl

theorem readAnnotations_along {fuel bound : Nat} (isAt : IsAt chars i text) (onward : before ≤ i)
    (enough : text.length < fuel) (within : text.length ≤ bound) :
    Along chars before Eq (readAnnotations chars fuel i) (TypeParser.readAnnotations bound text) := by
  induction fuel generalizing before bound i text with
  | zero => exact absurd enough (Nat.not_lt_zero _)
  | succ fuel ih =>
    rw [readAnnotations]
    by_cases marked : text.head? = some '@'
    · obtain ⟨behind, rfl⟩ := List.head?_eq_some_iff.mp marked
      rw [List.length_cons] at enough within
      obtain ⟨bound, rfl⟩ := Nat.exists_eq_add_of_le' (Nat.le_trans (Nat.le_add_left 1 _) within)
      rw [consume_cons isAt, ok_bind, TypeParser.readAnnotations]
      refine (readName_along isAt.step (Nat.le_refl _)).bind fun found named j rest same later passed => ?_
      refine same.className.bind fun label => ?_
      have shorter := isAt.step.length_le later passed
      by_cases space : rest.head? = some ' '
      · obtain ⟨rest, rfl⟩ := List.head?_eq_some_iff.mp space
        rw [List.length_cons] at shorter
        dsimp only
        rw [consume_cons later, ok_bind]
        refine (ih later.step (Nat.le_refl _) (by omega) (by omega)).bind fun others _ k behind same last moved => ?_
        cases same
        exact .ok rfl last (by omega)
      · dsimp only
        rw [consume_other later space, ok_bind]
        dsimp only
        split
        · exact absurd rfl space
        · exact .fail later _
    · rw [consume_other isAt marked, ok_bind, TypeParser.readAnnotations_none marked]
      exact .ok rfl isAt onward

theorem readLabels_along {bound : Nat} (isAt : IsAt chars i text) (onward : before ≤ i) (within : text.length ≤ bound) :
    Along chars before Eq (readLabels chars i) (TypeParser.readLabels bound text) := by
  rw [readLabels]
  by_cases space : text.head? = some ' '
  · obtain ⟨behind, rfl⟩ := List.head?_eq_some_iff.mp space
    rw [List.length_cons] at within
    rw [consume_cons isAt, ok_bind, TypeParser.readLabels]
    refine (readAnnotations_along isAt.step (Nat.le_refl _) isAt.step.length_lt (by omega)).bind_remember
      fun annotations _ j rest same later passed read => ?_
    cases same
    dsimp only
    by_cases none : annotations = []
    · subst none
      -- without annotations the cursor has not moved since the space
      obtain rfl : behind = rest := (TypeParser.readAnnotations_eq_ok read).1
      obtain rfl : j = i + 1 := by
        have := isAt.step.add_length
        have := later.add_length
        omega
      rw [stepBack_eq later.inside, List.isEmpty_nil, if_pos rfl, if_pos rfl, ok_bind]
      exact .fail isAt _
    · rw [List.isEmpty_eq_false_iff.mpr none]
      exact .ok rfl later (by omega)
  · rw [consume_other isAt space, ok_bind]
    dsimp only
    unfold TypeParser.readLabels
    split
    · exact absurd rfl space
    · exact .ok rfl isAt onward

theorem readDimensions_along {fuel bound : Nat} (isAt : IsAt chars i text) (onward : before ≤ i)
    (enough : text.length < fuel) (within : text.length < bound) :
    Along chars before Eq (readDimensions chars fuel i) (TypeParser.readDimensions bound text) := by
  induction fuel generalizing before bound i text with
  | zero => exact absurd enough (Nat.not_lt_zero _)
  | succ fuel ih =>
    obtain ⟨bound, rfl⟩ := Nat.exists_eq_add_of_le' (Nat.lt_of_le_of_lt (Nat.zero_le _) within)
    rw [readDimensions, TypeParser.readDimensions]
    refine (readLabels_along isAt (Nat.le_refl _) (by omega)).bind fun annotations _ j rest same later passed => ?_
    cases same
    have shorter := isAt.length_le later passed
    dsimp only
    by_cases opened : rest.head? = some '['
    · obtain ⟨inner, rfl⟩ := List.head?_eq_some_iff.mp opened
      rw [List.length_cons] at shorter
      rw [consume_cons later, ok_bind]
      by_cases closed : inner.head? = some ']'
      · obtain ⟨behind, rfl⟩ := List.head?_eq_some_iff.mp closed
        rw [List.length_cons] at shorter
        dsimp only
        rw [consume_cons later.step, ok_bind]
        refine (ih later.step.step (Nat.le_refl _) (by omega) (by omega)).bind fun others _ k rest same last moved => ?_
        cases same
        exact .ok rfl last (by omega)
      · dsimp only
        rw [consume_other later.step closed, ok_bind]
        dsimp only
        split
        · next same =>
          cases same
          exact absurd rfl closed
        · next same =>
          cases same
          exact .fail later.step _
        · next other => exact absurd rfl (other inner)
    · rw [consume_other later opened, ok_bind]
      dsimp only
      by_cases none : annotations = []
      · rw [List.isEmpty_iff.mpr none, if_pos rfl]
        split
        · exact absurd rfl opened
        · exact absurd rfl opened
        · exact .ok rfl later (by omega)
      · rw [List.isEmpty_eq_false_iff.mpr none, if_neg Bool.false_ne_true]
        split
        · exact absurd rfl opened
        · exact absurd rfl opened
        · exact .fail later _

/-- The end of the word at the cursor. -/
theorem wordEnd?_eq {fuel : Nat} (isAt : IsAt chars i text) (enough : text.length < fuel) :
    wordEnd? chars fuel i = .ok (if (text.dropWhile isNameChar).head? = some '.' ∨ (text.dropWhile isNameChar).head? = some '$'
      then none else some (i + (text.takeWhile isNameChar).length)) := by
  induction fuel generalizing i text with
  | zero => exact absurd enough (Nat.not_lt_zero _)
  | succ fuel ih =>
    rw [wordEnd?, isAt.next]
    cases text with
    | nil => simp
    | cons c rest =>
      rw [List.length_cons, Nat.add_lt_add_iff_right] at enough
      dsimp only [List.head?_cons]
      by_cases mark : c = '.' ∨ c = '$'
      · have other : isNameChar c = false := by rcases mark with rfl | rfl <;> decide
        simp [mark, other]
      · rw [if_neg mark]
        by_cases letter : isNameChar c = true
        · rw [if_pos letter, ih isAt.step enough]
          simp [letter, Nat.add_assoc, Nat.add_comm 1]
        · simp [letter, not_or.mp mark]

theorem slice_of_isAt (isAt : IsAt chars i (word ++ text)) : slice chars i (i + word.length) = .ok word := by
  refine slice_eq_ok.mpr ⟨Nat.le_add_right _ _, isAt.moved.inside, ?_⟩
  rw [List.drop_take, Nat.add_sub_cancel_left, isAt.left, List.take_left]

theorem readVariable_none (isAt : IsAt chars i text) (found : typeVariable? text = none) :
    readVariable chars i = .ok (none, i) := by
  rw [readVariable, isAt.next, wordEnd?_eq isAt isAt.length_lt]
  rw [typeVariable?] at found
  by_cases upper : text.head?.any Text.isUpperCase = true
  · rw [if_pos upper] at found ⊢
    by_cases mark : (text.dropWhile isNameChar).head? = some '.' ∨ (text.dropWhile isNameChar).head? = some '$'
    · rw [if_pos mark]
      rfl
    · simp only [if_neg mark] at found
      cases found
  · rw [if_neg upper]
    rfl

theorem readVariable_some (isAt : IsAt chars i text) (found : typeVariable? text = some (word, rest)) :
    readVariable chars i = .ok (some word, i + word.length) := by
  have parts := (TypeParser.typeVariable?_eq_some found).1
  rw [readVariable, isAt.next, wordEnd?_eq isAt isAt.length_lt]
  rw [typeVariable?] at found
  by_cases upper : text.head?.any Text.isUpperCase = true
  · rw [if_pos upper] at found ⊢
    by_cases mark : (text.dropWhile isNameChar).head? = some '.' ∨ (text.dropWhile isNameChar).head? = some '$'
    · simp only [if_pos mark] at found
      cases found
    · simp only [if_neg mark, Option.some.injEq, Prod.mk.injEq] at found
      rw [if_neg mark, found.1, ok_bind]
      dsimp only
      rw [slice_of_isAt (parts ▸ isAt), ok_bind, moveTo_eq (parts ▸ isAt).moved.inside]
      rfl
  · rw [if_neg upper] at found
    cases found

theorem consumeWord_some {word : String} (isAt : IsAt chars i text) (found : afterWord? word text = some rest) :
    consumeWord chars word i = .ok (true, i + word.length) ∧ IsAt chars (i + word.length) rest := by
  obtain rfl := TypeParser.afterWord?_eq_some found
  have moved := isAt.moved
  have cut := slice_of_isAt isAt
  rw [String.length_toList] at moved cut
  refine ⟨?_, moved⟩
  rw [consumeWord, if_pos moved.inside, cut, ok_bind, if_pos rfl, moveTo_eq moved.inside]
  rfl

theorem consumeWord_none {word : String} (isAt : IsAt chars i text) (found : afterWord? word text = none) :
    consumeWord chars word i = .ok (false, i) := by
  rw [consumeWord]
  split
  · next inside =>
    have other : ¬ word.toList <+: text := by
      rw [afterWord?] at found
      split at found
      · cases found
      · next other => exact fun starts => other (List.isPrefixOf_iff_prefix.mpr starts)
    have cut : slice chars i (i + word.length) = .ok (text.take word.length) := by
      refine slice_eq_ok.mpr ⟨Nat.le_add_right _ _, inside, ?_⟩
      rw [List.drop_take, Nat.add_sub_cancel_left, isAt.left]
    have differs : text.take word.length ≠ word.toList := fun same => other (same ▸ List.take_prefix _ _)
    rw [cut, ok_bind, if_neg differs]
    rfl
  · rfl

theorem readElement_along {read : Nat → Except Stop (List JavaType × Nat)}
    {otherRead : List Char → Except Problem (List JavaType × List Char)} {found : Found} {named : Named}
    {annotations : List ClassName} (same : SameName chars found named) (isAt : IsAt chars i text) (onward : before ≤ i)
    (reads : ∀ rest, text = '<' :: rest → Along chars (i + 1) Eq (read (i + 1)) (otherRead rest)) :
    Along chars before Eq (readElement chars read annotations found i)
      (TypeParser.readElement otherRead annotations named text) := by
  rw [readElement]
  by_cases opened : text.head? = some '<'
  · obtain ⟨rest, rfl⟩ := List.head?_eq_some_iff.mp opened
    rw [consume_cons isAt, ok_bind, TypeParser.readElement]
    refine same.className.bind fun raw => ?_
    refine (reads rest rfl).bind fun arguments _ j behind equal later passed => ?_
    cases equal
    dsimp only
    by_cases closed : behind.head? = some '>'
    · obtain ⟨behind, rfl⟩ := List.head?_eq_some_iff.mp closed
      rw [consume_cons later, ok_bind]
      exact .ok rfl later.step (by omega)
    · rw [consume_other later closed, ok_bind]
      dsimp only
      split
      · exact absurd rfl closed
      · exact .fail later _
  · rw [consume_other isAt opened, ok_bind]
    unfold TypeParser.readElement
    cases same <;> dsimp only <;> split
    · exact absurd rfl opened
    · exact .ok rfl isAt onward
    · exact absurd rfl opened
    · exact .ok rfl isAt onward

theorem SameName.checkPlace {found : Found} {named : Named} (same : SameName chars found named) (asArgument : Bool)
    (dimensions : List (List ClassName)) :
    Both chars (found.checkPlace chars asArgument dimensions) (named.checkPlace asArgument dimensions) := by
  rw [Found.checkPlace, Named.checkPlace]
  split
  · cases same with
    | classType name => exact .ok ()
    | primitive kind place =>
      rw [Found.className, moveTo_eq (Nat.le.intro place)]
      exact .flawed place
  · exact .ok ()

/-! Three steps to a character and two more are enough for a type, and one more each for an argument and for arguments. -/

mutual

theorem readType_along {fuel i before : Nat} {text : List Char} {asArgument : Bool} (isAt : IsAt chars i text)
    (onward : before ≤ i) (enough : 3 * text.length + 2 ≤ fuel) :
    Along chars before Eq (readType chars fuel asArgument i) (TypeParser.readType fuel asArgument text) := by
  cases fuel with
  | zero => exact absurd enough (Nat.not_succ_le_zero _)
  | succ fuel =>
    rw [readType, TypeParser.readType]
    refine (readAnnotations_along isAt (Nat.le_refl _) isAt.length_lt (by omega)).bind
      fun annotations _ j rest same later passed => ?_
    cases same
    have shorter := isAt.length_le later passed
    dsimp only
    cases found : typeVariable? rest with
    | some split =>
      obtain ⟨name, behind⟩ := split
      have moved := ((TypeParser.typeVariable?_eq_some found).1 ▸ later).moved
      have shorter' := later.length_le moved (Nat.le_add_right _ _)
      rw [readVariable_some later found, ok_bind]
      dsimp only
      rw [moved.next]
      split
      · exact .fail moved _
      · refine (readDimensions_along moved (Nat.le_refl _) moved.length_lt (by omega)).bind
          fun dimensions _ k rest same last passed' => ?_
        cases same
        exact .ok rfl last (by omega)
    | none =>
      rw [readVariable_none later found, ok_bind]
      dsimp only
      refine (readName_along later (Nat.le_refl _)).bind fun found named k behind same named' moved => ?_
      have shorter' := later.length_le named' moved
      refine (readElement_along same named' (Nat.le_refl _) fun inner opened => ?_).bind
        fun element _ l rest equal last passed' => ?_
      · subst opened
        rw [List.length_cons] at shorter'
        exact readArguments_along named'.step (Nat.le_refl _) (by omega)
      · cases equal
        have shorter'' := named'.length_le last passed'
        refine (readDimensions_along last (Nat.le_refl _) last.length_lt (by omega)).bind
          fun dimensions _ m rest equal ended passed'' => ?_
        cases equal
        refine (same.checkPlace asArgument dimensions).bind fun _ => ?_
        exact .ok rfl ended (by omega)

theorem readArguments_along {fuel i before : Nat} {text : List Char} (isAt : IsAt chars i text) (onward : before ≤ i)
    (enough : 3 * text.length + 4 ≤ fuel) :
    Along chars before Eq (readArguments chars fuel i) (TypeParser.readArguments fuel text) := by
  cases fuel with
  | zero => exact absurd enough (Nat.not_succ_le_zero _)
  | succ fuel =>
    rw [readArguments, TypeParser.readArguments]
    refine (readArgument_along isAt (Nat.le_refl _) (by omega)).bind fun argument _ j rest same later passed => ?_
    cases same
    have shorter := isAt.length_le later passed
    dsimp only
    cases found : afterWord? ", " rest with
    | some behind =>
      obtain ⟨moved, last⟩ := consumeWord_some later found
      obtain rfl : rest = ',' :: ' ' :: behind := TypeParser.afterWord?_eq_some found
      rw [moved, ok_bind]
      refine (readArguments_along last (Nat.le_refl _) ?_).bind fun others _ k rest same ended moved => ?_
      · rw [List.length_cons] at shorter
        rw [List.length_cons] at shorter
        omega
      · cases same
        exact .ok rfl ended (by omega)
    | none =>
      rw [consumeWord_none later found, ok_bind]
      dsimp only
      split
      · simp [afterWord?] at found
      · exact .ok rfl later (by omega)

theorem readArgument_along {fuel i before : Nat} {text : List Char} (isAt : IsAt chars i text) (onward : before ≤ i)
    (enough : 3 * text.length + 3 ≤ fuel) :
    Along chars before Eq (readArgument chars fuel i) (TypeParser.readArgument fuel text) := by
  cases fuel with
  | zero => exact absurd enough (Nat.not_succ_le_zero _)
  | succ fuel =>
    rw [readArgument]
    by_cases marked : text.head? = some '?'
    · obtain ⟨rest, rfl⟩ := List.head?_eq_some_iff.mp marked
      rw [List.length_cons] at enough
      rw [consume_cons isAt, ok_bind, TypeParser.readArgument]
      dsimp only
      cases upper : afterWord? " extends " rest with
      | some bound =>
        obtain ⟨moved, later⟩ := consumeWord_some isAt.step upper
        have fewer := isAt.step.length_le later (Nat.le_add_right _ _)
        rw [moved, ok_bind]
        refine (readType_along later (Nat.le_refl _) (by omega)).bind fun type _ j behind same last passed => ?_
        cases same
        exact .ok rfl last (by omega)
      | none =>
        rw [consumeWord_none isAt.step upper, ok_bind]
        dsimp only
        cases lower : afterWord? " super " rest with
        | some bound =>
          obtain ⟨moved, later⟩ := consumeWord_some isAt.step lower
          have fewer := isAt.step.length_le later (Nat.le_add_right _ _)
          rw [moved, ok_bind]
          refine (readType_along later (Nat.le_refl _) (by omega)).bind fun type _ j behind same last passed => ?_
          cases same
          exact .ok rfl last (by omega)
        | none =>
          rw [consumeWord_none isAt.step lower, ok_bind]
          exact .ok rfl isAt.step (Nat.le_succ_of_le onward)
    · rw [consume_other isAt marked, ok_bind, TypeParser.readArgument]
      · exact readType_along isAt onward (by omega)
      · rintro rest rfl
        exact marked rfl

end

theorem readAll_both (text : List Char) : Both text (readAll text) (TypeParser.readAll text) := by
  have along : Along text 0 Eq (readType text (3 * text.length + 2) false 0)
      (TypeParser.readType (3 * text.length + 2) false text) :=
    readType_along (isAt_zero text) (Nat.le_refl 0) (Nat.le_refl _)
  rw [readAll, TypeParser.readAll]
  generalize readType text (3 * text.length + 2) false 0 = run at along ⊢
  generalize TypeParser.readType (3 * text.length + 2) false text = other at along ⊢
  cases along with
  | flawed place => exact .flawed place
  | @ok type _ i rest holds isAt _ =>
    cases holds
    rw [ok_bind]
    have ends : i = text.length ↔ rest.isEmpty = true := by
      have := isAt.add_length
      rw [List.isEmpty_iff, ← List.length_eq_zero_iff]
      omega
    change Both text (if i = text.length then .ok type else _) (if rest.isEmpty = true then .ok type else _)
    by_cases ended : i = text.length
    · rw [if_pos ended, if_pos (ends.mp ended)]
      exact .ok type
    · rw [if_neg ended, if_neg (mt ends.mpr ended)]
      exact .flawed isAt.add_length

/-- A text can be read by position with the same result. Then no move of the cursor, no step back and no cut ever leaves the
text. A flaw is reported at a place in the text or at its end, and so is its caret. -/
theorem readAll_inRange (text : String) :
    readAll text.toList = (JavaType.ofText text).mapError (fun error => .flawed error.flaw error.position) ∧
      readAll text.toList ≠ .error .outOfRange ∧
      ∀ error, JavaType.ofText text = .error error → error.position ≤ text.length ∧
        ∃ column, column ≤ text.length ∧ typeTextMessage error =
          "Invalid type string " ++ Text.quoted text ++ ": " ++ error.flaw.message ++ "\n\t" ++ text ++ "\n\t" ++
            String.ofList (List.replicate column ' ') ++ "^" := by
  have both := readAll_both text.toList
  rw [JavaType.ofText]
  generalize readAll text.toList = run at both ⊢
  generalize TypeParser.readAll text.toList = other at both ⊢
  cases both with
  | ok type =>
    refine ⟨rfl, ListEffects.error_ne_ok.symm, fun error failed => ?_⟩
    cases failed
  | @flawed flaw i left place =>
    rw [String.length_toList] at place
    have position : text.length - left = i := by omega
    refine ⟨by simp only [Except.mapError, position], fun left => ?_, fun error failed => ?_⟩
    · cases left
    · cases failed
      exact ⟨Nat.sub_le _ _, _, Nat.sub_le _ _, rfl⟩

end TypedTree.Java.TypeCursor
