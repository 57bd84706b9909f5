import TypedTree.Java.TypeCursor
import TypedTree.Proofs.NameReading

/-! Reading names by position. The places that a cursor remembers in a name tell the parts that are read of it, so that it
goes along with reading what is left of the text. -/

namespace TypedTree.Java.TypeCursor

open ListEffects (bind_eq_ok)
open TypeParser (Problem Named NameParts isNameChar intercalate_concat intercalate_mark)

variable {chars text rest word : List Char} {c : Char} {i first last before : Nat}

theorem ok_bind {α β : Type} (value : α) (next : α → Except Stop β) :
    ((.ok value : Except Stop α) >>= next) = next value := rfl

/-- The cursor stands where some text is left. -/
structure IsAt (chars : List Char) (i : Nat) (text : List Char) : Prop where
  inside : i ≤ chars.length
  left : chars.drop i = text

namespace IsAt

theorem add_length (isAt : IsAt chars i text) : i + text.length = chars.length := by
  rw [← isAt.left, List.length_drop]
  have := isAt.inside
  omega

theorem length_lt (isAt : IsAt chars i text) : text.length < chars.length + 1 := by
  have := isAt.add_length
  omega

/-- What is left does not grow when the cursor moves on. -/
theorem length_le (isAt : IsAt chars i text) (later : IsAt chars last rest) (onward : i ≤ last) :
    rest.length ≤ text.length := by
  have := isAt.add_length
  have := later.add_length
  omega

theorem next (isAt : IsAt chars i text) : chars[i]? = text.head? := by
  rw [← isAt.left, List.head?_drop]

theorem moved (isAt : IsAt chars i (word ++ text)) : IsAt chars (i + word.length) text := by
  have whole := isAt.add_length
  rw [List.length_append] at whole
  refine ⟨by omega, ?_⟩
  rw [← List.drop_drop, isAt.left, List.drop_left]

theorem step (isAt : IsAt chars i (c :: text)) : IsAt chars (i + 1) text :=
  (show IsAt chars i ([c] ++ text) from isAt).moved

end IsAt

theorem isAt_zero (chars : List Char) : IsAt chars 0 chars := ⟨Nat.zero_le _, rfl⟩

theorem moveTo_eq (inside : i ≤ chars.length) : moveTo chars i = .ok i := if_pos inside

theorem slice_eq_ok : slice chars first last = .ok word ↔
    first ≤ last ∧ last ≤ chars.length ∧ (chars.take last).drop first = word := by
  rw [slice]
  split
  · next inside => simp [inside]
  · next outside =>
    refine iff_of_false nofun fun ⟨ordered, inside, _⟩ => outside ⟨ordered, inside⟩

theorem length_of_slice (cut : slice chars first last = .ok word) : first + word.length = last := by
  obtain ⟨ordered, inside, rfl⟩ := slice_eq_ok.mp cut
  rw [List.length_drop, List.length_take]
  omega

theorem slice_self (inside : i ≤ chars.length) : slice chars i i = .ok [] :=
  slice_eq_ok.mpr ⟨Nat.le_refl i, inside, by simp⟩

theorem slice_append {more : List Char} (cut : slice chars first i = .ok word) (next : slice chars i last = .ok more) :
    slice chars first last = .ok (word ++ more) := by
  obtain ⟨begins, inside, rfl⟩ := slice_eq_ok.mp cut
  obtain ⟨ends, within, rfl⟩ := slice_eq_ok.mp next
  refine slice_eq_ok.mpr ⟨Nat.le_trans begins ends, within, ?_⟩
  have split : last - first = (i - first) + (last - i) := by omega
  rw [List.drop_take, List.drop_take, List.drop_take, split, List.take_add, List.drop_drop, Nat.add_sub_cancel' begins]

theorem slice_next (next : chars[i]? = some c) : slice chars i (i + 1) = .ok [c] := by
  obtain ⟨inside, same⟩ := List.getElem?_eq_some_iff.mp next
  refine slice_eq_ok.mpr ⟨Nat.le_succ i, inside, ?_⟩
  rw [List.drop_take, Nat.add_sub_cancel_left, List.drop_eq_getElem_cons inside, same]
  rfl

/-- A reader by position goes along with a reader of what is left: it moves on to where the other one has read to, with a
related result, or stops at the same flaw. -/
inductive Along {α β : Type} (chars : List Char) (first : Nat) (related : α → β → Prop) :
    Except Stop (α × Nat) → Except Problem (β × List Char) → Prop
  | ok {value : α} {other : β} {i : Nat} {rest : List Char} (holds : related value other) (isAt : IsAt chars i rest)
    (onward : first ≤ i) : Along chars first related (.ok (value, i)) (.ok (other, rest))
  | flawed {flaw : TypeFlaw} {i left : Nat} (place : i + left = chars.length) :
    Along chars first related (.error (.flawed flaw i)) (.error ⟨flaw, left⟩)

namespace Along

variable {α β γ δ : Type} {related : α → β → Prop} {result : γ → δ → Prop}

/-- What the readers go on with, which may remember what was read. -/
theorem bind_remember {run : Except Stop (α × Nat)} {other : Except Problem (β × List Char)}
    {next : α × Nat → Except Stop (γ × Nat)} {otherNext : β × List Char → Except Problem (δ × List Char)}
    (begins : Along chars before related run other)
    (later : ∀ value another i rest, related value another → IsAt chars i rest → before ≤ i → other = .ok (another, rest) →
      Along chars first result (next (value, i)) (otherNext (another, rest))) :
    Along chars first result (run >>= next) (other >>= otherNext) := by
  cases begins with
  | ok holds isAt onward => exact later _ _ _ _ holds isAt onward rfl
  | flawed place => exact .flawed place

theorem bind {run : Except Stop (α × Nat)} {other : Except Problem (β × List Char)}
    {next : α × Nat → Except Stop (γ × Nat)} {otherNext : β × List Char → Except Problem (δ × List Char)}
    (begins : Along chars before related run other)
    (later : ∀ value another i rest, related value another → IsAt chars i rest → before ≤ i →
      Along chars first result (next (value, i)) (otherNext (another, rest))) :
    Along chars first result (run >>= next) (other >>= otherNext) :=
  begins.bind_remember fun _ _ _ _ holds isAt onward _ => later _ _ _ _ holds isAt onward

theorem fail (isAt : IsAt chars i text) (flaw : TypeFlaw) :
    Along chars first related (.error (.flawed flaw i)) (TypeParser.fail flaw text) := .flawed isAt.add_length

end Along

/-- The marks of a name at the cursor, where its last part starts, and the parts as they were read. -/
structure Marked (chars : List Char) (start : Nat) (marks : Marks) (i : Nat) (parts : NameParts) (first : Nat) : Prop where
  outer : cutOuter chars marks.segment marks.dollars = .ok (parts.outer, first)
  simple : slice chars first i = .ok parts.simple
  dollars : marks.dollars = [] ∧ parts.outer = [] ∧ first = marks.segment ∨
    ∃ dollar, marks.dollars.getLast? = some dollar ∧ parts.outer ≠ [] ∧ first = dollar + 1 ∧ marks.segment < first
  dot : marks.dot = none ∧ parts.packages = [] ∧ marks.segment = start ∨
    ∃ dot, marks.dot = some dot ∧ parts.packages ≠ [] ∧ start < dot ∧ marks.segment = dot + 1 ∧ chars[dot]? = some '.' ∧
      slice chars start dot = .ok (['.'].intercalate parts.packages)

namespace Marked

variable {start : Nat} {marks : Marks} {parts : NameParts}

theorem nothing (inside : i ≤ chars.length) : Marked chars i ⟨i, none, []⟩ i ⟨[], [], []⟩ i :=
  ⟨rfl, slice_self inside, .inl ⟨rfl, rfl, rfl⟩, .inl ⟨rfl, rfl, rfl⟩⟩

/-- The places come one after the other. -/
theorem ordered (marked : Marked chars start marks i parts first) :
    start ≤ marks.segment ∧ marks.segment ≤ first ∧ first + parts.last.length = i ∧ i ≤ chars.length := by
  have length := length_of_slice marked.simple
  rw [NameParts.simple, List.length_reverse] at length
  refine ⟨?_, ?_, length, (slice_eq_ok.mp marked.simple).2.1⟩
  · rcases marked.dot with ⟨-, -, same⟩ | ⟨dot, -, -, before, same, -⟩ <;> omega
  · rcases marked.dollars with ⟨-, -, same⟩ | ⟨dollar, -, -, -, before⟩ <;> omega

theorem last_eq_nil (marked : Marked chars start marks i parts first) : parts.last = [] ↔ first = i := by
  have length := marked.ordered.2.2.1
  rw [← List.length_eq_zero_iff]
  omega

theorem dollars_eq_nil (marked : Marked chars start marks i parts first) : marks.dollars = [] ↔ parts.outer = [] := by
  obtain ⟨none, outer, -⟩ | ⟨dollar, isLast, outer, -⟩ := marked.dollars
  · exact iff_of_true none outer
  · exact iff_of_false (fun none => by simp [none] at isLast) outer

theorem at_dollar (marked : Marked chars start marks i parts first) :
    marks.dollars.getLast?.any (i = · + 1) = true ↔ parts.outer ≠ [] ∧ parts.last = [] := by
  rw [marked.last_eq_nil]
  obtain ⟨none, outer, -⟩ | ⟨dollar, isLast, outer, same, -⟩ := marked.dollars
  · simp [none, outer]
  · simp [isLast, outer, same, eq_comm]

theorem at_segment (marked : Marked chars start marks i parts first) :
    i = marks.segment ↔ parts.outer = [] ∧ parts.last = [] := by
  have ordered := marked.ordered
  rw [marked.last_eq_nil]
  obtain ⟨-, outer, same⟩ | ⟨dollar, -, outer, -, behind⟩ := marked.dollars
  · simp [outer, same, eq_comm]
  · exact iff_of_false (by omega) fun both => outer both.1

theorem at_start (marked : Marked chars start marks i parts first) :
    start = i ↔ parts.packages = [] ∧ parts.outer = [] ∧ parts.last = [] := by
  have ordered := marked.ordered
  rw [← marked.at_segment]
  obtain ⟨-, packages, same⟩ | ⟨dot, -, packages, begins, here, -⟩ := marked.dot
  · simp [packages, same, eq_comm]
  · exact iff_of_false (by omega) fun both => packages both.1

theorem letter (marked : Marked chars start marks i parts first) (next : chars[i]? = some c) :
    Marked chars start marks (i + 1) { parts with last := c :: parts.last } first := by
  refine ⟨marked.outer, ?_, marked.dollars, marked.dot⟩
  rw [NameParts.simple, List.reverse_cons]
  exact slice_append marked.simple (slice_next next)

theorem dollar (marked : Marked chars start marks i parts first) (inside : i < chars.length) :
    Marked chars start { marks with dollars := marks.dollars ++ [i] } (i + 1)
      ⟨parts.packages, parts.outer ++ [parts.simple], []⟩ (i + 1) := by
  obtain ⟨-, before, length, -⟩ := marked.ordered
  refine ⟨?_, slice_self inside, .inr ⟨i, List.getLast?_concat, by simp, rfl,
    Nat.lt_succ_of_le (Nat.le_trans before (Nat.le.intro length))⟩, marked.dot⟩
  rw [cutOuter, List.foldlM_append, bind_eq_ok]
  refine ⟨_, marked.outer, ?_⟩
  simp [marked.simple]

theorem newSegment (marked : Marked chars start marks i parts first) (noDollars : parts.outer = []) (begun : parts.last ≠ [])
    (next : chars[i]? = some '.') :
    Marked chars start { marks with dot := some i, segment := i + 1 } (i + 1)
      ⟨parts.packages ++ [parts.simple], [], []⟩ (i + 1) := by
  obtain ⟨after, before, length, -⟩ := marked.ordered
  have inside := (List.getElem?_eq_some_iff.mp next).1
  have some : 0 < parts.last.length := List.length_pos_iff.mpr begun
  obtain ⟨none, -, same⟩ | ⟨dollar, -, nested, -⟩ := marked.dollars
  · refine ⟨by rw [none]; rfl, slice_self inside, .inl ⟨none, rfl, rfl⟩, .inr ⟨i, rfl, by simp, by omega, rfl, next, ?_⟩⟩
    obtain ⟨-, packages, begins⟩ | ⟨dot, -, packages, -, begins, isDot, cut⟩ := marked.dot
    · rw [packages, List.nil_append, List.intercalate_singleton, ← begins, ← same]
      exact marked.simple
    · -- the package grows by the old dot and the segment behind it
      have whole := slice_append (slice_append cut (slice_next isDot)) (begins ▸ same ▸ marked.simple)
      rw [intercalate_concat, ← intercalate_mark '.' packages]
      exact whole
  · exact absurd noDollars nested

end Marked

/-- What is cut of a name is what is read of it in parts. -/
structure SameCut (cut : List Char × List (List Char)) (parts : NameParts) : Prop where
  package : cut.1 = ['.'].intercalate parts.packages
  package_eq_nil : cut.1 = [] ↔ parts.packages = []
  names : cut.2 = parts.outer ++ [parts.simple]

theorem stepBack_eq (inside : i + 1 ≤ chars.length) : stepBack chars (i + 1) = .ok i := by
  rw [stepBack, if_pos (Nat.le_add_left 1 i), Nat.add_sub_cancel, moveTo_eq (Nat.le_of_succ_le inside)]

section

variable {start fuel : Nat} {marks : Marks} {parts : NameParts}

theorem cutPackage_eq (marked : Marked chars start marks i parts first) :
    cutPackage chars start marks.dot = .ok (['.'].intercalate parts.packages) ∧
      (['.'].intercalate parts.packages = [] ↔ parts.packages = []) := by
  obtain ⟨none, packages, -⟩ | ⟨dot, isDot, packages, begins, -, -, cut⟩ := marked.dot
  · rw [none, packages]
    exact ⟨rfl, iff_of_true rfl rfl⟩
  · rw [isDot]
    refine ⟨cut, iff_of_false (fun empty => ?_) packages⟩
    have length := length_of_slice cut
    rw [empty, List.length_nil] at length
    omega

/-- Nothing of a name was found. -/
theorem emptyName_along {α : Type} {related : α → NameParts → Prop} : IsAt chars i text →
    Along chars before related
      (.error (.flawed (match chars[i]? with | none => .emptyName | some ' ' => .unexpectedSpace | some _ => .invalidName) i))
      (match text with
        | [] => TypeParser.fail .emptyName text
        | c :: _ => TypeParser.fail (if c = ' ' then .unexpectedSpace else .invalidName) text) := by
  intro isAt
  rw [isAt.next]
  cases text with
  | nil => exact .fail isAt _
  | cons c rest =>
    dsimp only [List.head?_cons]
    split
    · next none => cases none
    · next space =>
      rw [if_pos (Option.some.inj space)]
      exact .fail isAt _
    · next other same =>
      cases same
      rw [if_neg other]
      exact .fail isAt _

/-- The checks behind a name, in the order of the cursor. -/
theorem cutName_along (marked : Marked chars start marks i parts first) (isAt : IsAt chars i text) (onward : before ≤ i) :
    Along chars before SameCut (cutName chars start marks i) (TypeParser.finishName parts text) := by
  have whole := isAt.add_length
  have segment := marked.at_segment
  simp only [cutName, TypeParser.finishName.eq_def, marked.at_start, marked.at_dollar, eq_comm (b := i), segment]
  -- a name that ends with a mark is flawed where the mark is, one before the cursor
  by_cases begun : parts.last = []
  · by_cases outer : parts.outer = []
    · by_cases packages : parts.packages = []
      · simp only [begun, outer, packages, and_self, if_true, List.isEmpty_nil, Bool.not_true, Bool.false_eq_true, if_false]
        exact emptyName_along isAt
      · obtain ⟨dot, rfl⟩ : ∃ dot, i = dot + 1 := by
          obtain ⟨-, none, -⟩ | ⟨dot, -, -, -, here, -⟩ := marked.dot
          · exact absurd none packages
          · exact ⟨dot, (segment.mpr ⟨outer, begun⟩).trans here⟩
        simp only [begun, outer, packages, and_self, and_true, if_true, if_false, List.isEmpty_nil, Bool.not_true,
          Bool.false_eq_true, List.isEmpty_eq_false_iff.mpr packages, Bool.not_false, stepBack_eq isAt.inside, ok_bind]
        exact .flawed (by omega)
    · obtain ⟨dollar, rfl⟩ : ∃ dollar, i = dollar + 1 := by
        obtain ⟨-, none, -⟩ | ⟨dollar, -, -, same, -⟩ := marked.dollars
        · exact absurd none outer
        · exact ⟨dollar, (marked.last_eq_nil.mp begun).symm.trans same⟩
      simp only [begun, outer, and_self, and_true, and_false, ne_eq, not_false_eq_true, if_true, if_false, List.isEmpty_nil,
        Bool.not_true, Bool.false_eq_true, List.isEmpty_eq_false_iff.mpr outer, Bool.not_false, stepBack_eq isAt.inside,
        ok_bind]
      exact .flawed (by omega)
  · simp only [begun, and_false, if_false, List.isEmpty_eq_false_iff.mpr begun, Bool.not_false, if_true,
      (cutPackage_eq marked).1, marked.outer, marked.simple, ok_bind]
    exact .ok ⟨rfl, (cutPackage_eq marked).2, rfl⟩ isAt onward

/-- Passing a name and cutting it up, and reading on behind its parts. -/
theorem passName_along (marked : Marked chars start marks i parts first) (isAt : IsAt chars i text) (onward : before ≤ i)
    (enough : text.length < fuel) :
    Along chars before SameCut (passName chars fuel marks i >>= fun passed => cutName chars start passed.1 passed.2)
      (TypeParser.scanName parts text) := by
  induction fuel generalizing marks i parts first text with
  | zero => exact absurd enough (Nat.not_lt_zero _)
  | succ fuel ih =>
    rw [passName, isAt.next]
    cases text with
    | nil =>
      rw [TypeParser.scanName]
      exact cutName_along marked isAt onward
    | cons c rest =>
      have next : chars[i]? = some c := isAt.next
      have later : before ≤ i + 1 := Nat.le_succ_of_le onward
      rw [List.length_cons, Nat.add_lt_add_iff_right] at enough
      simp only [List.head?_cons, TypeParser.scanName, moveTo_eq isAt.step.inside, ok_bind, marked.at_segment, marked.at_dollar,
        List.isEmpty_iff, Bool.not_eq_true', List.isEmpty_eq_false_iff, ne_eq, marked.dollars_eq_nil]
      by_cases isDot : c = '.'
      · subst isDot
        rw [if_pos rfl, if_pos rfl]
        by_cases outer : parts.outer = []
        · by_cases begun : parts.last = []
          · simp only [outer, begun, and_self, if_true, not_true_eq_false, if_false]
            exact .fail isAt _
          · simp only [outer, begun, and_false, if_false, not_true_eq_false]
            exact ih (marked.newSegment outer begun next) isAt.step later enough
        · simp only [outer, false_and, if_false, not_false_eq_true, if_true]
          exact .fail isAt _
      · rw [if_neg isDot, if_neg isDot]
        by_cases isDollar : c = '$'
        · subst isDollar
          rw [if_pos rfl, if_pos rfl]
          by_cases begun : parts.last = []
          · by_cases outer : parts.outer = []
            · simp only [outer, begun, and_self, if_true, not_true_eq_false, if_false, and_true]
              exact .fail isAt _
            · simp only [outer, begun, and_self, if_true, not_true_eq_false, if_false, and_true, not_false_eq_true]
              exact .fail isAt _
          · simp only [begun, and_false, if_false, not_false_eq_true, if_true]
            exact ih (marked.dollar isAt.step.inside) isAt.step later enough
        · rw [if_neg isDollar, if_neg isDollar]
          by_cases letter : isNameChar c = true
          · rw [if_pos letter, if_pos letter]
            exact ih (marked.letter next) isAt.step later enough
          · rw [if_neg letter, if_neg letter]
            exact cutName_along marked isAt onward

end

/-- The same name, with its start told as a position or as what is left there. -/
inductive SameName (chars : List Char) : Found → Named → Prop
  | classType (name : ClassName) : SameName chars (.classType name) (.classType name)
  | primitive (kind : Primitive) {start left : Nat} (place : start + left = chars.length) :
    SameName chars (.primitive kind start) (.primitive kind left)

theorem identify_along {start : Nat} {cut : List Char × List (List Char)} {parts : NameParts} {begun : List Char}
    (same : SameCut cut parts) (isStart : IsAt chars start begun) (isAt : IsAt chars i text) (onward : before ≤ i) :
    Along chars before (SameName chars) (identify chars start i cut)
      (if parts.packages.isEmpty ∧ parts.outer.isEmpty then
        let word := String.ofList parts.simple
        if word = "void" then TypeParser.fail .voidType begun
        else match Primitive.ofKeyword? word with
          | some kind => return (.primitive kind begun.length, text)
          | none => return (.classType parts.className, text)
      else return (.classType parts.className, text)) := by
  obtain ⟨package, names⟩ := cut
  obtain ⟨package_eq, package_nil, names_eq⟩ := same
  dsimp only at package_eq package_nil names_eq
  have className : parts.className = ⟨String.ofList package, names.map String.ofList⟩ := by
    rw [package_eq, names_eq]
    rfl
  simp only [List.isEmpty_iff, ← package_nil, className]
  by_cases alone : package = [] ∧ parts.outer = []
  · obtain ⟨rfl, outer⟩ := alone
    rw [if_pos ⟨rfl, outer⟩]
    obtain rfl : names = [parts.simple] := by rw [names_eq, outer, List.nil_append]
    rw [identify]
    by_cases void : String.ofList parts.simple = "void"
    · rw [if_pos void, if_pos void, moveTo_eq isStart.inside]
      exact .fail isStart _
    · rw [if_neg void, if_neg void]
      cases Primitive.ofKeyword? (String.ofList parts.simple) with
      | some kind => exact .ok (.primitive kind isStart.add_length) isAt onward
      | none => exact .ok (.classType _) isAt onward
  · rw [if_neg alone, identify]
    · exact .ok (.classType _) isAt onward
    · rintro name rfl rfl
      exact alone ⟨rfl, by simpa using congrArg List.length names_eq⟩

theorem readName_along (isAt : IsAt chars i text) (onward : before ≤ i) :
    Along chars before (SameName chars) (readName chars i) (TypeParser.readName text) := by
  have split : readName chars i = (passName chars (chars.length + 1) ⟨i, none, []⟩ i >>= fun passed =>
      cutName chars i passed.1 passed.2) >>= fun cut => identify chars i cut.2 cut.1 := by
    rw [bind_assoc]
    rfl
  rw [split, TypeParser.readName]
  exact (passName_along (.nothing isAt.inside) isAt onward isAt.length_lt).bind fun _ _ _ _ same later onward =>
    identify_along same isAt later onward

end TypedTree.Java.TypeCursor
