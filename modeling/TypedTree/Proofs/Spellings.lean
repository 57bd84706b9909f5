import Mathlib
import TypedTree.Naming.WordCase

/-! What the spellings of a name keep of it. They add nothing but underscores. A constant has everything in it that the name
has, in order, except for underscores and hyphens, and a constant in ASCII is spelled as it is. -/

namespace TypedTree.Naming

variable {text : List Char} {c big : Char}

section

variable {kept : Char → Prop} (upper : ∀ c, kept c → ∀ big ∈ Text.upper c, kept big)

include upper

theorem forall_mem_upperFirst (all : ∀ c ∈ text, kept c) : ∀ c ∈ upperFirst text, kept c := by
  cases text with
  | nil => exact List.forall_mem_nil _
  | cons first rest =>
    obtain ⟨first, rest⟩ := List.forall_mem_cons.mp all
    exact List.forall_mem_append.mpr ⟨upper _ first, rest⟩

theorem forall_mem_camelCase (all : ∀ c ∈ text, kept c) : ∀ c ∈ camelCase text, kept c := by
  fun_induction camelCase text with
  | case1 => exact List.forall_mem_nil _
  | case2 => exact List.forall_mem_nil _
  | case3 next rest ih =>
    obtain ⟨_, next, rest⟩ := by simpa only [List.forall_mem_cons] using all
    exact List.forall_mem_append.mpr ⟨upper _ next, ih rest⟩
  | case4 c rest _ _ ih =>
    obtain ⟨first, rest⟩ := List.forall_mem_cons.mp all
    exact List.forall_mem_cons.mpr ⟨first, ih rest⟩

theorem forall_mem_typeCase (all : ∀ c ∈ text, kept c) : ∀ c ∈ typeCase text, kept c := by
  refine forall_mem_upperFirst upper (forall_mem_camelCase upper ?_)
  split
  next => exact (List.forall_mem_cons.mp all).2
  next => exact all

end

theorem forall_mem_splitWords {kept : Char → Prop} (underscore : kept '_') {afterLower : Bool} (all : ∀ c ∈ text, kept c) :
    ∀ c ∈ splitWords afterLower text, kept c := by
  fun_induction splitWords afterLower text with
  | case1 => exact List.forall_mem_nil _
  | case2 => exact List.forall_mem_singleton.mpr underscore
  | case3 _ c _ _ next rest ih =>
    obtain ⟨_, next, rest⟩ := by simpa only [List.forall_mem_cons] using all
    exact List.forall_mem_cons.mpr ⟨underscore, List.forall_mem_cons.mpr ⟨next, ih rest⟩⟩
  | case4 _ c rest _ _ ih =>
    obtain ⟨first, rest⟩ := List.forall_mem_cons.mp all
    exact List.forall_mem_cons.mpr ⟨underscore, List.forall_mem_cons.mpr ⟨first, ih rest⟩⟩
  | case5 _ c rest _ ih =>
    obtain ⟨first, rest⟩ := List.forall_mem_cons.mp all
    exact List.forall_mem_cons.mpr ⟨first, ih rest⟩

theorem forall_mem_constantCase {kept : Char → Prop} (upper : ∀ c, kept c → ∀ big ∈ Text.upper c, kept big)
    (underscore : kept '_') (all : ∀ c ∈ text, kept c) : ∀ c ∈ constantCase text, kept c := by
  intro big member
  obtain ⟨c, inside, becomes⟩ := List.mem_flatMap.mp member
  exact upper c (forall_mem_splitWords underscore all c inside) big becomes

/-- Parts the words of a name. -/
def isSeparator (c : Char) : Bool := c = '_' || c = '-'

theorem isSeparator_iff : isSeparator c = true ↔ c = '_' ∨ c = '-' := by simp [isSeparator]

/-- The words of a name, put together without what parts them. -/
def joinWords (text : List Char) : List Char := text.filter fun c => !isSeparator c

theorem joinWords_append (text rest : List Char) : joinWords (text ++ rest) = joinWords text ++ joinWords rest :=
  List.filter_append text rest

theorem joinWords_cons (c : Char) (text : List Char) : joinWords (c :: text) = joinWords [c] ++ joinWords text :=
  joinWords_append [c] text

theorem joinWords_separator (separator : isSeparator c = true) : joinWords (c :: text) = joinWords text :=
  List.filter_cons_of_neg (by simp [separator])

/-- Words are split by separators alone, and they replace nothing but separators. -/
theorem joinWords_splitWords (afterLower : Bool) (text : List Char) :
    joinWords (splitWords afterLower text) = joinWords text := by
  have underscore : isSeparator '_' = true := rfl
  fun_induction splitWords afterLower text with
  | case1 => rfl
  | case2 _ c _ separator => rw [joinWords_separator underscore, joinWords_separator separator]
  | case3 _ c _ separator next rest ih =>
    -- The next character is copied whatever it is, so it may be one more separator.
    rw [joinWords_separator underscore, joinWords_separator separator, joinWords_cons, ih, ← joinWords_cons]
  | case4 _ c rest _ _ ih => rw [joinWords_separator underscore, joinWords_cons, ih, ← joinWords_cons]
  | case5 _ c rest _ ih => rw [joinWords_cons, ih, ← joinWords_cons]

/-- Only a separator becomes a separator. -/
theorem eq_of_mem_upper (separator : isSeparator big = true) (member : big ∈ Text.upper c) : c = big := by
  have mark := isSeparator_iff.mp separator
  by_cases ascii : c.toNat < 128
  · rw [Text.upper_of_ascii ascii, List.mem_singleton] at member
    have loud := Char.isUpper_toUpper_eq_isAlpha c
    rw [← member] at loud
    have small : ¬ c.isLower = true := by
      intro small
      rw [Char.isAlpha, small, Bool.or_true] at loud
      rcases mark with rfl | rfl
      all_goals cases loud
    rw [member, Char.toUpper_eq_of_not_isLower small]
  · exact absurd member (Text.not_mem_upper ascii mark)

theorem joinWords_upper (c : Char) : joinWords (Text.upper c) = Text.upperCase (joinWords [c]) := by
  by_cases separator : isSeparator c = true
  · rcases isSeparator_iff.mp separator with rfl | rfl
    all_goals rfl
  · have kept : joinWords [c] = [c] := List.filter_cons_of_pos (by simp [separator])
    rw [kept, Text.upperCase, List.flatMap_singleton]
    refine List.filter_eq_self.mpr fun big member => ?_
    simp only [Bool.not_eq_true']
    refine Bool.eq_false_iff.mpr fun becomes => separator ?_
    rwa [eq_of_mem_upper becomes member]

theorem joinWords_upperCase (text : List Char) : joinWords (Text.upperCase text) = Text.upperCase (joinWords text) := by
  induction text with
  | nil => rfl
  | cons c rest ih =>
    calc joinWords (Text.upperCase (c :: rest))
      _ = joinWords (Text.upper c) ++ joinWords (Text.upperCase rest) := joinWords_append _ _
      _ = Text.upperCase (joinWords [c]) ++ Text.upperCase (joinWords rest) := by rw [joinWords_upper, ih]
      _ = Text.upperCase (joinWords (c :: rest)) := by rw [← Text.upperCase_append, ← joinWords_cons]

theorem joinWords_constantCase (text : List Char) :
    joinWords (constantCase text) = Text.upperCase (joinWords text) := by
  rw [constantCase, joinWords_upperCase, joinWords_splitWords]

/-- A character that is spelled as it is wherever it stands in a constant. -/
structure IsSettled (c : Char) : Prop where
  upper : Text.upper c = [c]
  loud : Text.isLowerCase c = false

theorem splitWords_of_settled (settled : ∀ c ∈ text, IsSettled c) : splitWords false text = text := by
  induction text with
  | nil => rfl
  | cons c rest ih =>
    obtain ⟨here, settled⟩ := List.forall_mem_cons.mp settled
    rw [splitWords.eq_def]
    simp only [Bool.false_and, Bool.false_eq_true, if_false, here.loud, ih settled]

theorem constantCase_of_settled (settled : ∀ c ∈ text, IsSettled c) : constantCase text = text := by
  calc constantCase text
    _ = text.flatMap Text.upper := by rw [constantCase, splitWords_of_settled settled, Text.upperCase]
    _ = text.flatMap ([·]) := List.flatMap_congr fun c member => (settled c member).upper
    _ = text := List.flatMap_singleton' text

theorem ascii_toUpper (ascii : c.toNat < 128) : c.toUpper.toNat < 128 := by
  by_cases small : c.isLower = true
  · rw [Char.toUpper_eq_of_isLower small, Char.toNat_ofNat]
    split
    all_goals omega
  · rwa [Char.toUpper_eq_of_not_isLower small]

theorem settled_toUpper (ascii : c.toNat < 128) : IsSettled c.toUpper where
  upper := by rw [Text.upper_of_ascii (ascii_toUpper ascii), Char.toUpper_toUpper_eq_toUpper]
  loud := by rw [Text.isLowerCase, if_pos (ascii_toUpper ascii), Char.isLower_toUpper_eq_false]

theorem settled_constantCase (ascii : ∀ c ∈ text, c.toNat < 128) : ∀ c ∈ constantCase text, IsSettled c := by
  intro big member
  obtain ⟨c, inside, becomes⟩ := List.mem_flatMap.mp member
  have below := forall_mem_splitWords (by decide) ascii c inside
  rw [Text.upper_of_ascii below, List.mem_singleton] at becomes
  rw [becomes]
  exact settled_toUpper below

/-- Underscores and hyphens aside, a constant is the upper case of its name, character by character. The constant of a name in
ASCII has no small letters and is its own constant. -/
theorem constantCase_keepsLetters (name : String) :
    spell joinWords (spell constantCase name) = spell Text.upperCase (spell joinWords name) ∧
      ((∀ c ∈ name.toList, c.toNat < 128) →
        (∀ c ∈ (spell constantCase name).toList, Text.isLowerCase c = false) ∧
          spell constantCase (spell constantCase name) = spell constantCase name) := by
  simp only [spell, String.toList_ofList]
  refine ⟨by rw [joinWords_constantCase], fun ascii => ?_⟩
  have settled := settled_constantCase ascii
  exact ⟨fun c member => (settled c member).loud, by rw [constantCase_of_settled settled]⟩

/-- Separators at both ends, next to each other and next to capital letters. -/
theorem constantCase_keepsLetters_mixture :
    (∀ c ∈ "-aB--c_dE-_f-".toList, c.toNat < 128) ∧ spell constantCase "-aB--c_dE-_f-" = "-A_B--C_DE-_F_" ∧
      spell joinWords "-A_B--C_DE-_F_" = spell Text.upperCase (spell joinWords "-aB--c_dE-_f-") ∧
      (∀ c ∈ "-A_B--C_DE-_F_".toList, Text.isLowerCase c = false) ∧
      spell constantCase "-A_B--C_DE-_F_" = "-A_B--C_DE-_F_" := by
  have codes : ("-aB--c_dE-_f-".toList.all fun c => c.toNat < 128) = true := by decide +kernel
  have ascii : ∀ c ∈ "-aB--c_dE-_f-".toList, c.toNat < 128 := by
    simpa only [List.all_eq_true, decide_eq_true_eq] using codes
  have spelled : spell constantCase "-aB--c_dE-_f-" = "-A_B--C_DE-_F_" := by decide +kernel
  obtain ⟨letters, settled⟩ := constantCase_keepsLetters "-aB--c_dE-_f-"
  rw [spelled] at letters settled
  exact ⟨ascii, spelled, letters, settled ascii⟩

end TypedTree.Naming
