import Mathlib
import TypedTree.Naming.Names
import TypedTree.Naming.Token

/-! Default names of tokens. They are words in upper case whatever the tokens are, and such words can always be
declared. There are digits only in the names that are made from the numbers of tokens. -/

namespace TypedTree.Naming

def isShoutedPart (c : Char) : Bool := c.isUpper || c.isDigit || c = '_'

/-- A word in upper case, which does not begin with a digit. -/
def isShouted (text : List Char) : Bool :=
  text.all isShoutedPart && text.any Char.isUpper && text.head?.all (!·.isDigit)

variable {text rest : List Char} {c : Char} {name : String}

theorem isShouted_iff : isShouted text = true ↔
    (∀ c ∈ text, isShoutedPart c = true) ∧ (∃ c ∈ text, c.isUpper = true) ∧
      ∀ c, text.head? = some c → c.isDigit = false := by
  cases text <;> simp [isShouted, and_assoc]

theorem isShouted_append (shouted : isShouted text = true) (parts : ∀ c ∈ rest, isShoutedPart c = true) :
    isShouted (text ++ rest) = true := by
  obtain ⟨front, ⟨upper, inside, loud⟩, first⟩ := isShouted_iff.mp shouted
  apply isShouted_iff.mpr
  refine ⟨List.forall_mem_append.mpr ⟨front, parts⟩, ⟨upper, List.mem_append_left _ inside, loud⟩, ?_⟩
  cases text with
  | nil => cases inside
  | cons c text => exact first

theorem isUpper_iff : c.isUpper = true ↔ 65 ≤ c.toNat ∧ c.toNat ≤ 90 := by
  simp only [Char.isUpper, decide_eq_true_eq, ge_iff_le, UInt32.le_iff_toNat_le]
  rfl

theorem isDigit_iff : c.isDigit = true ↔ 48 ≤ c.toNat ∧ c.toNat ≤ 57 := Char.isDigit_iff_toNat

theorem isDigit_of_isUpper (upper : c.isUpper = true) : c.isDigit = false := by
  rw [isUpper_iff] at upper
  rw [Bool.eq_false_iff, ne_eq, isDigit_iff]
  omega

theorem isLetter_of_isUpper (upper : c.isUpper = true) : Text.isLetter c = true := by
  have ascii : c.toNat < 128 := by
    rw [isUpper_iff] at upper
    omega
  simp [Text.isLetter, ascii, Char.isAlpha, upper]

theorem isNumber_of_isDigit (digit : c.isDigit = true) : Text.isNumber c = true := by
  have ascii : c.toNat < 128 := by
    rw [isDigit_iff] at digit
    omega
  simp [Text.isNumber, ascii, digit]

theorem isIdentifierPart_of_isShoutedPart (part : isShoutedPart c = true) : Java.isIdentifierPart c = true := by
  simp only [isShoutedPart, Bool.or_eq_true] at part
  rcases part with (upper | digit) | underscore
  · simp [Java.isIdentifierPart, isLetter_of_isUpper upper]
  · simp [Java.isIdentifierPart, isNumber_of_isDigit digit]
  · simp [Java.isIdentifierPart, underscore]

theorem isIdentifierStart_of_isShoutedPart (part : isShoutedPart c = true) (first : c.isDigit = false) :
    Java.isIdentifierStart c = true := by
  simp only [isShoutedPart, first, Bool.or_false, Bool.or_eq_true] at part
  rcases part with upper | underscore
  · simp [Java.isIdentifierStart, isLetter_of_isUpper upper]
  · simp [Java.isIdentifierStart, underscore]

theorem isIdentifier_of_isShouted (shouted : isShouted text = true) : Java.isIdentifier text = true := by
  obtain ⟨parts, ⟨upper, inside, _⟩, first⟩ := isShouted_iff.mp shouted
  cases text with
  | nil => cases inside
  | cons c text =>
    obtain ⟨here, parts⟩ := List.forall_mem_cons.mp parts
    have start := isIdentifierStart_of_isShoutedPart here (first c rfl)
    simpa [Java.isIdentifier, start] using fun c member => isIdentifierPart_of_isShoutedPart (parts c member)

/-- No reserved word has a letter in upper case. -/
theorem typeNameFlaw?_of_isUpper (valid : Java.isIdentifier name.toList = true) (inside : c ∈ name.toList)
    (upper : c.isUpper = true) : Java.typeNameFlaw? name = none := by
  have free : name ∉ Java.keywords ++ Java.restrictedTypeNames := by
    intro reserved
    have quiet : (Java.keywords ++ Java.restrictedTypeNames).all (fun word => word.toList.all fun c => !c.isUpper) = true := by
      decide +kernel
    simp only [List.all_eq_true, Bool.not_eq_true'] at quiet
    have soft := quiet name reserved c inside
    rw [upper] at soft
    cases soft
  obtain ⟨notKeyword, notRestricted⟩ : name ∉ Java.keywords ∧ name ∉ Java.restrictedTypeNames := by
    simpa only [List.mem_append, not_or] using free
  have present : name ≠ "" := by
    intro empty
    rw [empty] at inside
    cases inside
  simp [Java.typeNameFlaw?, Java.memberNameFlaw?, valid, notKeyword, notRestricted, present]

theorem memberNameFlaw?_of_type (usable : Java.typeNameFlaw? name = none) : Java.memberNameFlaw? name = none := by
  rw [Java.typeNameFlaw?] at usable
  split at usable
  next => cases usable
  next free => exact free

theorem typeNameFlaw?_of_isShouted (shouted : isShouted name.toList = true) : Java.typeNameFlaw? name = none := by
  obtain ⟨_, ⟨upper, inside, loud⟩, _⟩ := isShouted_iff.mp shouted
  exact typeNameFlaw?_of_isUpper (isIdentifier_of_isShouted shouted) inside loud

theorem memberName_of_isShouted (shouted : isShouted name.toList = true) : Names.memberName name = .ok name := by
  rw [Names.memberName, memberNameFlaw?_of_type (typeNameFlaw?_of_isShouted shouted)]

/-- A word in upper case without digits. -/
def isLoud (text : List Char) : Bool := text.all (fun c => c.isUpper || c = '_') && text.any Char.isUpper

theorem isLoud_iff : isLoud text = true ↔ (∀ c ∈ text, c.isUpper = true ∨ c = '_') ∧ ∃ c ∈ text, c.isUpper = true := by
  simp [isLoud]

theorem not_isDigit_of_isLoud (loud : isLoud text = true) (inside : c ∈ text) : c.isDigit = false := by
  rcases (isLoud_iff.mp loud).1 c inside with upper | rfl
  · exact isDigit_of_isUpper upper
  · rfl

theorem isShouted_of_isLoud (loud : isLoud text = true) : isShouted text = true := by
  obtain ⟨parts, upper⟩ := isLoud_iff.mp loud
  refine isShouted_iff.mpr ⟨fun c inside => ?_, upper, fun c first => ?_⟩
  · rcases parts c inside with upper | underscore
    · simp [isShoutedPart, upper]
    · simp [isShoutedPart, underscore]
  · exact not_isDigit_of_isLoud loud (List.mem_of_mem_head? first)

theorem isLoud_concat (loud : isLoud name.toList = true) (upper : c.isUpper = true) :
    isLoud (name ++ String.ofList [c]).toList = true := by
  obtain ⟨parts, _⟩ := isLoud_iff.mp loud
  have letter : (String.ofList [c]).toList = [c] := String.toList_ofList
  rw [String.toList_append, letter]
  refine isLoud_iff.mpr ⟨?_, c, List.mem_append_right _ (List.mem_singleton_self c), upper⟩
  exact List.forall_mem_append.mpr ⟨parts, List.forall_mem_singleton.mpr (Or.inl upper)⟩

theorem isLoud_symbolName (found : symbolName? c = some name) : isLoud name.toList = true := by
  unfold symbolName? at found
  split at found
  all_goals cases found
  all_goals decide +kernel

theorem isLoud_characterName (found : characterName? c = some name) : isLoud name.toList = true := by
  rw [characterName?] at found
  split at found
  next digit =>
    obtain ⟨word, known, rfl⟩ := Option.map_eq_some_iff.mp found
    have digits : digitNames.all (fun word => isLoud ("DIGIT_" ++ word).toList) = true := by decide +kernel
    exact List.all_eq_true.mp digits word (List.mem_of_getElem? known)
  next =>
    split at found
    next upper =>
      cases found
      exact isLoud_concat (by decide +kernel) upper
    next =>
      split at found
      next lower =>
        cases found
        exact isLoud_concat (by decide +kernel) (by simp [Char.isAlpha, lower])
      next => exact isLoud_symbolName found

/-- Letters and blanks become letters in upper case and underscores. -/
theorem isLoud_words {token : List Char} (wordy : isWordy token = true) :
    isLoud (token.map fun c => if Text.isBlank c then '_' else c.toUpper) = true := by
  simp only [isWordy, Bool.and_eq_true, List.all_eq_true, Bool.or_eq_true, Bool.not_eq_true', List.all_eq_false] at wordy
  obtain ⟨parts, c, member, visible⟩ := wordy
  have letter : ∀ c ∈ token, ¬ Text.isBlank c = true → c.toUpper.isUpper = true := by
    intro c member visible
    simpa [visible] using parts c member
  refine isLoud_iff.mpr ⟨?_, c.toUpper, List.mem_map.mpr ⟨c, member, if_neg visible⟩, letter c member visible⟩
  intro last mapped
  obtain ⟨c, member, rfl⟩ := List.mem_map.mp mapped
  split
  next => exact Or.inr rfl
  next visible => exact Or.inl (letter c member visible)

/-- A token whose default name is made from its number. -/
def Numbered (token : String) : Prop := ∀ index, defaultTokenName token index = s!"TOKEN_{index}"

/-- The default name of any other token is a word, whatever its number is. -/
theorem numbered_or_loud (token : String) :
    Numbered token ∨ ∃ name, isLoud name.toList = true ∧ ∀ index, defaultTokenName token index = name := by
  have words (chars : List Char) : (∀ index, wordsName chars index = s!"TOKEN_{index}") ∨
      ∃ name, isLoud name.toList = true ∧ ∀ index, wordsName chars index = name := by
    by_cases wordy : isWordy chars = true
    · refine Or.inr ⟨_, ?_, fun index => if_pos wordy⟩
      rw [String.toList_ofList]
      exact isLoud_words wordy
    · exact Or.inl fun index => if_neg wordy
  rw [Numbered]
  simp only [defaultTokenName]
  split
  next c single =>
    cases found : characterName? c with
    | some name => exact Or.inr ⟨name, isLoud_characterName found, fun _ => rfl⟩
    | none => exact words [c]
  next => exact words _

theorem toList_number (index : Nat) : (s!"TOKEN_{index}").toList = "TOKEN_".toList ++ Nat.toDigits 10 index := by
  change ("TOKEN_" ++ Nat.repr index).toList = _
  rw [String.toList_append, Nat.repr]
  simp only [String.toList_ofList]

theorem isShouted_number (index : Nat) : isShouted (s!"TOKEN_{index}").toList = true := by
  rw [toList_number]
  apply isShouted_append (by decide +kernel)
  intro c digit
  simp [isShoutedPart, Nat.isDigit_of_mem_toDigits (by decide) (by decide) digit]

theorem number_injective {index other : Nat} (same : s!"TOKEN_{index}" = s!"TOKEN_{other}") : index = other := by
  have digits : Nat.repr index = Nat.repr other := by
    have lists := congrArg String.toList same
    rw [toList_number, toList_number] at lists
    rw [Nat.repr, Nat.repr, List.append_cancel_left lists]
  exact Nat.repr_inj.mp digits

/-- No word is a number. -/
theorem number_ne_of_isLoud (loud : isLoud name.toList = true) (index : Nat) : s!"TOKEN_{index}" ≠ name := by
  rintro rfl
  rw [toList_number] at loud
  obtain ⟨digit, inside⟩ := List.exists_mem_of_ne_nil _ (Nat.toDigits_ne_nil : Nat.toDigits 10 index ≠ [])
  have quiet := not_isDigit_of_isLoud loud (List.mem_append_right _ inside)
  rw [Nat.isDigit_of_mem_toDigits (by decide) (by decide) inside] at quiet
  cases quiet

theorem isShouted_defaultTokenName (token : String) (index : Nat) :
    isShouted (defaultTokenName token index).toList = true := by
  rcases numbered_or_loud token with numbered | ⟨name, loud, named⟩
  · rw [numbered]
    exact isShouted_number index
  · rw [named]
    exact isShouted_of_isLoud loud

/-- Every token can be declared by its default name. -/
theorem memberName_defaultTokenName (token : String) (index : Nat) :
    Names.memberName (defaultTokenName token index) = .ok (defaultTokenName token index) :=
  memberName_of_isShouted (isShouted_defaultTokenName token index)

/-- The first number tells whether there are others. -/
theorem numbered_iff {token : String} : Numbered token ↔ defaultTokenName token 0 = "TOKEN_0" := by
  refine ⟨fun numbered => numbered 0, fun first => ?_⟩
  rcases numbered_or_loud token with numbered | ⟨name, loud, named⟩
  · exact numbered
  · exact absurd (first.symm.trans (named 0)) (number_ne_of_isLoud loud 0)

instance (token : String) : Decidable (Numbered token) := decidable_of_iff' _ numbered_iff

/-- Two tokens can get one name only by one number, or whatever their numbers are. -/
theorem defaultTokenName_eq_iff {token other : String} {index position : Nat} :
    defaultTokenName token index = defaultTokenName other position ↔
      (Numbered token ∧ Numbered other ∧ index = position) ∨
      (¬ Numbered token ∧ ¬ Numbered other ∧ defaultTokenName token 0 = defaultTokenName other 0) := by
  have unnumbered {token name : String} (loud : isLoud name.toList = true)
      (named : ∀ index, defaultTokenName token index = name) : ¬ Numbered token := fun numbered =>
    number_ne_of_isLoud loud 0 ((numbered 0).symm.trans (named 0))
  rcases numbered_or_loud token with numbered | ⟨name, loud, named⟩
  · rcases numbered_or_loud other with otherNumbered | ⟨otherName, otherLoud, otherNamed⟩
    · simp only [numbered, otherNumbered, not_true_eq_false, false_and, or_false, true_and, numbered index,
        otherNumbered position]
      exact ⟨number_injective, fun same => by rw [same]⟩
    · rw [numbered, otherNamed]
      refine iff_of_false (number_ne_of_isLoud otherLoud index) ?_
      simp [numbered, unnumbered otherLoud otherNamed]
  · rcases numbered_or_loud other with otherNumbered | ⟨otherName, otherLoud, otherNamed⟩
    · rw [named, otherNumbered]
      refine iff_of_false (fun same => number_ne_of_isLoud loud position same.symm) ?_
      simp [otherNumbered, unnumbered loud named]
    · simp [unnumbered loud named, unnumbered otherLoud otherNamed, named, otherNamed]

end TypedTree.Naming
