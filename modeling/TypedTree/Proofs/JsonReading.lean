import Mathlib.Tactic.SplitIfs
import TypedTree.Json.Printer
import TypedTree.Json.Reader

/-! Written data is read back. The text of a value is found at the start of any longer text, whatever follows it. -/

namespace TypedTree.Json

namespace Document

mutual

/-- A value is found in a document without any fault. -/
inductive Shows : Document → Json → Prop
  | null : Shows .null .null
  | bool (value : Bool) : Shows (.bool value) (.bool value)
  | number (value : Number) : Shows (.number value) (.number value)
  | string (text : String) : Shows (.string text) (.string text)
  | array {found : List Document} {items : List Json} {ending : ArrayEnd} (sound : ending.breach? = none)
      (each : ShowsItems found items) : Shows (.array found ending) (.array items)
  | object {found : List (Except Fault String × Document)} {entries : List (String × Json)}
      (each : ShowsEntries found entries) : Shows (.object found .closed) (.object entries)

inductive ShowsItems : List Document → List Json → Prop
  | nil : ShowsItems [] []
  | cons {document : Document} {item : Json} {found : List Document} {items : List Json} (first : Shows document item)
      (rest : ShowsItems found items) : ShowsItems (document :: found) (item :: items)

inductive ShowsEntries : List (Except Fault String × Document) → List (String × Json) → Prop
  | nil : ShowsEntries [] []
  | cons {key : String} {document : Document} {value : Json} {found : List (Except Fault String × Document)}
      {entries : List (String × Json)} (first : Shows document value) (rest : ShowsEntries found entries) :
      ShowsEntries ((.ok key, document) :: found) ((key, value) :: entries)

end

mutual

theorem shows_ofJson : (value : Json) → (ofJson value).Shows value
  | .null => .null
  | .bool value => .bool value
  | .number value => .number value
  | .string text => .string text
  | .array items => .array rfl (showsItems_ofItems items)
  | .object entries => .object (showsEntries_ofEntries entries)

theorem showsItems_ofItems : (items : List Json) → ShowsItems (ofItems items) items
  | [] => .nil
  | item :: items => .cons (shows_ofJson item) (showsItems_ofItems items)

theorem showsEntries_ofEntries : (entries : List (String × Json)) → ShowsEntries (ofEntries entries) entries
  | [] => .nil
  | (_, value) :: entries => .cons (shows_ofJson value) (showsEntries_ofEntries entries)

end

end Document

variable {rest : List Char} {value : Json} {items : List Json} {entries : List (String × Json)}

theorem codeUnit?_control : ∀ code < 32, codeUnit? ['0', '0', hexDigit (code / 16), hexDigit code] = some code := by
  decide

theorem scanString_escapeChar (c : Char) (read rest : List Char) :
    scanString ⟨.ok read, none⟩ (escapeChar c ++ rest) = scanString ⟨.ok (c :: read), none⟩ rest := by
  have escaped (letter : Char) (single : letter ≠ 'u') (meant : plainEscape? letter = some c) :
      scanString ⟨.ok read, none⟩ ('\\' :: letter :: rest) = scanString ⟨.ok (c :: read), none⟩ rest := by
    rw [scanString.eq_def]
    simp only [if_neg single, meant]
    rfl
  rw [escapeChar]
  split_ifs with quote backslash _ _ _ _ _ control
  all_goals try (subst c; exact escaped _ (by decide) rfl)
  · change scanString ⟨.ok read, none⟩
      ('\\' :: 'u' :: '0' :: '0' :: hexDigit (c.toNat / 16) :: hexDigit c.toNat :: rest) = _
    rw [scanString.eq_def]
    simp only [if_pos, codeUnit?_control _ control, PartialString.pushUnit]
    -- No half of a surrogate pair is that small.
    rw [if_neg (by decide), if_neg (by omega), if_neg (by omega), Char.ofNat_toNat]
    rfl
  · change scanString ⟨.ok read, none⟩ (c :: rest) = _
    rw [scanString.eq_def]
    simp only [if_neg quote, if_neg backslash, if_neg control]
    rfl

/-- A string is read up to its closing quote, whatever characters it has. -/
theorem readString_escaped (text : String) (rest : List Char) :
    readString (text.toList.flatMap escapeChar ++ '"' :: rest) = .closed (.ok text) rest := by
  have general : ∀ chars read : List Char, scanString ⟨.ok read, none⟩ (chars.flatMap escapeChar ++ '"' :: rest) =
      .closed (.ok (String.ofList (read.reverse ++ chars))) rest := by
    intro chars
    induction chars with
    | nil =>
      intro read
      rw [List.flatMap_nil, List.nil_append, List.append_nil, scanString.eq_def]
      rfl
    | cons c chars ih =>
      intro read
      rw [List.flatMap_cons, List.append_assoc, scanString_escapeChar, ih, List.reverse_cons, List.append_assoc]
      rfl
  rw [readString, general, List.reverse_nil, List.nil_append, String.ofList_toList]

theorem skipBlanks_cons {c : Char} (visible : isBlank c = false) (rest : List Char) : skipBlanks (c :: rest) = c :: rest :=
  List.dropWhile_cons_of_neg (by simp [visible])

/-- The text of a value can be read, with three steps to a character at the most. -/
structure Legible (value : Json) : Prop where
  opens : ∃ c text, write value = c :: text ∧ isBlank c = false ∧ c ≠ ']'
  reads : ∀ fuel rest, 3 * (write value).length ≤ fuel →
    ∃ document, Document.readValue fuel (write value ++ rest) = ⟨document, some rest⟩ ∧ document.Shows value

theorem legible_bool (value : Bool) : Legible (.bool value) where
  opens := by cases value <;> exact ⟨_, _, rfl, by decide, by decide⟩
  reads := by
    intro fuel rest enough
    cases fuel with
    | zero => cases value <;> cases enough
    | succ fuel => cases value <;> exact ⟨_, rfl, .bool _⟩

theorem writeString_append (text : String) (rest : List Char) :
    writeString text ++ rest = '"' :: (text.toList.flatMap escapeChar ++ '"' :: rest) := by
  simp [writeString]

theorem legible_string (text : String) : Legible (.string text) where
  opens := ⟨'"', _, rfl, by decide, by decide⟩
  reads := by
    intro fuel rest enough
    cases fuel with
    | zero => cases enough
    | succ fuel =>
      refine ⟨.string text, ?_, .string text⟩
      rw [write, writeString_append, Document.readValue, skipBlanks_cons (by decide)]
      simp only [readString_escaped]
      rfl

/-- The text behind the first item of an array. -/
def moreItems (items : List Json) : List Char := items.flatMap fun item => ',' :: write item

theorem moreItems_cons (item : Json) (items : List Json) :
    moreItems (item :: items) = ',' :: (write item ++ moreItems items) := rfl

theorem writeItems_cons (item : Json) (items : List Json) : writeItems (item :: items) = write item ++ moreItems items := by
  induction items generalizing item with
  | nil => simp [writeItems, moreItems]
  | cons next items ih =>
    rw [writeItems, ih, moreItems_cons, List.append_assoc]
    · rfl
    · nofun

/-- The text behind the first entry of an object. -/
def moreEntries (entries : List (String × Json)) : List Char :=
  entries.flatMap fun entry => ',' :: (writeString entry.1 ++ ':' :: write entry.2)

theorem moreEntries_cons (key : String) (value : Json) (entries : List (String × Json)) :
    moreEntries ((key, value) :: entries) = ',' :: (writeString key ++ ':' :: (write value ++ moreEntries entries)) := by
  simp [moreEntries]

theorem writeEntries_cons (key : String) (value : Json) (entries : List (String × Json)) :
    writeEntries ((key, value) :: entries) = writeString key ++ ':' :: (write value ++ moreEntries entries) := by
  induction entries generalizing key value with
  | nil => simp [writeEntries, moreEntries]
  | cons entry entries ih =>
    rw [writeEntries, ih, moreEntries_cons]
    · simp
    · nofun

open Document (readValue readItems readItem readEntries readEntry ShowsItems ShowsEntries)

theorem exists_readItem {item : Json} {fuel : Nat} {text : List Char} (legible : Legible item)
    (enough : 3 * (write item).length ≤ fuel)
    (others : ∃ found, readItems fuel false text = ⟨found, .closed, some rest⟩ ∧ ShowsItems found items) :
    ∃ found, readItem (fuel + 1) (write item ++ text) = ⟨found, .closed, some rest⟩ ∧ ShowsItems found (item :: items) := by
  obtain ⟨document, read, shows⟩ := legible.reads fuel text enough
  obtain ⟨found, more, all⟩ := others
  refine ⟨document :: found, ?_, .cons shows all⟩
  rw [readItem, read]
  simp only [more]

theorem exists_readItems (fuel : Nat) (rest : List Char) (legible : ∀ item ∈ items, Legible item)
    (enough : 3 * (moreItems items).length + 1 ≤ fuel) :
    ∃ found, readItems fuel false (moreItems items ++ ']' :: rest) = ⟨found, .closed, some rest⟩ ∧
      ShowsItems found items := by
  induction items generalizing fuel with
  | nil =>
    obtain ⟨fuel, rfl⟩ := Nat.exists_eq_add_of_le' enough
    exact ⟨[], rfl, .nil⟩
  | cons item items ih =>
    obtain ⟨here, legible⟩ := List.forall_mem_cons.mp legible
    rw [moreItems_cons, List.length_cons, List.length_append] at enough
    obtain ⟨fuel, rfl⟩ : ∃ less, fuel = less + 2 := ⟨fuel - 2, by omega⟩
    obtain ⟨found, read, shows⟩ := exists_readItem here (by omega) (ih fuel legible (by omega))
    refine ⟨found, ?_, shows⟩
    obtain ⟨c, text, opens, visible, notEnd⟩ := here.opens
    rw [opens] at read
    rw [moreItems_cons, opens, List.cons_append, List.append_assoc, readItems, skipBlanks_cons (by decide)]
    simp only [List.cons_append, skipBlanks_cons visible, if_neg notEnd]
    exact read

theorem writeArray_append (items : List Json) (rest : List Char) :
    write (.array items) ++ rest = '[' :: (writeItems items ++ ']' :: rest) := by
  simp [write]

theorem length_writeArray (items : List Json) : (write (.array items)).length = (writeItems items).length + 2 := by
  simp [write]

theorem legible_array (legible : ∀ item ∈ items, Legible item) : Legible (.array items) where
  opens := ⟨'[', _, rfl, by decide, by decide⟩
  reads := by
    intro fuel rest enough
    rw [length_writeArray] at enough
    rw [writeArray_append]
    obtain ⟨fuel, rfl⟩ : ∃ less, fuel = less + 3 := ⟨fuel - 3, by omega⟩
    cases items with
    | nil => exact ⟨_, rfl, .array rfl .nil⟩
    | cons item items =>
      obtain ⟨here, legible⟩ := List.forall_mem_cons.mp legible
      rw [writeItems_cons, List.length_append] at enough
      obtain ⟨found, read, shows⟩ := exists_readItem here (by omega)
        (exists_readItems fuel rest legible (by omega))
      refine ⟨.array found .closed, ?_, .array rfl shows⟩
      obtain ⟨c, text, opens, visible, notEnd⟩ := here.opens
      rw [opens] at read
      rw [writeItems_cons, opens, List.append_assoc, readValue, skipBlanks_cons (by decide)]
      simp only [readItems, List.cons_append, skipBlanks_cons visible, if_neg notEnd]
      rw [List.cons_append] at read
      simp [read]

theorem exists_readEntry {fuel : Nat} {text : List Char} (key : String) (legible : Legible value)
    (enough : 3 * (write value).length ≤ fuel)
    (others : ∃ found, readEntries fuel false text = ⟨found, .closed, some rest⟩ ∧ ShowsEntries found entries) :
    ∃ found, readEntry (fuel + 1) (key.toList.flatMap escapeChar ++ '"' :: ':' :: (write value ++ text)) =
      ⟨found, .closed, some rest⟩ ∧ ShowsEntries found ((key, value) :: entries) := by
  obtain ⟨document, read, shows⟩ := legible.reads fuel text enough
  obtain ⟨found, more, all⟩ := others
  refine ⟨(.ok key, document) :: found, ?_, .cons shows all⟩
  rw [readEntry, readString_escaped]
  simp only [skipBlanks_cons (show isBlank ':' = false by decide), if_pos, read, more]

theorem exists_readEntries (fuel : Nat) (rest : List Char) (legible : ∀ entry ∈ entries, Legible entry.2)
    (enough : 3 * (moreEntries entries).length + 1 ≤ fuel) :
    ∃ found, readEntries fuel false (moreEntries entries ++ '\x7d' :: rest) = ⟨found, .closed, some rest⟩ ∧
      ShowsEntries found entries := by
  induction entries generalizing fuel with
  | nil =>
    obtain ⟨fuel, rfl⟩ := Nat.exists_eq_add_of_le' enough
    exact ⟨[], rfl, .nil⟩
  | cons entry entries ih =>
    obtain ⟨key, value⟩ := entry
    obtain ⟨(here : Legible value), legible⟩ := List.forall_mem_cons.mp legible
    rw [moreEntries_cons, List.length_cons, List.length_append, List.length_cons, List.length_append] at enough
    obtain ⟨fuel, rfl⟩ : ∃ less, fuel = less + 2 := ⟨fuel - 2, by omega⟩
    obtain ⟨found, read, shows⟩ := exists_readEntry key here (by omega) (ih fuel legible (by omega))
    refine ⟨found, ?_, shows⟩
    have text : moreEntries ((key, value) :: entries) ++ '\x7d' :: rest = ',' :: '"' ::
        (key.toList.flatMap escapeChar ++ '"' :: ':' :: (write value ++ (moreEntries entries ++ '\x7d' :: rest))) := by
      simp [moreEntries_cons, writeString]
    rw [text, readEntries, skipBlanks_cons (by decide)]
    simp only [skipBlanks_cons (show isBlank '"' = false by decide)]
    exact read

theorem length_writeObject (entries : List (String × Json)) :
    (write (.object entries)).length = (writeEntries entries).length + 2 := by
  simp [write]

theorem legible_object (legible : ∀ entry ∈ entries, Legible entry.2) : Legible (.object entries) where
  opens := ⟨'\x7b', _, rfl, by decide, by decide⟩
  reads := by
    intro fuel rest enough
    rw [length_writeObject] at enough
    obtain ⟨fuel, rfl⟩ : ∃ less, fuel = less + 3 := ⟨fuel - 3, by omega⟩
    cases entries with
    | nil => exact ⟨_, rfl, .object .nil⟩
    | cons entry entries =>
      obtain ⟨key, value⟩ := entry
      obtain ⟨(here : Legible value), legible⟩ := List.forall_mem_cons.mp legible
      rw [writeEntries_cons, List.length_append, List.length_cons, List.length_append] at enough
      obtain ⟨found, read, shows⟩ := exists_readEntry key here (by omega)
        (exists_readEntries fuel rest legible (by omega))
      refine ⟨.object found .closed, ?_, .object shows⟩
      have text : write (.object ((key, value) :: entries)) ++ rest = '\x7b' :: '"' ::
          (key.toList.flatMap escapeChar ++ '"' :: ':' :: (write value ++ (moreEntries entries ++ '\x7d' :: rest))) := by
        simp [write, writeEntries_cons, writeString]
      rw [text, readValue, skipBlanks_cons (by decide)]
      simp only [readEntries, skipBlanks_cons (show isBlank '"' = false by decide)]
      simp [read]

/-- A text of its own has enough steps for its value. -/
theorem shows_ofText (legible : Legible value) : (Document.ofText (compact value)).Shows value := by
  obtain ⟨document, read, shows⟩ := legible.reads (3 * (compact value).length + 3) [] (by simp [compact])
  rw [List.append_nil] at read
  rw [Document.ofText, compact, String.toList_ofList, ← compact, read]
  exact shows

end TypedTree.Json
