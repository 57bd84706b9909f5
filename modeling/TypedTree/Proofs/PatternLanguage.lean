import Mathlib.Data.List.TakeWhile
import TypedTree.Naming.Pattern
import TypedTree.Proofs.TableEntries

/-! The language of name patterns. A pattern is read exactly if it is made of literals and known placeholders in braces,
and each brace that does not fit is reported for what it is. -/

namespace TypedTree.Naming

variable {α : Type} {placeholders : Placeholders α} {text rest name : List Char} {c mark : Char}

theorem passes_of_not_mem (free : mark ∉ text) : ∀ c ∈ text, decide (c ≠ mark) = true :=
  fun _ member => decide_eq_true fun same => free (same ▸ member)

theorem takeWhile_before (free : mark ∉ text) (rest : List Char) :
    (text ++ mark :: rest).takeWhile (· ≠ mark) = text := by
  rw [List.takeWhile_append_of_pos (passes_of_not_mem free), List.takeWhile_cons_of_neg (by simp), List.append_nil]

theorem dropWhile_before (free : mark ∉ text) (rest : List Char) :
    (text ++ mark :: rest).dropWhile (· ≠ mark) = mark :: rest := by
  rw [List.dropWhile_append_of_pos (passes_of_not_mem free), List.dropWhile_cons_of_neg (by simp)]

namespace NamePattern

/-- What is read behind an opening brace. -/
def readGroup (placeholders : Placeholders α) (behind : List Char) : Except PatternFlaw (List (Piece α)) :=
  let name := behind.takeWhile (· ≠ '\x7d')
  match behind.dropWhile (· ≠ '\x7d') with
  | [] => .error .missingBrace
  | _ :: rest =>
    if '\x7b' ∈ name then .error .braceInName
    else if name.isEmpty then .error .emptyName
    else match placeholders.get? (String.ofList name) with
      | none => .error (.unknownName (String.ofList name))
      | some value => (readPieces placeholders rest).map (.placeholder value :: ·)

theorem readPieces_eq (text : List Char) :
    readPieces placeholders text =
      if '\x7d' ∈ text.takeWhile (· ≠ '\x7b') then .error .unpairedBrace
      else match text.dropWhile (· ≠ '\x7b') with
        | [] => .ok (literalPiece (text.takeWhile (· ≠ '\x7b')))
        | _ :: behind => (readGroup placeholders behind).map (literalPiece (text.takeWhile (· ≠ '\x7b')) ++ ·) := by
  rw [readPieces]
  dsimp only
  split
  next => rfl
  next =>
    split
    next opened => rw [opened]
    next first behind opened =>
      simp only [opened, readGroup]
      split
      next closed => simp only [closed, Except.map]
      next last rest closed =>
        simp only [closed]
        split
        · rfl
        · split
          · rfl
          · cases placeholders.get? (String.ofList (behind.takeWhile (· ≠ '\x7d'))) with
            | none => rfl
            | some value => cases readPieces placeholders rest <;> rfl

/-- The text that a pattern makes of each value. -/
def meaning (placeholders : Placeholders α) (text : List Char) : Except PatternFlaw (α → List Char) :=
  (readPieces placeholders text).map fun pieces value => pieces.flatMap (applyPiece value)

theorem flatMap_literalPiece (value : α) (text : List Char) :
    (literalPiece text).flatMap (applyPiece value) = text := by
  cases text with
  | nil => rfl
  | cons c text => simp [literalPiece, applyPiece]

theorem meaning_nil : meaning placeholders [] = .ok fun _ => [] := by
  simp [meaning, readPieces_eq, Except.map, literalPiece]

theorem meaning_cons (opening : c ≠ '\x7b') (closing : c ≠ '\x7d') (rest : List Char) :
    meaning placeholders (c :: rest) = (meaning placeholders rest).map fun out value => c :: out value := by
  have before : (c :: rest).takeWhile (· ≠ '\x7b') = c :: rest.takeWhile (· ≠ '\x7b') := by simp [opening]
  have behind : (c :: rest).dropWhile (· ≠ '\x7b') = rest.dropWhile (· ≠ '\x7b') := by simp [opening]
  rw [meaning, meaning, readPieces_eq (c :: rest), readPieces_eq rest, before, behind]
  by_cases unpaired : '\x7d' ∈ rest.takeWhile (· ≠ '\x7b')
  · rw [if_pos unpaired, if_pos (List.mem_cons_of_mem c unpaired)]
    rfl
  · have paired : '\x7d' ∉ c :: rest.takeWhile (· ≠ '\x7b') := fun member =>
      (List.mem_cons.mp member).elim (fun same => closing same.symm) unpaired
    rw [if_neg unpaired, if_neg paired]
    cases rest.dropWhile (· ≠ '\x7b') with
    | nil => simp [Except.map, flatMap_literalPiece]
    | cons first behind =>
      cases group : readGroup placeholders behind <;> simp [group, Except.map, flatMap_literalPiece]

theorem meaning_closing (rest : List Char) : meaning placeholders ('\x7d' :: rest) = .error .unpairedBrace := by
  simp [meaning, readPieces_eq, Except.map]

theorem readPieces_opening (behind : List Char) :
    readPieces placeholders ('\x7b' :: behind) = readGroup placeholders behind := by
  cases group : readGroup placeholders behind <;> simp [readPieces_eq, group, Except.map, literalPiece]

theorem meaning_missing (unclosed : '\x7d' ∉ rest) : meaning placeholders ('\x7b' :: rest) = .error .missingBrace := by
  have none : rest.dropWhile (· ≠ '\x7d') = [] := List.dropWhile_eq_nil_iff.mpr (passes_of_not_mem unclosed)
  simp only [meaning, readPieces_opening, readGroup, none, Except.map]

theorem meaning_group (free : '\x7d' ∉ name) (rest : List Char) :
    meaning placeholders ('\x7b' :: (name ++ '\x7d' :: rest)) =
      if '\x7b' ∈ name then .error .braceInName
      else if name.isEmpty then .error .emptyName
      else match placeholders.get? (String.ofList name) with
        | none => .error (.unknownName (String.ofList name))
        | some replace => (meaning placeholders rest).map fun out value => (replace value).toList ++ out value := by
  simp only [meaning, readPieces_opening, readGroup, takeWhile_before free, dropWhile_before free]
  split
  · rfl
  · split
    · rfl
    · split
      · rfl
      · cases readPieces placeholders rest <;> rfl

end NamePattern

/-- A part of a pattern. A placeholder comes with what it stands for. -/
inductive Segment (α : Type) where
  | literal (text : List Char)
  | group (name : List Char) (replace : α → String)

def Braceless (text : List Char) : Prop := '\x7b' ∉ text ∧ '\x7d' ∉ text

instance (text : List Char) : Decidable (Braceless text) := inferInstanceAs (Decidable (_ ∧ _))

namespace Segment

/-- How a part is written. -/
def chars : Segment α → List Char
  | literal text => text
  | group name _ => '\x7b' :: (name ++ ['\x7d'])

def fill (value : α) : Segment α → List Char
  | literal text => text
  | group _ replace => (replace value).toList

/-- Literals have no braces, and names are those of placeholders. -/
def Valid (placeholders : Placeholders α) : Segment α → Prop
  | literal text => Braceless text
  | group name replace => name ≠ [] ∧ Braceless name ∧ placeholders.get? (String.ofList name) = some replace

end Segment

/-- A text is made of valid parts. -/
structure Spells (placeholders : Placeholders α) (segments : List (Segment α)) (text : List Char) : Prop where
  valid : ∀ segment ∈ segments, segment.Valid placeholders
  text : segments.flatMap Segment.chars = text

/-- What is reported for a text that begins with a brace which does not fit. -/
inductive Fault (placeholders : Placeholders α) : List Char → String → Prop
  | unpaired (rest : List Char) : Fault placeholders ('\x7d' :: rest) "Unpaired closing '\x7d'"
  | missing {rest : List Char} (unclosed : '\x7d' ∉ rest) : Fault placeholders ('\x7b' :: rest) "Missing closing '\x7d'"
  | inside {name : List Char} (closed : '\x7d' ∉ name) (brace : '\x7b' ∈ name) (rest : List Char) :
      Fault placeholders ('\x7b' :: (name ++ '\x7d' :: rest)) "Unexpected '\x7b' in placeholder name"
  | empty (rest : List Char) : Fault placeholders ('\x7b' :: '\x7d' :: rest) "Placeholder name cannot be empty"
  | unknown {name : List Char} (braceless : Braceless name) (present : name ≠ [])
      (unknown : String.ofList name ∉ placeholders.keys) (rest : List Char) :
      Fault placeholders ('\x7b' :: (name ++ '\x7d' :: rest)) ("Unknown placeholder: " ++ String.ofList name)

namespace NamePattern

variable {segments : List (Segment α)}

theorem meaning_literal (braceless : Braceless text) (rest : List Char) :
    meaning placeholders (text ++ rest) = (meaning placeholders rest).map fun out value => text ++ out value := by
  induction text with
  | nil =>
    rw [List.nil_append]
    cases meaning placeholders rest <;> rfl
  | cons c text ih =>
    obtain ⟨opening, closing⟩ := braceless
    simp only [List.mem_cons, not_or] at opening closing
    rw [List.cons_append, meaning_cons (Ne.symm opening.1) (Ne.symm closing.1), ih ⟨opening.2, closing.2⟩]
    cases meaning placeholders rest <;> rfl

theorem meaning_segment {segment : Segment α} (valid : segment.Valid placeholders) (rest : List Char) :
    meaning placeholders (segment.chars ++ rest) =
      (meaning placeholders rest).map fun out value => segment.fill value ++ out value := by
  cases segment with
  | literal text => exact meaning_literal valid rest
  | group name replace =>
    obtain ⟨present, ⟨opening, closing⟩, known⟩ := valid
    have nonempty : name.isEmpty = false := by simpa using present
    simp only [Segment.chars, List.cons_append, List.append_assoc, List.nil_append]
    simp [meaning_group closing, opening, nonempty, known, Segment.fill]

/-- What comes before does not matter for what is read. -/
theorem meaning_segments (valid : ∀ segment ∈ segments, segment.Valid placeholders) (rest : List Char) :
    meaning placeholders (segments.flatMap Segment.chars ++ rest) =
      (meaning placeholders rest).map fun out value => segments.flatMap (Segment.fill value) ++ out value := by
  induction segments with
  | nil =>
    rw [List.flatMap_nil, List.nil_append]
    cases meaning placeholders rest <;> rfl
  | cons segment segments ih =>
    obtain ⟨here, others⟩ := List.forall_mem_cons.mp valid
    rw [List.flatMap_cons, List.append_assoc, meaning_segment here, ih others]
    cases meaning placeholders rest <;> simp [Except.map]

theorem meaning_of_spells (spells : Spells placeholders segments text) :
    meaning placeholders text = .ok fun value => segments.flatMap (Segment.fill value) := by
  have read := meaning_segments spells.valid []
  simpa [spells.text, meaning_nil, Except.map] using read

theorem meaning_of_fault {message : String} (fault : Fault placeholders text message) :
    ∃ flaw, meaning placeholders text = .error flaw ∧ flaw.message = message := by
  cases fault with
  | unpaired rest => exact ⟨_, meaning_closing rest, rfl⟩
  | missing unclosed => exact ⟨_, meaning_missing unclosed, rfl⟩
  | inside closed brace rest => exact ⟨.braceInName, by simp [meaning_group closed, brace], rfl⟩
  | empty rest =>
    have read : meaning placeholders ('\x7b' :: ([] ++ '\x7d' :: rest)) = _ := meaning_group List.not_mem_nil rest
    exact ⟨.emptyName, by simpa using read, rfl⟩
  | @unknown name braceless present unknown rest =>
    obtain ⟨opening, closing⟩ := braceless
    have absent := Table.get?_eq_none unknown
    exact ⟨.unknownName (String.ofList name), by simp [meaning_group closing, opening, present, absent], rfl⟩

end NamePattern

open NamePattern

private theorem exists_behind {others : List Char} (free : '\x7d' ∉ name) (same : text ++ others = name ++ '\x7d' :: rest)
    (closed : '\x7d' ∈ text) : ∃ behind, text = name ++ '\x7d' :: behind := by
  rcases List.append_eq_append_iff.mp same with ⟨more, rfl, _⟩ | ⟨more, rfl, behind⟩
  · exact absurd (List.mem_append_left more closed) free
  · cases more with
    | nil => exact absurd (by simpa using closed) free
    | cons c more =>
      obtain ⟨rfl, _⟩ := List.cons.inj behind
      exact ⟨more, rfl⟩

/-- What is wrong with a text is wrong with all of its beginnings, if not always in the same way. -/
theorem Fault.of_prefix {message : String} (fault : Fault placeholders text message) {start : List Char}
    (beginning : start <+: text) (present : start ≠ []) : ∃ other, Fault placeholders start other := by
  obtain ⟨first, start, rfl⟩ := List.exists_cons_of_ne_nil present
  obtain ⟨others, same⟩ := beginning
  have group : ∀ {name rest : List Char} {message : String}, '\x7d' ∉ name →
      (∀ rest, Fault placeholders ('\x7b' :: (name ++ '\x7d' :: rest)) message) →
      first :: start ++ others = '\x7b' :: (name ++ '\x7d' :: rest) →
        ∃ other, Fault placeholders (first :: start) other := by
    intro name rest message free known opened
    obtain ⟨rfl, tail⟩ := List.cons.inj opened
    by_cases closed : '\x7d' ∈ start
    · obtain ⟨behind, rfl⟩ := exists_behind free tail closed
      exact ⟨message, known behind⟩
    · exact ⟨_, .missing closed⟩
  cases fault with
  | unpaired rest =>
    obtain ⟨rfl, _⟩ := List.cons.inj same
    exact ⟨_, .unpaired start⟩
  | missing unclosed =>
    obtain ⟨rfl, rfl⟩ := List.cons.inj same
    exact ⟨_, .missing fun closed => unclosed (List.mem_append_left others closed)⟩
  | inside closed brace rest => exact group closed (.inside closed brace) same
  | empty rest => exact group List.not_mem_nil .empty same
  | unknown braceless present unknown rest => exact group braceless.2 (.unknown braceless present unknown) same

theorem valid_or_fault (placeholders : Placeholders α) (free : '\x7d' ∉ name) :
    (∃ replace, (Segment.group name replace).Valid placeholders) ∨
      ∃ message, ∀ rest, Fault placeholders ('\x7b' :: (name ++ '\x7d' :: rest)) message := by
  by_cases brace : '\x7b' ∈ name
  · exact Or.inr ⟨_, .inside free brace⟩
  · by_cases empty : name = []
    · subst empty
      exact Or.inr ⟨_, .empty⟩
    · cases known : placeholders.get? (String.ofList name) with
      | some replace => exact Or.inl ⟨replace, empty, ⟨brace, free⟩, known⟩
      | none => exact Or.inr ⟨_, .unknown ⟨brace, free⟩ empty (Table.get?_eq_none_iff.mp known)⟩

/-- A text is made of valid parts up to some place, where it ends or has a brace that does not fit. -/
def Stops (placeholders : Placeholders α) (start rest : List Char) : Prop :=
  (∃ segments, Spells placeholders segments start) ∧ (rest = [] ∨ ∃ message, Fault placeholders rest message)

theorem Stops.behind {segment : Segment α} {start : List Char} (stops : Stops placeholders start rest)
    (valid : segment.Valid placeholders) : Stops placeholders (segment.chars ++ start) rest := by
  obtain ⟨⟨segments, others, rfl⟩, stop⟩ := stops
  exact ⟨⟨segment :: segments, List.forall_mem_cons.mpr ⟨valid, others⟩, rfl⟩, stop⟩

/-- A text that is not empty begins with a valid part, or with a brace that does not fit. -/
theorem exists_segment_or_fault (placeholders : Placeholders α) (c : Char) (text : List Char) :
    (∃ (segment : Segment α) (rest : List Char),
      segment.Valid placeholders ∧ segment.chars ++ rest = c :: text ∧ rest.length ≤ text.length) ∨
    ∃ message, Fault placeholders (c :: text) message := by
  by_cases closing : c = '\x7d'
  · subst closing
    exact Or.inr ⟨_, .unpaired text⟩
  by_cases opening : c = '\x7b'
  · subst opening
    by_cases closed : '\x7d' ∈ text
    · obtain ⟨name, behind, rfl, free⟩ := List.eq_append_cons_of_mem closed
      rcases valid_or_fault placeholders free with ⟨replace, valid⟩ | ⟨message, fault⟩
      · refine Or.inl ⟨_, behind, valid, by simp [Segment.chars], ?_⟩
        simp only [List.length_append, List.length_cons]
        omega
      · exact Or.inr ⟨message, fault behind⟩
    · exact Or.inr ⟨_, .missing closed⟩
  · have braceless : Braceless [c] := by simp [Braceless, Ne.symm opening, Ne.symm closing]
    exact Or.inl ⟨.literal [c], text, braceless, rfl, Nat.le_refl _⟩

theorem exists_stops (placeholders : Placeholders α) (text : List Char) :
    ∃ start rest, start ++ rest = text ∧ Stops placeholders start rest := by
  have nothing : ∃ segments, Spells placeholders segments [] := ⟨[], List.forall_mem_nil _, rfl⟩
  -- Parts have different lengths, so the induction is on the length of the text.
  induction text using (measure List.length).wf.induction with
  | _ text ih =>
    cases text with
    | nil => exact ⟨[], [], rfl, nothing, Or.inl rfl⟩
    | cons c text =>
      rcases exists_segment_or_fault placeholders c text with ⟨segment, behind, valid, same, shorter⟩ | fault
      · obtain ⟨start, rest, rfl, stops⟩ := ih behind (Nat.lt_succ_of_le shorter)
        exact ⟨segment.chars ++ start, rest, (List.append_assoc ..).trans same, stops.behind valid⟩
      · exact ⟨[], c :: text, rfl, nothing, Or.inr fault⟩

/-- The longest beginning of a text that is made of valid parts, and what is behind it. -/
structure Longest (placeholders : Placeholders α) (start rest text : List Char) : Prop where
  split : start ++ rest = text
  spelled : ∃ segments, Spells placeholders segments start
  longest : ∀ segments other, Spells placeholders segments other → other <+: text → other.length ≤ start.length

theorem longest_of_fault {start : List Char} {message : String} {segments : List (Segment α)}
    (split : start ++ rest = text) (spells : Spells placeholders segments start) (fault : Fault placeholders rest message) :
    Longest placeholders start rest text := by
  refine ⟨split, ⟨segments, spells⟩, fun others longer spelled beginning => ?_⟩
  apply Nat.le_of_not_lt
  intro less
  rw [← split] at beginning
  obtain ⟨more, rfl⟩ := List.prefix_of_prefix_length_le (List.prefix_append start rest) beginning (Nat.le_of_lt less)
  have present : more ≠ [] := by
    intro none
    simp [none] at less
  obtain ⟨other, worse⟩ := fault.of_prefix ((List.prefix_append_right_inj start).mp beginning) present
  obtain ⟨flaw, failed, _⟩ := meaning_of_fault worse
  have read := meaning_of_spells spelled
  rw [← spells.text, meaning_segments spells.valid, failed] at read
  cases read

namespace NamePattern

variable {source : String} {pattern : NamePattern α}

theorem read_of_present (given : placeholders.keys ≠ []) (present : source ≠ "") :
    read placeholders source = match readPieces placeholders source.toList with
      | .ok pieces => .ok ⟨source, pieces⟩
      | .error flaw => .error ⟨source, flaw⟩ := by
  have entries : placeholders.isEmpty = false := by simpa [Table.isEmpty, Table.keys] using given
  have chars : source.isEmpty = false := by simpa using present
  rw [read, entries, chars]
  rfl

theorem present_of_read (run : read placeholders source = .ok pattern) : placeholders.keys ≠ [] ∧ source ≠ "" := by
  rw [read] at run
  split at run
  next => cases run
  next given =>
    split at run
    next => cases run
    next present => exact ⟨by simpa [Table.isEmpty, Table.keys] using given, by simpa using present⟩

theorem meaning_of_read (run : read placeholders source = .ok pattern) :
    meaning placeholders source.toList = .ok fun value => (pattern.apply value).toList := by
  obtain ⟨given, present⟩ := present_of_read run
  rw [read_of_present given present] at run
  rw [meaning]
  cases outcome : readPieces placeholders source.toList with
  | error flaw => simp [outcome] at run
  | ok pieces =>
    simp only [outcome] at run
    cases run
    simp [Except.map, apply]

theorem exists_read {output : α → List Char} (given : placeholders.keys ≠ []) (present : source ≠ "")
    (known : meaning placeholders source.toList = .ok output) : ∃ pattern, read placeholders source = .ok pattern := by
  rw [read_of_present given present]
  rw [meaning] at known
  cases outcome : readPieces placeholders source.toList with
  | error flaw => simp [outcome, Except.map] at known
  | ok pieces => exact ⟨_, rfl⟩

theorem flaw_of_read {error : PatternError} (given : placeholders.keys ≠ []) (present : source ≠ "")
    (run : read placeholders source = .error error) :
    error.pattern = source ∧ meaning placeholders source.toList = .error error.flaw := by
  rw [read_of_present given present] at run
  rw [meaning]
  cases outcome : readPieces placeholders source.toList with
  | ok pieces => simp [outcome] at run
  | error flaw =>
    simp only [outcome] at run
    cases run
    exact ⟨rfl, rfl⟩

theorem spells_of_read (run : read placeholders source = .ok pattern) :
    ∃ segments, Spells placeholders segments source.toList := by
  obtain ⟨start, rest, split, ⟨segments, spells⟩, stop⟩ := exists_stops placeholders source.toList
  rcases stop with rfl | ⟨message, fault⟩
  · rw [List.append_nil] at split
    exact ⟨segments, split ▸ spells⟩
  · obtain ⟨flaw, failed, _⟩ := meaning_of_fault fault
    have known := meaning_of_read run
    rw [← split, ← spells.text, meaning_segments spells.valid, failed] at known
    cases known

/-- The parts of a pattern can be told from its text, as far as it matters. -/
theorem apply_of_spells {segments : List (Segment α)} (run : read placeholders source = .ok pattern)
    (spells : Spells placeholders segments source.toList) (value : α) :
    pattern.apply value = String.ofList (segments.flatMap (Segment.fill value)) := by
  have same := (meaning_of_read run).symm.trans (meaning_of_spells spells)
  apply String.toList_inj.mp
  rw [String.toList_ofList]
  exact congrFun (Except.ok.inj same) value

theorem exists_read_append {other : String} {behind : NamePattern α} (run : read placeholders source = .ok pattern)
    (otherRun : read placeholders other = .ok behind) :
    ∃ both, read placeholders (source ++ other) = .ok both ∧
      ∀ value, both.apply value = pattern.apply value ++ behind.apply value := by
  obtain ⟨given, present⟩ := present_of_read run
  obtain ⟨segments, spells⟩ := spells_of_read run
  have known : meaning placeholders (source ++ other).toList =
      .ok fun value => segments.flatMap (Segment.fill value) ++ (behind.apply value).toList := by
    rw [String.toList_append, ← spells.text, meaning_segments spells.valid, meaning_of_read otherRun]
    rfl
  obtain ⟨both, bothRun⟩ := exists_read given (by simp [present]) known
  refine ⟨both, bothRun, fun value => ?_⟩
  have same := congrFun (Except.ok.inj ((meaning_of_read bothRun).symm.trans known)) value
  apply String.toList_inj.mp
  rw [same, String.toList_append, apply_of_spells run spells, String.toList_ofList]

theorem longest_of_read {error : PatternError} (given : placeholders.keys ≠ []) (present : source ≠ "")
    (run : read placeholders source = .error error) :
    ∃ start rest, Longest placeholders start rest source.toList ∧ Fault placeholders rest error.flaw.message := by
  obtain ⟨_, failed⟩ := flaw_of_read given present run
  obtain ⟨start, rest, split, ⟨segments, spells⟩, stop⟩ := exists_stops placeholders source.toList
  have read := meaning_segments spells.valid rest
  rw [spells.text, split, failed] at read
  rcases stop with rfl | ⟨message, fault⟩
  · rw [meaning_nil] at read
    cases read
  · obtain ⟨flaw, found, rfl⟩ := meaning_of_fault fault
    rw [found] at read
    cases read
    exact ⟨start, rest, longest_of_fault split spells fault, fault⟩

/-- A pattern is read exactly if it is made of literals and known placeholders in braces, and then it replaces the
placeholders alone. Otherwise the brace behind the longest such beginning tells what is reported. -/
theorem read_language (placeholders : Placeholders α) (source : String) :
    ((∃ pattern, read placeholders source = .ok pattern) ↔
      placeholders.keys ≠ [] ∧ source ≠ "" ∧ ∃ segments, Spells placeholders segments source.toList) ∧
    (∀ pattern, read placeholders source = .ok pattern →
      (∀ segments, Spells placeholders segments source.toList →
        ∀ value, pattern.apply value = String.ofList (segments.flatMap (Segment.fill value))) ∧
      ∀ other behind, read placeholders other = .ok behind → ∃ both, read placeholders (source ++ other) = .ok both ∧
        ∀ value, both.apply value = pattern.apply value ++ behind.apply value) ∧
    ∀ error, read placeholders source = .error error → placeholders.keys ≠ [] → source ≠ "" →
      error.pattern = source ∧
        ∃ start rest, Longest placeholders start rest source.toList ∧ Fault placeholders rest error.flaw.message := by
  refine ⟨⟨fun ⟨pattern, run⟩ => ?_, fun ⟨given, present, segments, spells⟩ => ?_⟩, fun pattern run => ⟨?_, ?_⟩, ?_⟩
  · obtain ⟨given, present⟩ := present_of_read run
    exact ⟨given, present, spells_of_read run⟩
  · exact exists_read given present (meaning_of_spells spells)
  · exact fun segments spells => apply_of_spells run spells
  · exact fun other behind => exists_read_append run
  · intro error run given present
    exact ⟨(flaw_of_read given present run).1, longest_of_read given present run⟩

theorem read_language_letters :
    let letters : Placeholders String := .ofList [("twice", fun text => text ++ text), ("same", id)]
    (∃ pattern, read letters "a\x7btwice\x7db" = .ok pattern ∧ pattern.apply "c" = "accb") ∧
      ∃ error, read letters "a\x7bsame\x7d\x7d" = .error error ∧ error.flaw = .unpairedBrace ∧
        ∃ start rest, Longest letters start rest "a\x7bsame\x7d\x7d".toList ∧ Fault letters rest error.flaw.message := by
  intro letters
  have given : letters.keys ≠ [] := by decide +zetaReduce
  let segments : List (Segment String) :=
    [.literal ['a'], .group "twice".toList fun text => text ++ text, .literal ['b']]
  have spells : Spells letters segments "a\x7btwice\x7db".toList := by
    refine ⟨?_, rfl⟩
    have before : Braceless ['a'] := by decide
    have name : Braceless ['t', 'w', 'i', 'c', 'e'] := by decide
    have after : Braceless ['b'] := by decide
    have known : letters.get? "twice" = some fun text => text ++ text := rfl
    simp [segments, Segment.Valid, before, name, after, known]
  obtain ⟨accepted, applied, _⟩ := read_language letters "a\x7btwice\x7db"
  obtain ⟨pattern, run⟩ := accepted.mpr ⟨given, by decide, segments, spells⟩
  refine ⟨⟨pattern, run, (applied pattern run).1 segments spells "c"⟩, ?_⟩
  have failed : read letters "a\x7bsame\x7d\x7d" = .error ⟨"a\x7bsame\x7d\x7d", .unpairedBrace⟩ := by
    have known : letters.get? "same" = some id := rfl
    rw [read_of_present given (by decide)]
    simp [readPieces_eq, readGroup, known, Except.map]
  obtain ⟨_, _, rejected⟩ := read_language letters "a\x7bsame\x7d\x7d"
  exact ⟨_, failed, rfl, (rejected _ failed given (by decide)).2⟩

end NamePattern

end TypedTree.Naming
