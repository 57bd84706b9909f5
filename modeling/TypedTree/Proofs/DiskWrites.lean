import Mathlib.Data.List.Induction
import TypedTree.CommandLine.Disk
import TypedTree.Proofs.ListEffects

/-! Writing to a disk. What is written to a file is read from it again, and folders and other files stay as they are. -/

namespace TypedTree.CommandLine

open ListEffects (bind_eq_ok)

namespace Entry

/-- The entry that some names lead to. -/
def at? : Entry → List String → Option Entry
  | entry, [] => some entry
  | entry, name :: rest => (Table.find name entry.entries).bind (·.at? rest)

/-- Whether some names lead to a folder. -/
def HasFolder (root : Entry) (names : List String) : Prop := ∃ entries, root.at? names = some (folder entries)

variable {root entry : Entry} {names others : List String} {name : String} {text : String}

theorem at?_append (root : Entry) (names others : List String) :
    root.at? (names ++ others) = (root.at? names).bind (·.at? others) := by
  induction names generalizing root with
  | nil => rfl
  | cons name names ih =>
    rw [List.cons_append, at?, at?, Option.bind_assoc]
    exact congrArg _ (funext fun inner => ih inner)

theorem at?_concat (root : Entry) (names : List String) (name : String) :
    root.at? (names ++ [name]) = (root.at? names).bind fun around => Table.find name around.entries := by
  rw [at?_append]
  refine congrArg _ (funext fun around => ?_)
  rw [at?]
  cases Table.find name around.entries <;> rfl

/-- Only folders have something in them. -/
theorem hasFolder_of_longer (longer : names <+: others) (ne : names ≠ others) (found : (root.at? others).isSome) :
    root.HasFolder names := by
  obtain ⟨rest, rfl⟩ := longer
  rw [at?_append] at found
  cases rest with
  | nil => exact absurd (List.append_nil names).symm ne
  | cons name rest =>
    rcases here : root.at? names with _ | _ | entries <;> rw [here] at found
    · cases found
    · cases found
    · exact ⟨entries, here⟩

theorem at?_put (root : Entry) (names : List String) (entry : Entry) : (root.put names entry).at? names = some entry := by
  induction names generalizing root with
  | nil => rfl
  | cons name names ih =>
    rw [put, at?, entries, Table.find_put, if_pos rfl]
    exact ih _

theorem hasFolder_put (root : Entry) (names : List String) (name : String) (rest : List String) (entry : Entry) :
    (root.put (names ++ name :: rest) entry).HasFolder names := by
  induction names generalizing root with
  | nil => exact ⟨_, rfl⟩
  | cons first names ih =>
    rw [List.cons_append, put, HasFolder, at?, entries, Table.find_put, if_pos rfl]
    exact ih _

/-- Names that part from those of an entry lead where they led before it was put there. -/
theorem at?_put_of_parted (root entry : Entry) (notAfter : ¬ names <+: others) (notBefore : ¬ others <+: names) :
    (root.put names entry).at? others = root.at? others := by
  induction names generalizing root others with
  | nil => exact absurd List.nil_prefix notAfter
  | cons name names ih =>
    cases others with
    | nil => exact absurd List.nil_prefix notBefore
    | cons other others =>
      rw [put, at?, at?, entries, Table.find_put]
      by_cases same : name = other
      · subst same
        rw [List.prefix_cons_inj] at notAfter notBefore
        rw [if_pos rfl, Option.bind_some, ih _ notAfter notBefore]
        cases Table.find name root.entries with
        | some inner => rfl
        | none =>
          cases others with
          | nil => exact absurd List.nil_prefix notBefore
          | cons => rfl
      · rw [if_neg same]

/-- A new file or folder, or a file in the place of another one. -/
theorem hasFolder_put_of_hasFolder (free : ¬ root.HasFolder names) (had : root.HasFolder others) :
    (root.put names entry).HasFolder others := by
  obtain ⟨entries, found⟩ := had
  have ne : others ≠ names := fun same => free (same ▸ ⟨entries, found⟩)
  by_cases after : names <+: others
  · exact absurd (hasFolder_of_longer after ne.symm (by rw [found]; rfl)) free
  · by_cases before : others <+: names
    · obtain ⟨_ | ⟨name, rest⟩, rfl⟩ := before
      · exact absurd (List.append_nil others).symm ne
      · exact hasFolder_put root others name rest entry
    · exact ⟨entries, by rw [at?_put_of_parted root entry after before, found]⟩

theorem file_put_of_file (around : root.HasFolder names) (free : ¬ root.HasFolder (names ++ [name]))
    (ne : others ≠ names ++ [name]) (found : root.at? others = some (file text)) :
    (root.put (names ++ [name]) entry).at? others = some (file text) := by
  have isFile : ¬ root.HasFolder others := fun ⟨_, same⟩ => by rw [found] at same; cases same
  -- what lies before or behind the new entry is a folder or not there at all
  by_cases after : names ++ [name] <+: others
  · exact absurd (hasFolder_of_longer after ne.symm (by rw [found]; rfl)) free
  · by_cases before : others <+: names ++ [name]
    · rcases List.prefix_concat_iff.mp before with same | before
      · exact absurd same ne
      · obtain ⟨entries, folder⟩ := around
        by_cases same : others = names
        · exact absurd ⟨entries, same ▸ folder⟩ isFile
        · exact absurd (hasFolder_of_longer before same (by rw [folder]; rfl)) isFile
    · rw [at?_put_of_parted root entry after before, found]

theorem mem_textsIn_of_find (path : String) {entries : List (String × Entry)} (found : Table.find name entries = some entry) :
    ∃ inner, entry.texts inner ⊆ textsIn path entries := by
  induction entries with
  | nil => cases found
  | cons first entries ih =>
    rw [textsIn]
    rw [Table.find] at found
    split at found
    · cases found
      exact ⟨_, List.subset_append_left _ _⟩
    · obtain ⟨inner, within⟩ := ih found
      exact ⟨inner, List.subset_append_of_subset_right _ within⟩

/-- No file is missing in the list of all texts. -/
theorem mem_texts_of_at? (path : String) (found : root.at? names = some (file text)) : text ∈ (root.texts path).map (·.2) := by
  induction names generalizing root path with
  | nil =>
    cases found
    simp [texts]
  | cons name names ih =>
    obtain ⟨next, here, later⟩ := Option.bind_eq_some_iff.mp found
    cases root with
    | file => cases here
    | folder entries =>
      obtain ⟨inner, within⟩ := mem_textsIn_of_find path here
      exact List.map_subset _ within (ih inner later)

end Entry

/-- Where a part of a path leads when names are all there is to see. -/
def turn (names : List String) (part : String) : List String :=
  if part = "" ∨ part = "." then names
  else if part = ".." then names.dropLast
  else names ++ [part]

/-- Parts of paths that are looked up at all. -/
def Fits (part : String) : Prop := part = "" ∨ part = "." ∨ part = ".." ∨ part.utf8ByteSize ≤ nameLimit

namespace Spot

/-- The folders of a trail are those on the way to its end. -/
def IsTrail (root : Entry) : List (String × Entry) → Prop
  | [] => True
  | (_, folder) :: rest => root.at? (rest.map (·.1)).reverse = some folder ∧ IsTrail root rest

/-- A spot is where some names lead. -/
structure IsAt (spot : Spot) (root : Entry) (names : List String) : Prop where
  names_eq : spot.names = names
  entry_eq : spot.entry = root.at? names
  trail : IsTrail root spot.trail

variable {root : Entry} {spot next : Spot} {names : List String} {part : String}

theorem isAt_around (isAt : spot.IsAt root names) (folder : root.HasFolder names) : spot.around.IsAt root names.dropLast := by
  obtain ⟨trail, entry⟩ := spot
  obtain ⟨rfl, same, onTrail⟩ := isAt
  cases trail with
  | nil => exact ⟨rfl, same, trivial⟩
  | cons last rest => exact ⟨by simp [around, Spot.names], by simp [around, Spot.names, onTrail.1], onTrail.2⟩

/-- A part of a path can be followed from a folder, if it is not too long. -/
theorem follow_of_hasFolder (isAt : spot.IsAt root names) (folder : root.HasFolder names) (fits : Fits part) :
    ∃ next, spot.follow part = .ok next ∧ next.IsAt root (turn names part) := by
  obtain ⟨entries, found⟩ := folder
  rw [follow, isAt.entry_eq, found, turn]
  dsimp only
  split
  · exact ⟨spot, rfl, isAt⟩
  · split
    · exact ⟨spot.around, rfl, isAt_around isAt ⟨entries, found⟩⟩
    · next special notUp =>
      have short : part.utf8ByteSize ≤ nameLimit := by
        rcases fits with h | h | h | h
        · exact absurd (.inl h) special
        · exact absurd (.inr h) special
        · exact absurd h notUp
        · exact h
      rw [if_neg (Nat.not_lt.mpr short)]
      refine ⟨_, rfl, ?_, ?_, ?_, isAt.trail⟩
      · simp [Spot.names, ← isAt.names_eq]
      · rw [Entry.at?_concat, found]
        rfl
      · rw [← found, ← isAt.names_eq]
        rfl

theorem hasFolder_of_follow (isAt : spot.IsAt root names) (followed : spot.follow part = .ok next) :
    root.HasFolder names ∧ Fits part := by
  rw [follow, isAt.entry_eq] at followed
  split at followed
  · cases followed
  · cases followed
  · next entries found =>
    refine ⟨⟨entries, found⟩, ?_⟩
    rw [Fits]
    by_contra unfit
    simp only [not_or, Nat.not_le] at unfit
    simp [unfit] at followed

theorem isAt_of_follow (isAt : spot.IsAt root names) (followed : spot.follow part = .ok next) :
    next.IsAt root (turn names part) := by
  obtain ⟨folder, fits⟩ := hasFolder_of_follow isAt followed
  obtain ⟨other, same, lands⟩ := follow_of_hasFolder isAt folder fits
  cases followed.symm.trans same
  exact lands

end Spot

namespace Disk

variable {disk after : Disk} {parts : List String} {spot : Spot} {path text : String}

/-- Where the parts of a path lead from the root. -/
def landing (parts : List String) : List String := parts.foldl turn []

theorem follow_concat_eq_ok {part : String} {next : Spot} :
    disk.follow (parts ++ [part]) = .ok next ↔ ∃ spot, disk.follow parts = .ok spot ∧ spot.follow part = .ok next := by
  rw [follow, List.foldlM_append, bind_eq_ok]
  simp [follow]

theorem isAt_of_follow (followed : disk.follow parts = .ok spot) : spot.IsAt disk.root (landing parts) := by
  induction parts using List.reverseRecOn generalizing spot with
  | nil =>
    cases followed
    exact ⟨rfl, rfl, trivial⟩
  | append_singleton parts part ih =>
    obtain ⟨before, led, followed⟩ := follow_concat_eq_ok.mp followed
    rw [landing, List.foldl_concat]
    exact Spot.isAt_of_follow (ih led) followed

/-- A path leads on as long as the folders on it stay. -/
theorem follow_of_follow (stay : ∀ names, disk.root.HasFolder names → after.root.HasFolder names)
    (followed : disk.follow parts = .ok spot) : ∃ other, after.follow parts = .ok other := by
  -- from the end, since what a part leads to depends on all parts before
  induction parts using List.reverseRecOn generalizing spot with
  | nil => exact ⟨_, rfl⟩
  | append_singleton parts part ih =>
    obtain ⟨before, led, followed⟩ := follow_concat_eq_ok.mp followed
    obtain ⟨folder, fits⟩ := Spot.hasFolder_of_follow (isAt_of_follow led) followed
    obtain ⟨other, found⟩ := ih led
    obtain ⟨next, same, -⟩ := Spot.follow_of_hasFolder (isAt_of_follow found) (stay _ folder) fits
    exact ⟨next, follow_concat_eq_ok.mpr ⟨other, found, same⟩⟩

theorem read_eq_ok : disk.read path = .ok text ↔ pathError? path = none ∧
    (∃ spot, disk.follow (disk.partsFromRoot path) = .ok spot) ∧
    disk.root.at? (landing (disk.partsFromRoot path)) = some (.file text) := by
  rw [read, bind_eq_ok, spot]
  cases pathError? path with
  | some error => simp
  | none =>
    constructor
    · rintro ⟨spot, followed, found⟩
      refine ⟨rfl, ⟨spot, followed⟩, ?_⟩
      rw [← (isAt_of_follow followed).entry_eq]
      rcases same : spot.entry with _ | _ | _ <;> rw [same] at found <;> cases found
      rfl
    · rintro ⟨-, ⟨spot, followed⟩, found⟩
      rw [← (isAt_of_follow followed).entry_eq] at found
      exact ⟨spot, followed, by rw [found]; rfl⟩

theorem locate_eq_ok {name : String} (located : disk.locate path = .ok (spot, name)) :
    let parts := (disk.partsFromRoot path).reverse.dropWhile (· = "")
    pathError? path = none ∧ name = parts.headD "" ∧ disk.root.HasFolder spot.names ∧
      spot.IsAt disk.root spot.names ∧ spot.names = landing (parts.drop 1).reverse ∧
      ∃ other, disk.follow (parts.drop 1).reverse = .ok other := by
  intro parts
  rw [locate] at located
  cases refused : pathError? path with
  | some error => simp [refused, bind, Except.bind, throw, throwThe, MonadExceptOf.throw] at located
  | none =>
    simp only [refused] at located
    obtain ⟨other, followed, located⟩ := bind_eq_ok.mp located
    obtain ⟨last, stayed, located⟩ := bind_eq_ok.mp located
    cases located
    have isAt := Spot.isAt_of_follow (isAt_of_follow followed) stayed
    rw [turn, if_pos (.inr rfl)] at isAt
    rw [isAt.names_eq]
    exact ⟨rfl, rfl, (Spot.hasFolder_of_follow (isAt_of_follow followed) stayed).1, isAt, rfl, other, followed⟩

theorem inside_eq {root : Entry} {names : List String} (isAt : spot.IsAt root names) (name : String) :
    inside spot name = root.at? (names ++ [name]) := by
  rw [inside, isAt.entry_eq, Entry.at?_concat]

theorem mem_texts_of_read (read : disk.read path = .ok text) : text ∈ (disk.root.texts "").map (·.2) :=
  Entry.mem_texts_of_at? "" (read_eq_ok.mp read).2.2

/-- Nothing is lost on a disk: folders stay, and files with their texts. -/
structure Grows (disk after : Disk) : Prop where
  current : after.current = disk.current
  folders : ∀ names, disk.root.HasFolder names → after.root.HasFolder names
  files : ∀ names text, disk.root.at? names = some (.file text) → after.root.at? names = some (.file text)

theorem Grows.refl (disk : Disk) : Grows disk disk := ⟨rfl, fun _ => id, fun _ _ => id⟩

theorem Grows.trans {last : Disk} (first : Grows disk after) (second : Grows after last) : Grows disk last :=
  ⟨second.current.trans first.current, fun names had => second.folders names (first.folders names had),
    fun names text found => second.files names text (first.files names text found)⟩

theorem partsFromRoot_congr (current : after.current = disk.current) (path : String) :
    after.partsFromRoot path = disk.partsFromRoot path := by
  rw [partsFromRoot, partsFromRoot, current]

theorem Grows.read (grows : Grows disk after) (held : disk.read path = .ok text) : after.read path = .ok text := by
  rw [read_eq_ok] at held ⊢
  obtain ⟨usable, ⟨spot, followed⟩, found⟩ := held
  rw [partsFromRoot_congr grows.current]
  exact ⟨usable, follow_of_follow grows.folders followed, grows.files _ _ found⟩

theorem grows_of_makeFolder (made : disk.makeFolder path = .ok after) : Grows disk after := by
  rw [makeFolder] at made
  obtain ⟨⟨spot, name⟩, located, made⟩ := bind_eq_ok.mp made
  obtain ⟨-, -, around, isAt, -⟩ := locate_eq_ok located
  dsimp only at made
  split at made
  · cases made
  · next absent =>
    split at made
    · cases made
    · cases made
      have nothing : disk.root.at? (spot.names ++ [name]) = none := by
        rw [← inside_eq isAt]
        simpa using fun some => absent (.inr (.inr (.inr some)))
      have free : ¬ disk.root.HasFolder (spot.names ++ [name]) := fun ⟨_, folder⟩ => by
        rw [nothing] at folder
        cases folder
      refine ⟨rfl, fun names had => Entry.hasFolder_put_of_hasFolder free had, fun names text found => ?_⟩
      refine Entry.file_put_of_file around free (fun same => ?_) found
      rw [same, nothing] at found
      cases found

/-- A text is written where some names lead. Folders stay, and all other files. -/
structure Writes (disk after : Disk) (target : List String) (text : String) : Prop where
  current : after.current = disk.current
  folders : ∀ names, disk.root.HasFolder names → after.root.HasFolder names
  file : after.root.at? target = some (.file text)
  others : ∀ names other, names ≠ target → disk.root.at? names = some (.file other) →
    after.root.at? names = some (.file other)

theorem write_eq_ok (written : disk.write path text = .ok after) :
    ∃ spot name, disk.locate path = .ok (spot, name) ∧ name.utf8ByteSize ≤ nameLimit ∧
      Writes disk after (spot.names ++ [name]) text := by
  rw [write] at written
  obtain ⟨⟨spot, name⟩, located, written⟩ := bind_eq_ok.mp written
  obtain ⟨-, -, around, isAt, -⟩ := locate_eq_ok located
  dsimp only at written
  split at written
  · cases written
  · split at written
    · cases written
    · next short =>
      split at written
      · cases written
      · next notFolder =>
        cases written
        have free : ¬ disk.root.HasFolder (spot.names ++ [name]) := fun ⟨_, folder⟩ => by
          rw [inside_eq isAt, folder] at notFolder
          exact notFolder rfl
        exact ⟨spot, name, located, Nat.not_lt.mp short, rfl, fun names had => Entry.hasFolder_put_of_hasFolder free had,
          Entry.at?_put _ _ _, fun names other ne found => Entry.file_put_of_file around free ne found⟩

end Disk

/-- What can be the name of a file. -/
structure IsFileName (name : String) : Prop where
  inOnePart : '/' ∉ name.toList
  ne_empty : name ≠ ""
  ne_here : name ≠ "."
  ne_up : name ≠ ".."

theorem pathParts_name {name : String} (inOnePart : '/' ∉ name.toList) : pathParts name = [name] := by
  have whole : name.toList.splitOnP (· = '/') = [name.toList] :=
    List.splitOnP_eq_singleton fun character member => decide_eq_false fun slash => inOnePart (slash ▸ member)
  rw [pathParts, whole, List.map_singleton, String.ofList_toList]

theorem pathParts_slash (folder : String) {name : String} (inOnePart : '/' ∉ name.toList) :
    pathParts (folder ++ "/" ++ name) = pathParts folder ++ [name] := by
  have letters : (folder ++ "/" ++ name).toList = folder.toList ++ '/' :: name.toList := by simp
  rw [pathParts, letters, List.splitOnP_append_cons _ _ (by decide), List.map_append, ← pathParts, ← pathParts,
    pathParts_name inOnePart]

theorem isAbsolute_append {folder : String} (named : folder ≠ "") (rest : String) :
    isAbsolute (folder ++ rest) = isAbsolute folder := by
  rw [isAbsolute, isAbsolute, String.toList_append, List.head?_append_of_ne_nil]
  simpa using named

namespace Disk

variable {disk after : Disk} {folder name other text : String}

/-- The parts of a path into a folder, without that of the file. -/
def front (disk : Disk) (folder : String) : List String :=
  if folder.isEmpty then disk.current
  else if folder.toList.getLast? = some '/' then (disk.partsFromRoot folder).dropLast
  else disk.partsFromRoot folder

theorem partsFromRoot_joinPath (disk : Disk) (folder : String) (isName : IsFileName name) :
    disk.partsFromRoot (joinPath folder name) = disk.front folder ++ [name] := by
  rw [joinPath, front]
  split
  · have relative : isAbsolute name = false := decide_eq_false fun head => isName.inOnePart (List.mem_of_head? head)
    rw [partsFromRoot, relative, if_neg Bool.false_ne_true, pathParts_name isName.inOnePart]
  · next named =>
    have named : folder ≠ "" := by simpa using named
    split
    · next slash =>
      obtain ⟨letters, same⟩ := List.getLast?_eq_some_iff.mp slash
      obtain rfl : folder = String.ofList letters ++ "/" := by
        rw [← String.toList_inj, same]
        simp
      have ends := @pathParts_slash (String.ofList letters) "" (by simp)
      rw [String.append_empty] at ends
      rw [partsFromRoot, partsFromRoot, isAbsolute_append named, pathParts_slash _ isName.inOnePart, ends]
      split <;> simp [← List.append_assoc]
    · rw [partsFromRoot, partsFromRoot, String.append_assoc, isAbsolute_append named, ← String.append_assoc,
        pathParts_slash _ isName.inOnePart]
      split <;> simp [← List.append_assoc]

theorem landing_front (disk : Disk) (folder : String) (isName : IsFileName name) :
    landing (disk.front folder ++ [name]) = landing (disk.front folder) ++ [name] := by
  rw [landing, List.foldl_concat, turn, if_neg (not_or.mpr ⟨isName.ne_empty, isName.ne_here⟩), if_neg isName.ne_up, landing]

/-- A file in a folder that is written to is the one that is read. -/
theorem writes_joinPath (isName : IsFileName name) (written : disk.write (joinPath folder name) text = .ok after) :
    Writes disk after (landing (disk.front folder) ++ [name]) text ∧ after.read (joinPath folder name) = .ok text := by
  obtain ⟨spot, last, located, short, writes⟩ := write_eq_ok written
  obtain ⟨usable, isLast, had, -, landed, other, followed⟩ := locate_eq_ok located
  rw [partsFromRoot_joinPath disk folder isName, List.reverse_concat,
    List.dropWhile_cons_of_neg (by simpa using isName.ne_empty)] at isLast landed followed
  rw [List.drop_one, List.tail_cons, List.reverse_reverse] at landed followed
  rw [List.headD_cons] at isLast
  subst isLast
  -- the text is where the path is read: its front leads to the same folder as before
  rw [landed] at writes had
  refine ⟨writes, read_eq_ok.mpr ⟨usable, ?_, ?_⟩⟩
  · obtain ⟨again, followed⟩ := follow_of_follow writes.folders followed
    obtain ⟨next, found, -⟩ := Spot.follow_of_hasFolder (isAt_of_follow followed) (writes.folders _ had)
      (.inr (.inr (.inr short)))
    exact ⟨next, by
      rw [partsFromRoot_congr writes.current, partsFromRoot_joinPath disk folder isName]
      exact follow_concat_eq_ok.mpr ⟨again, followed, found⟩⟩
  · rw [partsFromRoot_congr writes.current, partsFromRoot_joinPath disk folder isName, landing_front disk folder isName]
    exact writes.file

/-- The other files in the folder keep their texts. -/
theorem read_of_writes {held : String} (writes : Writes disk after (landing (disk.front folder) ++ [name]) text)
    (isName : IsFileName other) (ne : other ≠ name) (read : disk.read (joinPath folder other) = .ok held) :
    after.read (joinPath folder other) = .ok held := by
  obtain ⟨usable, ⟨spot, followed⟩, found⟩ := read_eq_ok.mp read
  refine read_eq_ok.mpr ⟨usable, ?_, ?_⟩
  · rw [partsFromRoot_congr writes.current]
    exact follow_of_follow writes.folders followed
  · rw [partsFromRoot_congr writes.current]
    refine writes.others _ _ ?_ found
    rw [partsFromRoot_joinPath disk folder isName, landing_front disk folder isName]
    simpa using ne

end Disk

end TypedTree.CommandLine
