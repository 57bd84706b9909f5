import TypedTree.Proofs.DiskWrites
import TypedTree.Proofs.GenerateRuns

/-! The files that `generate` writes to a folder. There is one for each name of an output, and of the inputs that share a
name the last one has it. -/

namespace TypedTree.CommandLine

theorem inOnePart_of_mem_pathParts {path part : String} (member : part ∈ pathParts path) : '/' ∉ part.toList := by
  have parts (letters : List Char) : ∀ part ∈ letters.splitOnP (· = '/'), '/' ∉ part := by
    induction letters with
    | nil => simp
    | cons letter letters ih =>
      rw [List.splitOnP_cons_eq_if_modifyHead]
      by_cases slash : letter = '/'
      · simpa [slash] using ih
      · cases whole : letters.splitOnP (· = '/') with
        | nil => exact absurd whole (List.splitOnP_ne_nil _ _)
        | cons first rest =>
          rw [whole, List.forall_mem_cons] at ih
          simpa [slash, Ne.symm slash] using ih
  obtain ⟨letters, among, rfl⟩ := List.mem_map.mp member
  rw [String.toList_ofList]
  exact parts _ _ among

theorem inOnePart_fileStem? {path stem : String} (found : fileStem? path = some stem) : '/' ∉ stem.toList := by
  obtain ⟨name, named, rfl⟩ := Option.map_eq_some_iff.mp found
  have plain : '/' ∉ name.toList := by
    have last : (pathSteps path).getLast? = some name := by
      rw [fileName?] at named
      split at named
      · cases named
      · exact named
    exact inOnePart_of_mem_pathParts (List.mem_of_mem_filter (List.mem_of_getLast? last))
  dsimp only
  split
  · exact plain
  · rw [String.toList_ofList, List.mem_reverse]
    exact fun slash => plain (List.mem_reverse.mp ((List.dropWhile_sublist _).subset (List.mem_of_mem_drop slash)))

/-- The ending keeps the name of an output from being a step in a path. -/
theorem isFileName_outputName (path : String) : IsFileName (outputName path) := by
  have longer (stem : String) : 4 ≤ (stem ++ ".types.json").toList.length := by simp
  have ne {other : String} (short : other.toList.length < 4) : outputName path ≠ other := fun same => by
    have := longer ((fileStem? path).getD "node-types")
    rw [← outputName, same] at this
    omega
  refine ⟨?_, ne (by decide), ne (by decide), ne (by decide)⟩
  rw [outputName, String.toList_append, List.mem_append, not_or]
  refine ⟨?_, by decide⟩
  cases found : fileStem? path with
  | none => decide
  | some stem => exact inOnePart_fileStem? found

section

variable {α β : Type}

/-- An action that only adds to the disk, files and folders that were not there. -/
def OnlyGrows (action : StateM World α) : Prop :=
  ∀ world, ∃ result disk, action world = (result, { world with disk }) ∧ world.disk.Grows disk

theorem onlyGrows_pure (value : α) : OnlyGrows (pure value) := fun world => ⟨value, world.disk, rfl, .refl _⟩

theorem OnlyGrows.bind {action : StateM World α} {next : α → StateM World β} (first : OnlyGrows action)
    (later : ∀ value, OnlyGrows (next value)) : OnlyGrows (action >>= next) := by
  intro world
  obtain ⟨value, disk, begun, grows⟩ := first world
  obtain ⟨result, last, ended, more⟩ := later value { world with disk }
  exact ⟨result, last, by rw [step_bind, begun, ended], grows.trans more⟩

theorem change_eq (f : Disk → Except SystemError Disk) (world : World) :
    change f world = match f world.disk with
      | .ok disk => (.ok (), { world with disk })
      | .error error => (.error error, world) := by
  rw [change, step_bind]
  change (match f world.disk with
    | .ok disk => do
      modify fun world => { world with disk }
      return .ok ()
    | .error error => return .error error : StateM World (Except SystemError Unit)) world = _
  cases f world.disk <;> rfl

theorem onlyGrows_makeFolder (path : String) : OnlyGrows (Host.makeFolder path) := by
  intro world
  change ∃ result disk, change (fun disk => disk.makeFolder path) world = _ ∧ _
  rw [change_eq]
  cases made : world.disk.makeFolder path with
  | error error => exact ⟨.error error, world.disk, rfl, .refl _⟩
  | ok disk => exact ⟨.ok (), disk, rfl, Disk.grows_of_makeFolder made⟩

theorem onlyGrows_acceptFolder (folder : String) (result : Except SystemError Unit) :
    OnlyGrows (acceptFolder folder result) := by
  refine OnlyGrows.bind (fun world => ⟨_, world.disk, rfl, .refl _⟩) fun isFolder => ?_
  split <;> exact onlyGrows_pure _

theorem onlyGrows_makeFolders (folders : List String) : OnlyGrows (makeFolders folders) := by
  induction folders with
  | nil => exact onlyGrows_pure _
  | cons folder around ih =>
    rw [makeFolders]
    refine (onlyGrows_makeFolder folder).bind fun result => ?_
    split
    · refine ih.bind fun made => ?_
      split
      · exact (onlyGrows_makeFolder folder).bind fun _ => onlyGrows_acceptFolder _ _
      · exact onlyGrows_pure _
    · exact onlyGrows_acceptFolder _ _

end

/-- Whether a command has failed because the system did not let it read or write. -/
def Failure.isSystem : Failure → Bool
  | .system _ | .unwritable _ _ => true
  | _ => false

/-- A part of a command that ends because of the system. -/
def Refused {α : Type} (step : ExceptT Failure (StateM World) α) (world : World) : Prop :=
  ∃ failure after, outcome step world = (.error failure, after) ∧ failure.isSystem = true

theorem Refused.bind {α β : Type} {step : ExceptT Failure (StateM World) α} {world : World} (refused : Refused step world)
    (next : α → ExceptT Failure (StateM World) β) : Refused (step >>= next) world := by
  obtain ⟨failure, after, ended, system⟩ := refused
  exact ⟨failure, after, by rw [outcome_bind, ended], system⟩

theorem refused_bind {α β : Type} {step : ExceptT Failure (StateM World) α} {world after : World} {value : α}
    (done : outcome step world = (.ok value, after)) {next : α → ExceptT Failure (StateM World) β}
    (refused : Refused (next value) after) : Refused (step >>= next) world := by
  rwa [Refused, outcome_bind_of_ok done]

theorem write_eq (path text : String) (world : World) :
    (Host.write path text : StateM World (Except SystemError Unit)) world = match world.disk.write path text with
      | .ok disk => (.ok (), { world with disk })
      | .error error => (.error error, world) := change_eq _ _

theorem outcome_writeFile (path text : String) (world : World) :
    Refused (writeFile path text) world ∨ ∃ ready disk, world.disk.Grows ready ∧ ready.write path text = .ok disk ∧
      outcome (writeFile path text) world = (.ok (), { world with disk }) := by
  obtain ⟨result, ready, made, grows⟩ := onlyGrows_makeFolders (foldersAround path) world
  rw [Refused, writeFile, outcome_bind, outcome_attempt, made]
  cases result with
  | error error => exact .inl ⟨_, _, rfl, rfl⟩
  | ok done =>
    dsimp only [Except.mapError]
    rw [outcome_attempt, write_eq]
    cases written : ready.write path text with
    | error error => exact .inl ⟨_, _, rfl, rfl⟩
    | ok disk => exact .inr ⟨ready, disk, grows, written, rfl⟩

/-- What is held by a file in a folder after some inputs were written to it: what is made of the last one with its name, or
else what was there before. -/
def lastText? (disk : Disk) (folder : String) (inputs : List String) (text : String → String) (name : String) : Option String :=
  ((inputs.reverse.find? fun input => outputName input = name).map text).or (disk.read (joinPath folder name)).toOption

variable {folder : String} {text : String → String}

/-- A text that is written for an input. -/
theorem outcome_writeOutput (folder input text : String) (world : World) :
    Refused (writeOutput (some folder) input text) world ∨
      ∃ disk, outcome (writeOutput (some folder) input text) world =
          (.ok (), ⟨disk, world.output, world.errors ++ ("✓ " ++ outputPath folder input ++ "\n")⟩) ∧
        disk.read (outputPath folder input) = .ok text ∧
        ∀ name held, IsFileName name → name ≠ outputName input → world.disk.read (joinPath folder name) = .ok held →
          disk.read (joinPath folder name) = .ok held := by
  rcases outcome_writeFile (outputPath folder input) text world with refused | ⟨ready, disk, grows, written, done⟩
  · exact .inl (refused.bind _)
  · obtain ⟨writes, read⟩ := Disk.writes_joinPath (isFileName_outputName input) written
    exact .inr ⟨disk, outcome_bind_of_ok done _, read, fun name held isName ne before =>
      Disk.read_of_writes writes isName ne (grows.read before)⟩

theorem lastText?_cons {disk after : Disk} {input name held : String} {inputs : List String} (isName : IsFileName name)
    (read : after.read (outputPath folder input) = .ok (text input))
    (keeps : ∀ name held, IsFileName name → name ≠ outputName input → disk.read (joinPath folder name) = .ok held →
      after.read (joinPath folder name) = .ok held)
    (holds : lastText? disk folder (input :: inputs) text name = some held) :
    lastText? after folder inputs text name = some held := by
  rw [lastText?, List.reverse_cons, List.find?_append, Option.map_or, Option.or_assoc] at holds
  rw [lastText?]
  generalize (inputs.reverse.find? fun input => outputName input = name) = later at holds ⊢
  cases later with
  | some later => exact holds
  | none =>
    -- no later input has the name, so it is this one or a file of before
    rw [Option.map_none, Option.none_or] at holds ⊢
    by_cases same : outputName input = name
    · subst same
      rw [outputPath] at read
      simpa [read, Except.toOption] using holds
    · have before : (disk.read (joinPath folder name)).toOption = some held := by simpa [same] using holds
      cases found : disk.read (joinPath folder name) with
      | error => simp [found, Except.toOption] at before
      | ok other =>
        rw [found] at before
        cases before
        rw [keeps name held isName (Ne.symm same) found]
        rfl

/-- The steps that write texts for some inputs. -/
def writeTexts (folder : String) (inputs : List String) (text : String → String) : ExceptT Failure (StateM World) Nat :=
  writeResults (some folder) (inputs.map fun input => (input, .ok (text input)))

/-- Written one after the other, of the inputs with the same name the last one stays. -/
theorem outcome_writeTexts (folder : String) (inputs : List String) (text : String → String) (world : World) :
    Refused (writeTexts folder inputs text) world ∨
      ∃ disk, outcome (writeTexts folder inputs text) world =
          (.ok 0, ⟨disk, world.output,
            world.errors ++ String.join (inputs.map fun input => "✓ " ++ outputPath folder input ++ "\n")⟩) ∧
        ∀ name held, IsFileName name → lastText? world.disk folder inputs text name = some held →
          disk.read (joinPath folder name) = .ok held := by
  induction inputs generalizing world with
  | nil =>
    refine .inr ⟨world.disk, by simp [writeTexts, writeResults], fun name held isName holds => ?_⟩
    rw [lastText?] at holds
    cases found : world.disk.read (joinPath folder name) <;> rw [found] at holds <;> cases holds
    rfl
  | cons input inputs ih =>
    rcases outcome_writeOutput folder input (text input) world with refused | ⟨disk, done, read, keeps⟩
    · exact .inl (refused.bind _)
    · rcases ih ⟨disk, world.output, world.errors ++ ("✓ " ++ outputPath folder input ++ "\n")⟩ with
        refused | ⟨last, ended, holds⟩
      · exact .inl (refused_bind done refused)
      · refine .inr ⟨last, ?_, fun name held isName lasts => holds name held isName (lastText?_cons isName read keeps lasts)⟩
        rw [List.map_cons, String.join_cons, ← String.append_assoc]
        exact (outcome_bind_of_ok done _).trans ended

/-- Each input has a file of its own in a folder, with its text. -/
def EachHasFile (disk : Disk) (folder : String) (inputs : List String) (text : String → String) : Prop :=
  ∃ name : String → String, (∀ input ∈ inputs, IsFileName (name input)) ∧
    (∀ input ∈ inputs, ∀ other ∈ inputs, name input = name other → input = other) ∧
    ∀ input ∈ inputs, disk.read (joinPath folder (name input)) = .ok (text input)

section

variable {arguments : List String} {options : GenerateOptions} {disk : Disk} {config : Config}

/-- If all inputs have models, a run comes down to writing these. -/
theorem ran_writeTexts (parsed : Command.ofArguments arguments = some (.generate options)) (active : options.noOp = false)
    (toFolder : options.out = some folder) (loads : (outcome options.config.load (World.start disk)).1 = .ok config)
    (literal : ∀ input ∈ options.inputs, Glob.isPattern input = false)
    (generates : ∀ input ∈ options.inputs, modelText disk config input = .ok (text input)) :
    ran arguments disk = ending (outcome (writeTexts folder options.inputs text) (World.start disk)) := by
  have results : (options.inputs.map fun input => (input, modelText disk config input)) =
      options.inputs.map fun input => (input, .ok (text input)) :=
    List.map_congr_left fun input member => by rw [generates input member]
  have begun := outcome_runGenerate loads literal
  rw [toFolder, World.start, results, ← writeTexts, ← World.start] at begun
  rw [ran_eq parsed, run_generate active, begun]
  rcases outcome_writeTexts folder options.inputs text (World.start disk) with ⟨failure, world, ended, -⟩ | ⟨after, done, -⟩
  · rw [outcome_bind, ended]
    rfl
  · rw [outcome_bind_of_ok done, if_neg (not_not_intro rfl), outcome_pure, done]
    rfl

/-- If all inputs have models, a run that the system refuses nothing to writes them to a folder. Where several inputs have an
output of the same name, it holds the model of the last one. All models are there if all of these names differ. -/
theorem ran_keepsLast (parsed : Command.ofArguments arguments = some (.generate options)) (active : options.noOp = false)
    (toFolder : options.out = some folder) (loads : (outcome options.config.load (World.start disk)).1 = .ok config)
    (literal : ∀ input ∈ options.inputs, Glob.isPattern input = false)
    (generates : ∀ input ∈ options.inputs, modelText disk config input = .ok (text input)) :
    ((ran arguments disk).1 ≠ 0 → ∃ (failure : Failure) (world : World), failure.isSystem = true ∧
      ran arguments disk = (1, { world with errors := world.errors ++ ("error: " ++ failure.message ++ "\n") })) ∧
    ((ran arguments disk).1 = 0 → ∃ after,
      ran arguments disk = (0, ⟨after, "",
        String.join (options.inputs.map fun input => "✓ " ++ outputPath folder input ++ "\n")⟩) ∧
      (∀ input ∈ options.inputs, ∃ last,
        options.inputs.reverse.find? (fun other => outputName other = outputName input) = some last ∧
          after.read (outputPath folder input) = .ok (text last)) ∧
      ((∀ input ∈ options.inputs, ∀ other ∈ options.inputs, outputName input = outputName other → input = other) →
        EachHasFile after folder options.inputs text)) := by
  rw [ran_writeTexts parsed active toFolder loads literal generates]
  rcases outcome_writeTexts folder options.inputs text (World.start disk) with refused | ⟨after, done, holds⟩
  · obtain ⟨failure, world, ended, system⟩ := refused
    rw [ended]
    exact ⟨fun _ => ⟨failure, world, system, rfl⟩, fun zero => absurd zero Nat.one_ne_zero⟩
  · rw [done]
    refine ⟨fun nonzero => absurd rfl nonzero, fun _ => ⟨after, by simp [World.start, ending], ?_⟩⟩
    have lasts : ∀ input ∈ options.inputs, ∃ last,
        options.inputs.reverse.find? (fun other => outputName other = outputName input) = some last ∧
          after.read (outputPath folder input) = .ok (text last) := by
      intro input member
      cases found : options.inputs.reverse.find? fun other => outputName other = outputName input with
      | none => exact absurd (List.find?_eq_none.mp found input (List.mem_reverse.mpr member)) (by simp)
      | some last =>
        exact ⟨last, rfl, holds _ _ (isFileName_outputName input) (by rw [lastText?, found]; rfl)⟩
    refine ⟨lasts, fun differ => ⟨outputName, fun input _ => isFileName_outputName input, differ, fun input member => ?_⟩⟩
    obtain ⟨last, found, read⟩ := lasts input member
    have same : last = input := differ last (List.mem_reverse.mp (List.mem_of_find?_eq_some found)) input member
      (by simpa using List.find?_some found)
    rwa [same] at read

end

/-- Two houses with a grammar of the usual name each, the second one with a copy of its grammar. -/
def houses : Disk :=
  let cats := Entry.file "[\x7b\"type\": \"cat\", \"named\": true\x7d]"
  ⟨.folder [
    ("a", .folder [("node-types.json", .file "[]")]),
    ("b", .folder [("node-types.json", cats), ("cats.json", cats)])], []⟩

def houseText (input : String) : String := (modelText houses .default input).toOption.getD ""

theorem modelText_houses : ∀ input ∈ ["a/node-types.json", "b/node-types.json", "b/cats.json"],
    modelText houses .default input = .ok (houseText input) := by
  have works : ∀ input ∈ ["a/node-types.json", "b/node-types.json", "b/cats.json"],
      (modelText houses .default input).isOk = true := by decide +kernel
  intro input member
  obtain ⟨text, made⟩ := isOk_iff.mp (works input member)
  rw [houseText, made]
  rfl

def houseOptions (inputs : List String) : GenerateOptions :=
  ⟨inputs, ⟨none, none, none, none, none, none, none, none⟩, some "out", false⟩

theorem ran_keepsLast_houses :
    let arguments := ["generate", "--input=a/node-types.json", "--input=b/cats.json", "--out=out"]
    ∃ after, ran arguments houses = (0, ⟨after, "", "✓ out/node-types.types.json\n✓ out/cats.types.json\n"⟩) ∧
      EachHasFile after "out" ["a/node-types.json", "b/cats.json"] houseText := by
  intro arguments
  let options := houseOptions ["a/node-types.json", "b/cats.json"]
  have parsed : Command.ofArguments arguments = some (.generate options) := by decide +kernel
  have literal : ∀ input ∈ options.inputs, Glob.isPattern input = false := by decide +kernel
  have generates : ∀ input ∈ options.inputs, modelText houses .default input = .ok (houseText input) :=
    fun input member => modelText_houses input (by revert input; decide)
  have works : (ran arguments houses).1 = 0 := by
    rw [ran_writeTexts parsed rfl rfl rfl literal generates]
    decide +kernel
  obtain ⟨after, ends, -, each⟩ := (ran_keepsLast parsed rfl rfl rfl literal generates).2 works
  exact ⟨after, ends, each (by decide +kernel)⟩

/-- The grammars of both houses are used, but there is one file for them, and the model of the first one is nowhere. -/
theorem overwritten_house :
    let arguments := ["generate", "--input=a/node-types.json", "--input=b/node-types.json", "--out=out"]
    let options := houseOptions ["a/node-types.json", "b/node-types.json"]
    Command.ofArguments arguments = some (.generate options) ∧
      (outcome options.config.load (World.start houses)).1 = .ok .default ∧ options.inputs.Nodup ∧
      (∀ input ∈ options.inputs, Glob.isPattern input = false) ∧
      (∀ input ∈ options.inputs, modelText houses .default input = .ok (houseText input)) ∧
      (ran arguments houses).1 = 0 ∧ ¬ EachHasFile (ran arguments houses).2.disk "out" options.inputs houseText := by
  intro arguments options
  have parsed : Command.ofArguments arguments = some (.generate options) := by decide +kernel
  have literal : ∀ input ∈ options.inputs, Glob.isPattern input = false := by decide +kernel
  have generates : ∀ input ∈ options.inputs, modelText houses .default input = .ok (houseText input) :=
    fun input member => modelText_houses input (by revert input; decide)
  refine ⟨parsed, rfl, by decide +kernel, literal, generates, ?_⟩
  rw [ran_writeTexts parsed rfl rfl rfl literal generates]
  refine ⟨by decide +kernel, fun ⟨name, _, _, held⟩ => ?_⟩
  -- a file with the lost model would be in the list of all texts, under whatever name
  have absent : houseText "a/node-types.json" ∉ ((ending (outcome (writeTexts "out" options.inputs houseText)
      (World.start houses))).2.disk.root.texts "").map (·.2) := by decide +kernel
  exact absent (Disk.mem_texts_of_read (held _ List.mem_cons_self))

end TypedTree.CommandLine
