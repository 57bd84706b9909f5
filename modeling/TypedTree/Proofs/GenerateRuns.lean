import Mathlib.Data.List.Basic
import TypedTree.CommandLine.Disk
import TypedTree.CommandLine.Run
import TypedTree.Proofs.ListEffects

/-! Runs of `generate` on a disk. What an input gives depends on its file and the configuration alone, so a run of many inputs
tells of each what a run of that input alone tells. -/

namespace TypedTree.CommandLine

open ListEffects (failure?)

/-- How a part of a command ends that is begun in a world, and the world behind it. -/
def outcome {α : Type} (step : ExceptT Failure (StateM World) α) (world : World) : Except Failure α × World :=
  step.run.run world

section

variable {α β : Type}

@[simp] theorem outcome_pure (value : α) (world : World) : outcome (pure value) world = (.ok value, world) := rfl

theorem outcome_bind (step : ExceptT Failure (StateM World) α) (next : α → ExceptT Failure (StateM World) β) (world : World) :
    outcome (step >>= next) world =
      match outcome step world with
      | (.ok value, after) => outcome (next value) after
      | (.error failure, after) => (.error failure, after) := by
  change _ = match step world with
    | (.ok value, after) => outcome (next value) after
    | (.error failure, after) => (.error failure, after)
  change (ExceptT.bindCont next (step world).1) (step world).2 = _
  rcases step world with ⟨_ | _, after⟩ <;> rfl

theorem outcome_bind_of_ok {step : ExceptT Failure (StateM World) α} {world after : World} {value : α}
    (done : outcome step world = (.ok value, after)) (next : α → ExceptT Failure (StateM World) β) :
    outcome (step >>= next) world = outcome (next value) after := by
  rw [outcome_bind, done]

@[simp] theorem outcome_lift (action : StateM World α) (world : World) :
    outcome (liftM action) world = (.ok (action world).1, (action world).2) := rfl

theorem outcome_attempt {ε : Type} (action : StateM World (Except ε α)) (failure : ε → Failure) (world : World) :
    outcome (attempt action failure) world = ((action world).1.mapError failure, (action world).2) := by
  refine (outcome_bind_of_ok (outcome_lift action world) _).trans ?_
  cases (action world).1 <;> rfl

/-- Steps that change nothing, one for each item. -/
theorem outcome_mapM {step : α → ExceptT Failure (StateM World) β} {result : α → β} {world : World} {items : List α}
    (each : ∀ item ∈ items, outcome (step item) world = (.ok (result item), world)) :
    outcome (items.mapM step) world = (.ok (items.map result), world) := by
  induction items with
  | nil => rfl
  | cons item items ih =>
    obtain ⟨here, others⟩ := List.forall_mem_cons.mp each
    rw [List.mapM_cons, outcome_bind_of_ok here, outcome_bind_of_ok (ih others)]
    rfl

/-- A part of a command that leaves the world as it is, however it ends. -/
def OnlyReads (step : ExceptT Failure (StateM World) α) : Prop := ∀ world, (outcome step world).2 = world

theorem OnlyReads.bind {step : ExceptT Failure (StateM World) α} {next : α → ExceptT Failure (StateM World) β}
    (first : OnlyReads step) (later : ∀ value, OnlyReads (next value)) : OnlyReads (step >>= next) := by
  intro world
  have same := first world
  rw [outcome_bind]
  rcases done : outcome step world with ⟨_ | value, after⟩ <;> rw [done] at same
  · exact same
  · exact (later value after).trans same

theorem onlyReads_pure (value : α) : OnlyReads (pure value) := fun _ => rfl

theorem onlyReads_throw (failure : Failure) : OnlyReads (throw failure : ExceptT Failure (StateM World) α) := fun _ => rfl

theorem onlyReads_attempt {ε : Type} {action : StateM World (Except ε α)} (reads : ∀ world, (action world).2 = world)
    (failure : ε → Failure) : OnlyReads (attempt action failure) := by
  intro world
  rw [outcome_attempt]
  exact reads world

theorem read_eq (path : String) (world : World) :
    (Host.read path : StateM World (Except SystemError String)) world = (world.disk.read path, world) := rfl

theorem step_bind (action : StateM World α) (next : α → StateM World β) (world : World) :
    (action >>= next) world = next (action world).1 (action world).2 := rfl

theorem load_eq (path : String) (ofText : String → Except Error α) (world : World) :
    (load path ofText : StateM World (Except Error α)) world =
      ((world.disk.read path).mapError (fun error => .system error.message) >>= ofText, world) := by
  rw [load, step_bind, read_eq]
  cases world.disk.read path <;> rfl

theorem onlyReads_loadOption (path : String) (decoder : Json.Decoder α) : OnlyReads (loadOption path decoder) := by
  refine (onlyReads_attempt (fun world => congrArg Prod.snd (read_eq path world)) _).bind fun text => ?_
  split
  · exact onlyReads_pure _
  · exact onlyReads_throw _

theorem onlyReads_replaceFrom (path : Option String) (decoder : Json.Decoder α) (replace : α → Config) (config : Config) :
    OnlyReads (replaceFrom path decoder replace config) := by
  cases path with
  | some path => exact (onlyReads_loadOption path decoder).bind fun _ => onlyReads_pure _
  | none => exact onlyReads_pure config

theorem onlyReads_loadFile (options : ConfigOptions) : OnlyReads options.loadFile := by
  rw [ConfigOptions.loadFile]
  split
  · exact onlyReads_attempt (fun world => congrArg Prod.snd (load_eq _ _ world)) _
  · exact onlyReads_pure _

theorem onlyReads_load (options : ConfigOptions) : OnlyReads options.load :=
  (onlyReads_loadFile options).bind fun _ => .bind (onlyReads_replaceFrom _ _ _ _) fun _ =>
    .bind (onlyReads_replaceFrom _ _ _ _) fun _ => .bind (onlyReads_replaceFrom _ _ _ _) fun _ => onlyReads_pure _

end

/-- What an input gives on a disk: its model as text, or why there is none. -/
def modelText (disk : Disk) (config : Config) (input : String) : Except Failure String := do
  let text ← (disk.read input).mapError fun error => .grammarUnusable input (.system error.message)
  let grammar ← (Grammar.ofText text).mapError (.grammarUnusable input)
  let model ← (generate grammar config).mapError (.unresolved input)
  return model.toJson.indented

theorem generateFile_eq (config : Config) (input : String) (world : World) :
    (generateFile config input : StateM World (Except Failure String)) world =
      (modelText world.disk config input, world) := by
  rw [generateFile, step_bind, load_eq, modelText]
  cases world.disk.read input with
  | error => rfl
  | ok text =>
    simp only [Except.mapError, bind, Except.bind]
    cases Grammar.ofText text with
    | error => rfl
    | ok grammar =>
      dsimp only
      cases generate grammar config <;> rfl

theorem outcome_expandInputs {inputs : List String} (literal : ∀ input ∈ inputs, Glob.isPattern input = false)
    (world : World) : outcome (expandInputs inputs) world = (.ok inputs, world) := by
  have each : ∀ input ∈ inputs, outcome (expandInput input) world = (.ok [input], world) := by
    intro input member
    rw [expandInput, literal input member]
    rfl
  rw [expandInputs, outcome_bind_of_ok (outcome_mapM each), outcome_pure, ← List.flatMap_def, List.flatMap_singleton']

variable {options : GenerateOptions} {config : Config} {world : World}

/-- All files are read before the first model is written. -/
theorem outcome_runGenerate (loads : (outcome options.config.load world).1 = .ok config)
    (literal : ∀ input ∈ options.inputs, Glob.isPattern input = false) :
    outcome (runGenerate options) world = outcome (do
      let failed ← writeResults options.out
        (options.inputs.map fun input => (input, modelText world.disk config input))
      if failed ≠ 0 then throw (.grammarsFailed failed options.inputs.length)) world := by
  have loaded : outcome options.config.load world = (.ok config, world) := Prod.ext loads (onlyReads_load _ world)
  have each : ∀ input ∈ options.inputs,
      outcome (do
        let result ← liftM (generateFile config input : StateM World (Except Failure String))
        return (input, result)) world = (.ok (input, modelText world.disk config input), world) := by
    intro input _
    rw [outcome_bind_of_ok (outcome_lift _ _), generateFile_eq]
    rfl
  rw [runGenerate, outcome_bind_of_ok loaded, outcome_bind_of_ok (outcome_expandInputs literal world),
    outcome_bind_of_ok (outcome_mapM each)]

theorem isOk_iff {result : Except Failure String} : result.isOk = true ↔ ∃ text, result = .ok text := by
  cases result <;> simp [Except.isOk, Except.toBool]

/-- What is printed of a result. -/
def printed : Except Failure String → String
  | .ok text => text ++ "\n"
  | .error _ => ""

/-- What is complained about a result. -/
def complaint : Except Failure String → String
  | .ok _ => ""
  | .error failure => "✗ " ++ failure.message ++ "\n"

/-- How many of some results are failures. -/
def failures (results : List (Except Failure String)) : Nat := results.countP fun result => !result.isOk

theorem outcome_writeResults (inputs : List String) (result : String → Except Failure String) (world : World) :
    outcome (writeResults none (inputs.map fun input => (input, result input))) world =
      (.ok (failures (inputs.map result)),
        { world with
          output := world.output ++ String.join ((inputs.map result).map printed)
          errors := world.errors ++ String.join ((inputs.map result).map complaint) }) := by
  induction inputs generalizing world with
  | nil => simp [writeResults, failures]
  | cons input inputs ih =>
    rw [List.map_cons, List.map_cons]
    cases result input with
    | ok text =>
      have step : outcome (writeOutput none input text) world =
          (.ok (), { world with output := world.output ++ (text ++ "\n") }) := rfl
      rw [writeResults, outcome_bind_of_ok step, ih]
      simp [failures, printed, complaint, String.append_assoc, Except.isOk, Except.toBool]
    | error failure =>
      have step : outcome (liftM (Host.complain ("✗ " ++ failure.message ++ "\n") : StateM World Unit)) world =
          (.ok (), { world with errors := world.errors ++ ("✗ " ++ failure.message ++ "\n") }) := rfl
      rw [writeResults, outcome_bind_of_ok step, outcome_bind_of_ok (ih _)]
      simp [failures, printed, complaint, String.append_assoc, Except.isOk, Except.toBool]

/-- Without a folder to write to, the models are printed in the order of the inputs, and so are the failures. -/
theorem outcome_runGenerate_printing (toOutput : options.out = none)
    (loads : (outcome options.config.load world).1 = .ok config)
    (literal : ∀ input ∈ options.inputs, Glob.isPattern input = false) :
    let results := options.inputs.map (modelText world.disk config)
    outcome (runGenerate options) world =
      (if failures results = 0 then .ok () else .error (.grammarsFailed (failures results) options.inputs.length),
        { world with
          output := world.output ++ String.join (results.map printed)
          errors := world.errors ++ String.join (results.map complaint) }) := by
  intro results
  rw [outcome_runGenerate loads literal, toOutput, outcome_bind_of_ok (outcome_writeResults _ _ _)]
  by_cases none : failures results = 0
  · rw [if_pos none, if_neg (not_not_intro none)]
    rfl
  · rw [if_neg none, if_pos none]
    rfl

/-- What the program ends with when it is begun on a disk, and the world behind it. -/
def ran (arguments : List String) (disk : Disk) : Nat × World := (run arguments : StateM World Nat) (World.start disk)

/-- What the program ends with after its command. -/
def ending {α : Type} : Except Failure α × World → Nat × World
  | (.ok _, world) => (0, world)
  | (.error failure, world) => (1, { world with errors := world.errors ++ ("error: " ++ failure.message ++ "\n") })

variable {disk : Disk} {arguments : List String}

theorem ran_eq {command : Command} (parsed : Command.ofArguments arguments = some command) :
    ran arguments disk = ending (outcome command.run (World.start disk)) := by
  have begun : (ExceptT.run command.run : StateM World (Except Failure Unit)) (World.start disk) =
      outcome command.run (World.start disk) := rfl
  rw [ran, run, parsed]
  dsimp only
  rw [step_bind, begun]
  rcases outcome command.run (World.start disk) with ⟨_ | _, world⟩ <;> rfl

/-- The last line about some inputs: how many of them have failed, if any. -/
def summary (count total : Nat) : String :=
  if count = 0 then "" else "error: " ++ (Failure.grammarsFailed count total).message ++ "\n"

theorem run_generate (active : options.noOp = false) :
    (Command.generate options).run = (runGenerate options : ExceptT Failure (StateM World) Unit) := by
  rw [Command.run, active]
  rfl

theorem ran_generate (parsed : Command.ofArguments arguments = some (.generate options)) (active : options.noOp = false)
    (toOutput : options.out = none) (loads : (outcome options.config.load (World.start disk)).1 = .ok config)
    (literal : ∀ input ∈ options.inputs, Glob.isPattern input = false) :
    let results := options.inputs.map (modelText disk config)
    ran arguments disk = (if failures results = 0 then 0 else 1,
      ⟨disk, String.join (results.map printed),
        String.join (results.map complaint) ++ summary (failures results) options.inputs.length⟩) := by
  intro results
  rw [ran_eq parsed, run_generate active, outcome_runGenerate_printing toOutput loads literal, World.start, summary]
  by_cases none : failures (options.inputs.map (modelText disk config)) = 0 <;> simp [results, none, ending]

theorem modelText_eq_ok {input text : String} : modelText disk config input = .ok text ↔
    ∃ source grammar model, disk.read input = .ok source ∧ Grammar.ofText source = .ok grammar ∧
      generate grammar config = .ok model ∧ text = model.toJson.indented := by
  rw [modelText]
  cases disk.read input with
  | error => simp [Except.mapError, bind, Except.bind]
  | ok source =>
    cases made : Grammar.ofText source with
    | error => simp [made, Except.mapError, bind, Except.bind]
    | ok grammar =>
      cases resolved : generate grammar config with
      | error => simp [made, resolved, Except.mapError, bind, Except.bind]
      | ok model => simp [made, resolved, Except.mapError, bind, Except.bind, pure, Except.pure, eq_comm]

/-- Only what is not empty is seen in a joined text. -/
theorem join_map_filter (shown : String → String) {kept : String → Bool} {inputs : List String}
    (dropped : ∀ input, kept input = false → shown input = "") :
    String.join (inputs.map shown) = String.join ((inputs.filter kept).map shown) := by
  induction inputs with
  | nil => rfl
  | cons input inputs ih =>
    cases keeps : kept input with
    | true => simp [keeps, ih]
    | false => simp [keeps, dropped input keeps, ih]

section

variable (inputs : List String) (result : String → Except Failure String)

theorem join_printed : String.join ((inputs.map result).map printed) =
    String.join ((inputs.filter fun input => (result input).isOk).map fun input => printed (result input)) := by
  rw [List.map_map]
  refine join_map_filter _ fun input failed => ?_
  rw [Function.comp_apply]
  cases made : result input with
  | ok => simp [made, Except.isOk, Except.toBool] at failed
  | error => rfl

theorem join_complaints : String.join ((inputs.map result).map complaint) =
    String.join ((inputs.filter fun input => !(result input).isOk).map fun input => complaint (result input)) := by
  rw [List.map_map]
  refine join_map_filter _ fun input works => ?_
  rw [Function.comp_apply]
  cases made : result input with
  | ok => rfl
  | error => simp [made, Except.isOk, Except.toBool] at works

theorem failures_map : failures (inputs.map result) = (inputs.filter fun input => !(result input).isOk).length := by
  rw [failures, List.countP_map, List.countP_eq_length_filter]
  rfl

end

/-- What the program ends with for one input that gives a result. -/
def lone (disk : Disk) : Except Failure String → Nat × World
  | .ok text => (0, ⟨disk, text ++ "\n", ""⟩)
  | .error failure => (1, ⟨disk, "", "✗ " ++ failure.message ++ "\n" ++ "error: 1 of 1 grammars failed\n"⟩)

theorem lone_code (disk : Disk) (result : Except Failure String) : (lone disk result).1 = 0 ↔ result.isOk = true := by
  cases result <;> simp [lone, Except.isOk, Except.toBool]

theorem ran_alone {input : String}
    (parsed : Command.ofArguments arguments = some (.generate { options with inputs := [input] }))
    (active : options.noOp = false) (toOutput : options.out = none)
    (loads : (outcome options.config.load (World.start disk)).1 = .ok config) (literal : Glob.isPattern input = false) :
    ran arguments disk = lone disk (modelText disk config input) := by
  have all : ∀ other ∈ [input], Glob.isPattern other = false := List.forall_mem_singleton.mpr literal
  rw [ran_generate parsed active toOutput loads all]
  dsimp only
  rw [List.map_singleton]
  cases modelText disk config input with
  | ok text => simp [failures, printed, complaint, summary, lone, Except.isOk, Except.toBool]
  | error failure =>
    simp [failures, printed, complaint, summary, lone, Except.isOk, Except.toBool]
    rfl

/-- A run of some inputs puts together what the runs of each input alone tell: the models of the inputs that have one, and
one message for each of the others. It fails if there are any of these, and says at the end how many. -/
structure PutsTogether (disk : Disk) (config : Config) (inputs : List String) (alone : String → Nat × World)
    (failure : String → Failure) (together : Nat × World) : Prop where
  works : ∀ input ∈ inputs, (alone input).1 = 0 →
    ∃ source grammar model, disk.read input = .ok source ∧ Grammar.ofText source = .ok grammar ∧
      generate grammar config = .ok model ∧ alone input = (0, ⟨disk, model.toJson.indented ++ "\n", ""⟩)
  fails : ∀ input ∈ inputs, (alone input).1 ≠ 0 →
    modelText disk config input = .error (failure input) ∧ alone input =
      (1, ⟨disk, "", "✗ " ++ (failure input).message ++ "\n" ++ "error: 1 of 1 grammars failed\n"⟩)
  disk_eq : together.2.disk = disk
  output_eq : together.2.output =
    String.join ((inputs.filter fun input => (alone input).1 = 0).map fun input => (alone input).2.output)
  errors_eq : together.2.errors =
    String.join ((inputs.filter fun input => (alone input).1 ≠ 0).map fun input => "✗ " ++ (failure input).message ++ "\n") ++
      summary (inputs.filter fun input => (alone input).1 ≠ 0).length inputs.length
  code : together.1 = if ∃ input ∈ inputs, (alone input).1 ≠ 0 then 1 else 0

/-- A grammar that cannot be used does not affect the others. -/
theorem ran_separately (parsed : Command.ofArguments arguments = some (.generate options)) (active : options.noOp = false)
    (toOutput : options.out = none) (loads : (outcome options.config.load (World.start disk)).1 = .ok config)
    (literal : ∀ input ∈ options.inputs, Glob.isPattern input = false) (alone : String → List String)
    (single : ∀ input ∈ options.inputs,
      Command.ofArguments (alone input) = some (.generate { options with inputs := [input] })) :
    ∃ failure : String → Failure,
      PutsTogether disk config options.inputs (fun input => ran (alone input) disk) failure (ran arguments disk) := by
  -- both kinds of runs are told by the results, which no run changes for the next input
  have ends : ∀ input ∈ options.inputs, ran (alone input) disk = lone disk (modelText disk config input) :=
    fun input member => ran_alone (single input member) active toOutput loads (literal input member)
  have works : ∀ input ∈ options.inputs, (ran (alone input) disk).1 = 0 ↔ (modelText disk config input).isOk = true :=
    fun input member => by rw [ends input member, lone_code]
  have working : (options.inputs.filter fun input => (ran (alone input) disk).1 = 0) =
      options.inputs.filter fun input => (modelText disk config input).isOk :=
    List.filter_congr fun input member => by simp [works input member]
  have failing : (options.inputs.filter fun input => (ran (alone input) disk).1 ≠ 0) =
      options.inputs.filter fun input => !(modelText disk config input).isOk :=
    List.filter_congr fun input member => by simp [works input member]
  have told := ran_generate parsed active toOutput loads literal
  refine ⟨fun input => (failure? (modelText disk config input)).getD (.system .notFound), ?_⟩
  constructor
  case works =>
    intro input member zero
    obtain ⟨text, made⟩ := isOk_iff.mp ((works input member).mp zero)
    obtain ⟨source, grammar, model, found, read, generated, rfl⟩ := modelText_eq_ok.mp made
    exact ⟨source, grammar, model, found, read, generated, by rw [ends input member, made, lone]⟩
  case fails =>
    intro input member nonzero
    rw [ends input member] at nonzero ⊢
    cases made : modelText disk config input with
    | ok => simp [made, lone] at nonzero
    | error failure => exact ⟨rfl, rfl⟩
  case disk_eq => rw [told]
  case output_eq =>
    rw [told, join_printed, working]
    refine congrArg String.join (List.map_congr_left fun input member => ?_)
    rw [ends input (List.mem_of_mem_filter member)]
    cases modelText disk config input <;> rfl
  case errors_eq =>
    rw [told, join_complaints, failures_map, failing]
    refine congrArg (String.join · ++ _) (List.map_congr_left fun input member => ?_)
    have fails := List.of_mem_filter member
    cases made : modelText disk config input with
    | ok => simp [made, Except.isOk, Except.toBool] at fails
    | error => rfl
  case code =>
    have some : (∃ input ∈ options.inputs, (ran (alone input) disk).1 ≠ 0) ↔
        failures (options.inputs.map (modelText disk config)) ≠ 0 := by
      rw [failures_map, ← failing, ne_eq, List.length_eq_zero_iff, List.filter_eq_nil_iff]
      simp
    rw [told]
    by_cases none : failures (options.inputs.map (modelText disk config)) = 0 <;> simp [some, none]

/-- A grammar without node types, and one with a supertype of nothing. -/
def pile : Disk :=
  ⟨.folder [("empty.json", .file "[]"),
    ("bare.json", .file "[\x7b\"type\": \"pet\", \"named\": true, \"subtypes\": []\x7d]")], []⟩

theorem ran_separately_pile :
    let arguments (inputs : List String) := ["generate", "--package=pets"] ++ inputs.map ("--input=" ++ ·)
    let inputs := ["bare.json", "empty.json", "lost.json", "empty.json"]
    (∃ failure, PutsTogether pile { Config.default with package := "pets" } inputs
      (fun input => ran (arguments [input]) pile) failure (ran (arguments inputs) pile)) ∧
    (ran (arguments inputs) pile).1 = 1 ∧
    (ran (arguments inputs) pile).2.output =
      "\x7b\n  \"declarations\": []\n\x7d\n\x7b\n  \"declarations\": []\n\x7d\n" ∧
    (ran (arguments inputs) pile).2.errors =
      "✗ failed to resolve grammar (bare.json): Supertype 'pet' has less than 2 subtypes\n" ++
      "✗ failed to load grammar (lost.json): No such file or directory (os error 2)\n" ++
      "error: 2 of 4 grammars failed\n" := by
  intro arguments inputs
  let options : GenerateOptions := ⟨inputs, ⟨none, some "pets", none, none, none, none, none, none⟩, none, false⟩
  have parsed : Command.ofArguments (arguments inputs) = some (.generate options) := by decide +kernel
  have literal : ∀ input ∈ options.inputs, Glob.isPattern input = false := by decide +kernel
  have single : ∀ input ∈ options.inputs,
      Command.ofArguments (arguments [input]) = some (.generate { options with inputs := [input] }) := by decide +kernel
  exact ⟨ran_separately parsed rfl rfl rfl literal _ single, by decide +kernel, by decide +kernel, by decide +kernel⟩

end TypedTree.CommandLine
