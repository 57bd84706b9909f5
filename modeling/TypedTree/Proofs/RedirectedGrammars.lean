import TypedTree.Graph.Build
import TypedTree.Proofs.TableEntries

/-! Grammars whose node types mention other types instead of those that they name. The tokens stay as they are, and so
does everything that is known of the node types themselves. -/

namespace TypedTree

variable {instead : String → String}

def TypeMention.redirect (instead : String → String) (mention : TypeMention) : TypeMention :=
  if mention.named then { mention with name := instead mention.name } else mention

def Slot.redirect (instead : String → String) (slot : Slot) : Slot :=
  { slot with types := slot.types.map (·.redirect instead) }

def NodeType.redirect (instead : String → String) (type : NodeType) : NodeType :=
  { type with
    fields := type.fields.map (·.mapValues fun _ slot => slot.redirect instead)
    children := type.children.map (·.redirect instead)
    subtypes := type.subtypes.map (·.map (·.redirect instead)) }

def Grammar.redirect (instead : String → String) (grammar : Grammar) : Grammar :=
  ⟨grammar.nodeTypes.map (·.redirect instead)⟩

def ValidGrammar.redirect (instead : String → String) (grammar : ValidGrammar) : ValidGrammar :=
  { grammar with
    regular := grammar.regular.map (·.redirect instead)
    supertypes := grammar.supertypes.map (·.redirect instead) }

namespace TypeMention

variable {mention : TypeMention}

@[simp] theorem named_redirect : (mention.redirect instead).named = mention.named := by
  rw [redirect]
  split <;> rfl

theorem name_redirect (named : mention.named = true) : (mention.redirect instead).name = instead mention.name := by
  rw [redirect, if_pos named]

theorem redirect_of_unnamed (unnamed : mention.named = false) : mention.redirect instead = mention :=
  if_neg (by simp [unnamed])

@[simp] theorem redirect_id : mention.redirect id = mention := by
  rw [redirect]
  split <;> rfl

/-- The mentions with names are redirected, and there are no others. -/
theorem filter_redirect (mentions : List TypeMention) :
    ((mentions.map (·.redirect instead)).filter (·.named)).map (·.name) =
      ((mentions.filter (·.named)).map (·.name)).map instead := by
  rw [List.filter_map, List.map_map, List.map_map]
  simp only [Function.comp_def, named_redirect]
  exact List.map_congr_left fun mention member => name_redirect (List.mem_filter.mp member).2

end TypeMention

namespace Slot

variable {slot : Slot}

@[simp] theorem nodeTypes_redirect : (slot.redirect instead).nodeTypes = slot.nodeTypes.map instead :=
  TypeMention.filter_redirect slot.types

@[simp] theorem tokens_redirect : (slot.redirect instead).tokens = slot.tokens := by
  rw [tokens, tokens, redirect, List.filter_map, List.map_map]
  simp only [Function.comp_def, TypeMention.named_redirect]
  refine List.map_congr_left fun mention member => ?_
  rw [TypeMention.redirect_of_unnamed (by simpa using (List.mem_filter.mp member).2)]

@[simp] theorem isEmpty_types_redirect : (slot.redirect instead).types.isEmpty = slot.types.isEmpty := by
  simp [redirect]

@[simp] theorem redirect_id : slot.redirect id = slot := by
  simp [redirect]

end Slot

namespace NodeType

variable {type : NodeType}

theorem fieldSlots_redirect :
    (type.redirect instead).fieldSlots = type.fieldSlots.map fun entry => (entry.1, entry.2.redirect instead) := by
  cases fields : type.fields <;> simp [redirect, fieldSlots, fields]

@[simp] theorem name_redirect : (type.redirect instead).name = type.name := rfl

@[simp] theorem hasFields_redirect : (type.redirect instead).hasFields = type.hasFields := by
  simp [hasFields, fieldSlots_redirect]

@[simp] theorem isSupertype_redirect : (type.redirect instead).isSupertype = type.isSupertype := by
  simp [isSupertype, redirect]

theorem tokenUses_redirect : (type.redirect instead).tokenUses = type.tokenUses := by
  rw [tokenUses, tokenUses, fieldSlots_redirect, List.flatMap_map]
  simp only [Slot.tokens_redirect, redirect]
  cases type.children <;> simp

@[simp] theorem redirect_id : type.redirect id = type := by
  have table (fields : Table String Slot) : fields.mapValues (fun _ slot => slot) = fields :=
    Table.ext_entries (by simp)
  simp [redirect, table]

end NodeType

namespace TypeGraph

theorem slots_redirect (type : NodeType) :
    slots (type.redirect instead) = (slots type).map fun entry => (entry.1, entry.2.redirect instead) := by
  rw [slots, slots, NodeType.fieldSlots_redirect, List.map_append, List.map_map, List.map_map]
  cases children : type.children <;> simp [NodeType.redirect, children, Function.comp_def]

end TypeGraph

@[simp] theorem ValidGrammar.redirect_id {grammar : ValidGrammar} : grammar.redirect id = grammar := by
  simp [redirect]

namespace Grammar

variable {grammar : Grammar}

@[simp] theorem redirect_id : grammar.redirect id = grammar := by
  simp [redirect]

theorem namedNodes_redirect : (grammar.redirect instead).namedNodes = grammar.namedNodes.map (·.redirect instead) := by
  rw [namedNodes, namedNodes, redirect, List.filter_map]
  rfl

theorem typeNames_redirect : (grammar.redirect instead).typeNames = grammar.typeNames := by
  rw [typeNames, typeNames, namedNodes_redirect, List.map_map]
  rfl

theorem tokenUses_redirect : (grammar.redirect instead).tokenUses = grammar.tokenUses := by
  simp only [tokenUses, namedNodes_redirect, List.flatMap_map, NodeType.tokenUses_redirect]

def Checked.redirect (instead : String → String) (checked : Checked) : Checked :=
  { checked with
    regular := checked.regular.map (·.redirect instead)
    supertypes := checked.supertypes.map (·.redirect instead) }

variable {requested : Option String} {type : NodeType}

theorem tokenFlaw?_redirect : tokenFlaw? (type.redirect instead) = tokenFlaw? type := by
  have childless : (type.redirect instead).children.isSome = type.children.isSome := Option.isSome_map
  simp only [tokenFlaw?, NodeType.isSupertype_redirect, NodeType.hasFields_redirect, childless]
  rfl

theorem supertypeFlaw?_redirect (subtypes : List TypeMention) :
    supertypeFlaw? (type.redirect instead) (subtypes.map (·.redirect instead)) = supertypeFlaw? type subtypes := by
  have childless : (type.redirect instead).children.isSome = type.children.isSome := Option.isSome_map
  simp only [supertypeFlaw?, NodeType.hasFields_redirect, List.length_map, childless]
  rfl

theorem checkNamed_redirect (checked : Checked) :
    checkNamed requested (checked.redirect instead) (type.redirect instead) =
      (checkNamed requested checked type).map (·.redirect instead) := by
  rw [checkNamed, checkNamed]
  change (if type.name ∈ checked.names then _ else (checkRoot requested checked.marked type >>= _)) = _
  split
  · rfl
  · cases checkRoot requested checked.marked type with
    | error error => rfl
    | ok marked =>
      cases subtypes : type.subtypes with
      | none => simp [subtypes, NodeType.redirect, Checked.redirect, bind, Except.bind, Except.map, pure, Except.pure]
      | some list =>
        have flaw : supertypeFlaw? (type.redirect instead) (list.map (·.redirect instead)) = supertypeFlaw? type list :=
          supertypeFlaw?_redirect list
        have listed : (type.redirect instead).subtypes = some (list.map (·.redirect instead)) := by
          simp [NodeType.redirect, subtypes]
        simp only [bind, Except.bind, listed, flaw]
        cases supertypeFlaw? type list with
        | none => simp [Checked.redirect, Except.map, pure, Except.pure]
        | some flaw => rfl

theorem checkNode_redirect (checked : Checked) :
    checkNode requested (checked.redirect instead) (type.redirect instead) =
      (checkNode requested checked type).map (·.redirect instead) := by
  rw [checkNode, checkNode, tokenFlaw?_redirect, checkNamed_redirect]
  change (if type.named = true then _ else _) = _
  split
  · rfl
  · cases tokenFlaw? type <;> rfl

theorem validate_redirect (grammar : Grammar) (requested : Option String) :
    (grammar.redirect instead).validate requested = (grammar.validate requested).map (·.redirect instead) := by
  have checks (checked : Checked) : (grammar.redirect instead).nodeTypes.foldlM (checkNode requested) (checked.redirect instead) =
      (grammar.nodeTypes.foldlM (checkNode requested) checked).map (·.redirect instead) := by
    rw [redirect, List.foldlM_map]
    induction grammar.nodeTypes generalizing checked with
    | nil => rfl
    | cons type types ih =>
      rw [List.foldlM_cons, List.foldlM_cons, checkNode_redirect]
      cases checkNode requested checked type with
      | error error => rfl
      | ok next => exact ih next
  have start : (⟨[], [], [], none⟩ : Checked) = Checked.redirect instead ⟨[], [], [], none⟩ := rfl
  rw [validate, validate]
  conv_lhs => rw [start, checks]
  cases grammar.nodeTypes.foldlM (checkNode requested) ⟨[], [], [], none⟩ with
  | error error => rfl
  | ok checked =>
    cases requested with
    | none => rfl
    | some root =>
      change (if root ∈ checked.names then _ else _) = Except.map _ (if root ∈ checked.names then _ else _)
      split <;> rfl

end Grammar

end TypedTree
