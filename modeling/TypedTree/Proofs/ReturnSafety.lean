import TypedTree.Proofs.BuiltGraphs
import TypedTree.Proofs.CommonTypeBound
import TypedTree.Proofs.HoistedMethods
import TypedTree.Proofs.KnownSupertypes

/-! The types that getters return can be assigned to the common type. This holds as long as what the types
know of supertypes is true of the graph, and the raw classes of getters are those of their kinds. -/

namespace TypedTree

open Java (ClassName JavaType Ancestry)

theorem Java.Ancestry.exists_lists_of_collect {ancestries : List Ancestry} {below above : ClassName}
    (lists : (Ancestry.collect ancestries).Lists below above) :
    ∃ ancestry ∈ ancestries, ancestry.Lists below above := by
  obtain ⟨supertypes, known, member⟩ := lists
  rw [Ancestry.supertypes?, Ancestry.collect] at known
  split at known
  next => cases known
  next sources _ =>
    obtain ⟨source, inside, found⟩ := List.exists_of_findSome?_eq_some known
    obtain ⟨ancestry, asked, same⟩ := List.mem_filterMap.mp inside
    exact ⟨ancestry, asked, supertypes, by rw [Ancestry.supertypes?, same, Option.bind_some, found], member⟩

theorem Java.Ancestry.not_lists_empty {below above : ClassName} : ¬ Ancestry.empty.Lists below above := by
  intro ⟨_, known, _⟩
  cases known

namespace ReturnType

/-- A common type keeps the raw class that all candidates have. -/
theorem raw_of_commonType? {candidates : List ReturnType} {raw own : ClassName} {annotations : List ClassName}
    {arguments : List JavaType} (found : commonType? candidates = some (.parameterized annotations own arguments))
    (same : ∀ candidate ∈ candidates, ∀ annotations own arguments,
      candidate.type = .parameterized annotations own arguments → own = raw) : own = raw := by
  cases bound_of_commonType? found with
  | other shape => cases shape
  | plainClass plain bound =>
    obtain ⟨_, _, different, _⟩ := bound
    cases different
  | parameterized count generic bound =>
    obtain ⟨_, _, _, equal, each, _⟩ := bound
    cases equal
    have column : ∀ entry ∈ classColumn candidates, entry.1 = .classType annotations raw := by
      intro entry member
      obtain ⟨candidate, inside, name, named, rfl⟩ := mem_classColumn.mp member
      obtain ⟨raw, ownArguments, type, _, _⟩ := each candidate inside
      have equal := same candidate inside _ _ _ type
      rw [type] at named ⊢
      cases named
      rw [equal]
      rfl
    rw [commonType?_of_generic generic] at found
    obtain ⟨choices, _, _, _, left, _, best, joined⟩ := exists_columns generic found
    cases joined
    have fits := Choices.fits_ofCandidates left
    cases choices with
    | same seen ancestry =>
      cases best
      obtain ⟨entry, inside⟩ := Choices.exists_mem_of_found left
      exact (JavaType.classType.inj ((fits entry inside).symm.trans (column entry inside))).2
    | narrowed types labels =>
      obtain ⟨_, ⟨one, here, other, there, differ⟩, _⟩ := fits
      exact absurd ((column one here).trans (column other there).symm) differ

end ReturnType

namespace TypeGraph

/-- An argument is the declared one, or is bounded by the declared wildcard. -/
inductive AssignableArgument (graph : TypeGraph) : JavaType → JavaType → Prop
  | same {argument : JavaType} : AssignableArgument graph argument argument
  | bounded {argument bound : JavaType} (annotations : argument.unwrapped.annotations = bound.annotations)
      (below : argument.unwrapped.bare = bound.bare ∨ ∃ lower upper,
        argument.unwrapped = .classType bound.annotations lower ∧ bound = .classType bound.annotations upper ∧
          graph.ClassAbove lower upper) :
      AssignableArgument graph argument (.wildcardExtends [] bound)

/-- What returns the first type may override what returns the second one. -/
inductive Assignable (graph : TypeGraph) : JavaType → JavaType → Prop
  | same {type : JavaType} : Assignable graph type type
  | plainClass {annotations : List ClassName} {lower upper : ClassName} (above : graph.ClassAbove lower upper) :
      Assignable graph (.classType annotations lower) (.classType annotations upper)
  | parameterized {annotations : List ClassName} {raw : ClassName} {own declared : List JavaType}
      (length : own.length = declared.length)
      (arguments : ∀ (position : Nat) (lower upper : JavaType), own[position]? = some lower →
        declared[position]? = some upper → AssignableArgument graph lower upper) :
      Assignable graph (.parameterized annotations raw own) (.parameterized annotations raw declared)

/-- What a return type knows is true of the graph. Where the kind of its method does not fix the raw class,
nothing is known. -/
structure Sound (graph : TypeGraph) (kind : MethodKind) (returns : ReturnType) : Prop where
  known : ∀ below above, returns.ancestry.Lists below above → graph.ClassAbove below above
  unknown : fixedRaw? kind = none → ∀ below above, ¬ returns.ancestry.Lists below above
  raw : ∀ fixed, fixedRaw? kind = some fixed → ∀ annotations own arguments,
    returns.type = .parameterized annotations own arguments → own = fixed

variable {graph : TypeGraph} {kind : MethodKind}

theorem sound_of_common? {candidates : List ReturnType} {result : ReturnType}
    (sound : ∀ candidate ∈ candidates, graph.Sound kind candidate)
    (found : ReturnType.common? candidates = some result) : graph.Sound kind result := by
  obtain ⟨type, common, rfl⟩ := Option.map_eq_some_iff.mp found
  have source : ∀ below above, (Ancestry.collect (candidates.map (·.ancestry))).Lists below above →
      ∃ candidate ∈ candidates, candidate.ancestry.Lists below above := by
    intro below above lists
    obtain ⟨_, inside, lists⟩ := Ancestry.exists_lists_of_collect lists
    obtain ⟨candidate, member, rfl⟩ := List.mem_map.mp inside
    exact ⟨candidate, member, lists⟩
  refine ⟨fun below above lists => ?_, fun free below above lists => ?_,
    fun fixed isFixed annotations own arguments same => ?_⟩
  · obtain ⟨candidate, member, lists⟩ := source below above lists
    exact (sound candidate member).known below above lists
  · obtain ⟨candidate, member, lists⟩ := source below above lists
    exact (sound candidate member).unknown free below above lists
  · cases same
    exact ReturnType.raw_of_commonType? common fun candidate member => (sound candidate member).raw fixed isFixed

private theorem raw_eq_of_below {candidates : List ReturnType} {raw own : ClassName}
    {annotations : List ClassName} {arguments ownArguments : List JavaType}
    (sound : ∀ candidate ∈ candidates, graph.Sound kind candidate)
    (common : ReturnType.commonType? candidates = some (.parameterized annotations raw arguments))
    {candidate : ReturnType} (member : candidate ∈ candidates)
    (same : candidate.type = .parameterized annotations own ownArguments)
    (below : ReturnType.Below candidates (·.type.className? = some own) own raw) : own = raw := by
  cases fixed : fixedRaw? kind with
  | none =>
    rcases below with equal | ⟨other, inside, _, lists⟩
    · exact equal.symm
    · exact absurd lists ((sound other inside).unknown fixed own raw)
  | some fixedRaw =>
    have kept : raw = fixedRaw := ReturnType.raw_of_commonType? common
      fun candidate member => (sound candidate member).raw fixedRaw fixed
    exact ((sound candidate member).raw fixedRaw fixed _ _ _ same).trans kept.symm

theorem assignable_of_common? {candidates : List ReturnType} {result : ReturnType}
    (sound : ∀ candidate ∈ candidates, graph.Sound kind candidate)
    (found : ReturnType.common? candidates = some result) {candidate : ReturnType} (member : candidate ∈ candidates) :
    graph.Assignable candidate.type result.type := by
  obtain ⟨type, common, rfl⟩ := Option.map_eq_some_iff.mp found
  cases ReturnType.bound_of_commonType? common with
  | other shape equal =>
    rw [equal candidate member]
    exact .same
  | plainClass plain bound =>
    obtain ⟨annotations, name, rfl, each⟩ := bound
    obtain ⟨own, same, below⟩ := each candidate member
    rw [same]
    rcases below with rfl | ⟨other, inside, _, lists⟩
    · exact .same
    · exact .plainClass ((sound other inside).known own name lists)
  | parameterized count generic bound =>
    obtain ⟨annotations, raw, arguments, rfl, each, positions⟩ := bound
    obtain ⟨own, ownArguments, same, length, below⟩ := each candidate member
    have raws : own = raw := raw_eq_of_below sound common member same below
    rw [same, raws]
    refine .parameterized length fun position lower upper here there => ?_
    have own : candidate.type.arguments[position]? = some lower := by rw [same]; exact here
    cases positions position upper there with
    | unchanged equal =>
      cases (equal candidate member).symm.trans own
      exact .same
    | narrowed above =>
      obtain ⟨argument, found, labels, below⟩ := above candidate member
      cases found.symm.trans own
      refine .bounded labels (below.imp_right ?_)
      intro ⟨lower, upper, first, last, other, inside, _, lists⟩
      exact ⟨lower, upper, first, last, (sound other inside).known lower upper lists⟩

end TypeGraph

end TypedTree
