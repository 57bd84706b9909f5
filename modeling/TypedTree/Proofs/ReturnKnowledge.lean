import TypedTree.Proofs.CommonTypeSets
import TypedTree.Proofs.ReturnSafety

/-! What getters know of supertypes. Some know nothing, but for their types there is nothing to be known, so that their
common types come out as if all of them knew the same. -/

namespace TypedTree

open Java (ClassName JavaType Ancestry)

theorem Java.JavaType.mem_openings_of_argument {type argument : JavaType} {position : Nat}
    (here : type.arguments[position]? = some argument) : argument.unwrapped.bare ∈ type.openings := by
  cases type with
  | parameterized annotations raw arguments => exact List.mem_map_of_mem (List.mem_of_getElem? here)
  | _ => cases here

namespace Choices

variable {column : List (JavaType × Ancestry)} {known : Ancestry}

theorem later_eq_nil {first : JavaType × Ancestry} {rest : List (JavaType × Ancestry)} :
    later first rest = [] ↔ ∀ entry ∈ rest, entry.1 = first.1 := by
  simp only [later, List.dropWhile_eq_nil_iff, decide_eq_true_eq]

/-- If nothing is lost by asking one ancestry only, it may answer for all entries of a column. -/
theorem bind_shared {read : Choices → Option JavaType}
    (blind : ∀ type one other, read (same type one) = read (same type other))
    (agree : ∀ entry ∈ column, allowed entry = known.choices entry.1.unwrapped.bare) :
    (ofCandidates column).bind read = (ofCandidates (shared known (column.map Prod.fst))).bind read := by
  cases column with
  | nil => rfl
  | cons first rest =>
    obtain ⟨here, others⟩ := List.forall_mem_cons.mp agree
    have mapped : later (first.1, known) (shared known (rest.map Prod.fst)) =
        (later first rest).map fun entry => (entry.1, known) := by
      rw [shared, List.map_map, later, List.dropWhile_map]
      rfl
    have kept : ∀ types, sharedBy ((later first rest).map fun entry => (entry.1, known)) types =
        sharedBy (later first rest) types := by
      intro types
      refine List.filter_congr fun type _ => ?_
      rw [decide_eq_decide, List.forall_mem_map]
      refine forall₂_congr fun entry member => ?_
      rw [others entry (mem_of_mem_later member)]
      rfl
    rw [List.map_cons, shared_cons, ofCandidates_cons, ofCandidates_cons, mapped]
    by_cases passed : later first rest = []
    · rw [if_pos passed, if_pos (by rw [passed]; rfl)]
      exact blind _ _ _
    · rw [if_neg passed, if_neg (mt List.map_eq_nil_iff.mp passed), here]
      simp only [leftOver, Agree, kept, List.forall_mem_map]
      rfl

/-- A column of one class is all the same, or the annotations differ. -/
theorem bind_best?_of_one {first : JavaType × Ancestry} {rest : List (JavaType × Ancestry)} {raw : ClassName}
    (one : ∀ entry ∈ first :: rest, ∃ annotations, entry.1 = .classType annotations raw) :
    (ofCandidates (first :: rest)).bind best? = if ∀ entry ∈ rest, entry.1 = first.1 then some first.1 else none := by
  rw [ofCandidates_cons]
  simp only [later_eq_nil]
  split
  · rfl
  next differ =>
    refine (congrArg (Option.bind · best?) (if_neg ?_)).trans (Option.bind_none _)
    rintro ⟨labeled, _⟩
    refine differ fun entry member => Classical.byContradiction fun apart => apart ?_
    obtain ⟨own, same⟩ := one entry (List.mem_cons_of_mem _ member)
    obtain ⟨firstOwn, firstSame⟩ := one first List.mem_cons_self
    have asked : entry ∈ later first rest :=
      Classical.byContradiction fun skipped => apart (same_of_not_later member skipped)
    have labels := labeled entry asked
    rw [Choices.labels, Choices.labels, same, firstSame] at labels
    rw [same, firstSame]
    exact congrArg (JavaType.classType · raw) labels

end Choices

namespace ReturnType

variable {candidates : List ReturnType} {known : Ancestry} {fixed : ClassName}

theorem classTypes_types (candidates : List ReturnType) :
    classTypes (candidates.map (·.type)) = (classColumn candidates).map Prod.fst := by
  simp only [classTypes, classColumn, List.filterMap_map, List.map_filterMap, Option.map_map, Function.comp_def]

theorem argumentsAt_types (position : Nat) (candidates : List ReturnType) :
    argumentsAt position (candidates.map (·.type)) = (argumentColumn candidates position).map Prod.fst := by
  simp only [argumentsAt, argumentColumn, List.filterMap_map, List.map_filterMap, Option.map_map, Function.comp_def,
    Option.map_id']

/-- What candidates know of the classes by which their types are compared is what is known. -/
def Informed (known : Ancestry) (candidates : List ReturnType) : Prop :=
  ∀ candidate ∈ candidates, ∀ opening ∈ candidate.type.openings,
    candidate.ancestry.choices opening = known.choices opening

theorem Informed.columnArgument? (informed : Informed known candidates) (position : Nat) :
    columnArgument? candidates position = columnArgument? (together known (candidates.map (·.type))) position := by
  rw [ReturnType.columnArgument?, ReturnType.columnArgument?, argumentColumn_together, argumentsAt_types]
  refine Choices.bind_shared (fun _ _ _ => rfl) fun entry member => ?_
  obtain ⟨candidate, inside, argument, here, rfl⟩ := mem_argumentColumn.mp member
  exact informed candidate inside _ (JavaType.mem_openings_of_argument here)

theorem Informed.columnClass?_of_plain (informed : Informed known candidates)
    (plain : ∀ candidate ∈ candidates, candidate.type.shape = .plainClass) :
    columnClass? candidates = columnClass? (together known (candidates.map (·.type))) := by
  rw [columnClass?, columnClass?, classColumn_together, classTypes_types]
  refine Choices.bind_shared (fun _ _ _ => rfl) fun entry member => ?_
  obtain ⟨candidate, inside, name, named, rfl⟩ := mem_classColumn.mp member
  refine informed candidate inside _ ?_
  obtain ⟨own, same⟩ := JavaType.eq_classType (plain candidate inside)
  rw [same] at named ⊢
  cases named
  exact List.mem_cons_self

/-- Where all raw classes are the same one, its supertypes do not matter. -/
theorem columnClass?_of_raw {count : Nat} (generic : Generic count candidates)
    (raw : ∀ candidate ∈ candidates, ∀ annotations own arguments,
      candidate.type = .parameterized annotations own arguments → own = fixed) :
    columnClass? candidates = columnClass? (together known (candidates.map (·.type))) := by
  rw [columnClass?, columnClass?, classColumn_together, classTypes_types]
  have one : ∀ entry ∈ classColumn candidates, ∃ annotations, entry.1 = .classType annotations fixed := by
    intro entry member
    obtain ⟨candidate, inside, name, named, rfl⟩ := mem_classColumn.mp member
    obtain ⟨own, same⟩ := JavaType.eq_parameterized (generic candidate inside).1
    rw [same] at named
    cases named
    exact ⟨_, congrArg (JavaType.classType _) (raw candidate inside _ _ _ same)⟩
  cases column : classColumn candidates with
  | nil => rfl
  | cons first rest =>
    rw [column] at one
    have otherOne : ∀ entry ∈ (first.1, known) :: Choices.shared known (rest.map Prod.fst),
        ∃ annotations, entry.1 = .classType annotations fixed := by
      obtain ⟨here, others⟩ := List.forall_mem_cons.mp one
      refine List.forall_mem_cons.mpr ⟨here, ?_⟩
      simpa only [Choices.shared, List.forall_mem_map] using others
    rw [List.map_cons, Choices.shared_cons, Choices.bind_best?_of_one one, Choices.bind_best?_of_one otherOne]
    simp only [Choices.shared, List.forall_mem_map]

/-- Candidates that are informed of all that their types can be compared by have the common type that they have when
all of them know the same. -/
theorem commonType?_of_informed (informed : Informed known candidates)
    (raw : ∀ candidate ∈ candidates, ∀ annotations own arguments,
      candidate.type = .parameterized annotations own arguments → own = fixed) :
    commonType? candidates = commonType? (together known (candidates.map (·.type))) := by
  cases present : candidates with
  | nil => rfl
  | cons first rest =>
    rw [← present]
    refine commonType?_of_alike (by simp [present]) (by simp [present, together]) ?_ (fun type _ => ?_)
      (fun shape count uniform => ?_) informed.columnArgument?
    · intro shape count
      rw [types_together]
    · simp only [together, List.forall_mem_map]
    · have uniform := List.forall_mem_map.mp uniform
      cases shape with
      | plainClass => exact informed.columnClass?_of_plain fun candidate member => (uniform candidate member).1
      | parameterized => exact columnClass?_of_raw uniform raw
      | other =>
        -- Types of other shapes have no class, so that the column is empty.
        have none : ∀ candidate ∈ candidates, candidate.type.className? = none :=
          fun candidate member => JavaType.className?_of_other (uniform candidate member).1
        have empty : classColumn candidates = [] := by
          refine List.filterMap_eq_nil_iff.mpr fun candidate member => ?_
          rw [none candidate member, Option.map_none]
        rw [columnClass?, columnClass?, classColumn_together, classTypes_types, empty]
        rfl

/-- Where no supertypes are known, a common type has nothing to be compared by that no candidate has. -/
theorem openings_of_commonType? {type : JavaType} (found : commonType? candidates = some type)
    (unknown : ∀ candidate ∈ candidates, ∀ below above, ¬ candidate.ancestry.Lists below above) :
    ∀ opening ∈ type.openings, ∃ candidate ∈ candidates, opening ∈ candidate.type.openings := by
  obtain ⟨candidate, member⟩ : ∃ candidate, candidate ∈ candidates := by
    refine List.exists_mem_of_ne_nil _ fun none => ?_
    rw [none] at found
    cases found
  intro opening inside
  refine ⟨candidate, member, ?_⟩
  cases bound_of_commonType? found with
  | other shape equal => exact equal candidate member ▸ inside
  | plainClass plain bound =>
    obtain ⟨annotations, name, rfl, each⟩ := bound
    obtain ⟨own, same, equal | ⟨other, present, _, lists⟩⟩ := each candidate member
    · rwa [same, ← equal]
    · exact absurd lists (unknown other present own name)
  | parameterized count generic bound =>
    obtain ⟨annotations, raw, arguments, rfl, _, positions⟩ := bound
    obtain ⟨argument, listed, rfl⟩ := List.mem_map.mp inside
    obtain ⟨position, here⟩ := List.getElem?_of_mem listed
    cases positions position argument here with
    | unchanged equal => exact JavaType.mem_openings_of_argument (equal candidate member)
    | @narrowed bound above =>
      obtain ⟨own, there, _, same | ⟨below, top, _, _, other, present, _, lists⟩⟩ := above candidate member
      · have opening : (JavaType.wildcardExtends [] bound).unwrapped.bare = own.unwrapped.bare := same.symm
        rw [opening]
        exact JavaType.mem_openings_of_argument there
      · exact absurd lists (unknown other present below top)

end ReturnType

namespace Java.Ancestry

theorem choices_empty (type : JavaType) : empty.choices type = [type] := by
  cases type <;> rfl

end Java.Ancestry

namespace TypeGraph

variable {known : Ancestry} {kind : MethodKind} {candidates : List ReturnType} {returns : ReturnType}

/-- What the return types of methods of a kind may know of supertypes. -/
def knownFor (known : Ancestry) (kind : MethodKind) : Ancestry := if fixedRaw? kind = none then .empty else known

theorem informed_of_trusted (trusted : ∀ candidate ∈ candidates, TrustedReturn known kind candidate) :
    ReturnType.Informed (knownFor known kind) candidates := by
  intro candidate member opening inside
  rcases (trusted candidate member).source with ⟨empty, unknown⟩ | ⟨same, fixed⟩
  · rw [empty, Ancestry.choices_empty, knownFor]
    split
    next => exact (Ancestry.choices_empty opening).symm
    next fixed => exact (unknown fixed opening inside).symm
  · rw [same, knownFor, if_neg fixed]

/-- Trusted return types have the common type that they have when all of them know the same. -/
theorem commonType?_of_trusted (trusted : ∀ candidate ∈ candidates, TrustedReturn known kind candidate) :
    ReturnType.commonType? candidates =
      ReturnType.commonType? (ReturnType.together (knownFor known kind) (candidates.map (·.type))) := by
  cases fixed : fixedRaw? kind with
  | none =>
    have empty : ∀ candidate ∈ candidates, (⟨candidate.type, .empty⟩ : ReturnType) = candidate := by
      intro candidate member
      have nothing : candidate.ancestry = .empty :=
        (trusted candidate member).source.elim And.left fun known => absurd fixed known.2
      rw [← nothing]
    have same : ReturnType.together .empty (candidates.map (·.type)) = candidates := by
      rw [ReturnType.together, List.map_map]
      exact (List.map_congr_left empty).trans (List.map_id _)
    rw [knownFor, if_pos fixed, same]
  | some raw =>
    exact ReturnType.commonType?_of_informed (informed_of_trusted trusted) fun candidate member =>
      (trusted candidate member).raw raw fixed

/-- What trusted return types have in common can be trusted again. -/
theorem trusted_of_common? {result : ReturnType}
    (trusted : ∀ candidate ∈ candidates, TrustedReturn known kind candidate)
    (found : ReturnType.common? candidates = some result) : TrustedReturn known kind result := by
  obtain ⟨type, common, rfl⟩ := Option.map_eq_some_iff.mp found
  refine ⟨?_, fun fixed isFixed annotations own arguments same => ?_⟩
  · by_cases some : ∃ candidate ∈ candidates, candidate.ancestry = known ∧ fixedRaw? kind ≠ none
    · obtain ⟨candidate, member, same, fixed⟩ := some
      refine Or.inr ⟨Ancestry.collect_of_some ?_ (List.mem_map.mpr ⟨candidate, member, same⟩), fixed⟩
      exact List.forall_mem_map.mpr fun other inside => (trusted other inside).source.imp And.left And.left
    · have empty : ∀ candidate ∈ candidates, candidate.ancestry = .empty ∧
          (fixedRaw? kind ≠ none → ∀ opening ∈ candidate.type.openings, known.choices opening = [opening]) := by
        intro candidate member
        exact (trusted candidate member).source.resolve_right fun known => some ⟨candidate, member, known⟩
      refine Or.inl ⟨?_, fun fixed opening inside => ?_⟩
      · have present : candidates ≠ [] := by
          rintro rfl
          cases common
        refine Ancestry.collect_of_same (by simpa using present) (List.forall_mem_map.mpr fun candidate member => ?_)
        exact (empty candidate member).1
      · obtain ⟨candidate, member, inside⟩ := ReturnType.openings_of_commonType? common (fun candidate member => by
          rw [(empty candidate member).1]
          exact fun _ _ => Ancestry.not_lists_empty) opening inside
        exact (empty candidate member).2 fixed opening inside
  · cases same
    exact ReturnType.raw_of_commonType? common fun candidate member => (trusted candidate member).raw fixed isFixed

end TypeGraph

end TypedTree
