import Mathlib.Data.List.TakeWhile
import TypedTree.Proofs.TypeShapes

/-! What is left of the choices of the first candidate after all others were taken in. Candidates equal to
the first one are passed over until one differs; from there on every candidate is asked. -/

namespace TypedTree.Choices

open Java (ClassName JavaType Ancestry)

/-- What the type of a candidate may be replaced with, wildcard and annotations aside. -/
def allowed (candidate : JavaType × Ancestry) : List JavaType :=
  candidate.2.choices candidate.1.unwrapped.bare

/-- The annotations under a wildcard belong to the type that it bounds. -/
def labels (candidate : JavaType × Ancestry) : List ClassName := candidate.1.unwrapped.annotations

/-- The types that all candidates of a list allow, in their order. -/
def sharedBy (candidates : List (JavaType × Ancestry)) (types : List JavaType) : List JavaType :=
  types.filter fun type => ∀ candidate ∈ candidates, type ∈ allowed candidate

theorem mem_sharedBy {candidates : List (JavaType × Ancestry)} {types : List JavaType} {type : JavaType} :
    type ∈ sharedBy candidates types ↔ type ∈ types ∧ ∀ candidate ∈ candidates, type ∈ allowed candidate := by
  simp only [sharedBy, List.mem_filter, decide_eq_true_eq]

theorem sharedBy_nil (types : List JavaType) : sharedBy [] types = types :=
  List.filter_eq_self.mpr fun _ _ => by simp

theorem sharedBy_cons (candidate : JavaType × Ancestry) (rest : List (JavaType × Ancestry))
    (types : List JavaType) :
    sharedBy (candidate :: rest) types = sharedBy rest (sharedBy [candidate] types) := by
  rw [sharedBy, sharedBy, sharedBy, List.filter_filter]
  apply List.filter_congr
  intro type _
  rw [Bool.eq_iff_iff]
  simp only [decide_eq_true_eq, Bool.and_eq_true, List.forall_mem_cons, List.not_mem_nil, false_imp_iff,
    implies_true, and_true]
  exact and_comm

/-- Candidates narrow some types if they have the right annotations and a type in common. -/
def Agree (candidates : List (JavaType × Ancestry)) (types : List JavaType)
    (annotations : List ClassName) : Prop :=
  (∀ candidate ∈ candidates, labels candidate = annotations) ∧ sharedBy candidates types ≠ []

instance (candidates : List (JavaType × Ancestry)) (types : List JavaType) (annotations : List ClassName) :
    Decidable (Agree candidates types annotations) :=
  inferInstanceAs (Decidable (_ ∧ _))

theorem agree_cons {candidate : JavaType × Ancestry} {rest : List (JavaType × Ancestry)}
    {types : List JavaType} {annotations : List ClassName} :
    Agree (candidate :: rest) types annotations ↔
      Agree [candidate] types annotations ∧ Agree rest (sharedBy [candidate] types) annotations := by
  rw [Agree, Agree, Agree, sharedBy_cons, List.forall_mem_cons, List.forall_mem_singleton]
  constructor
  · rintro ⟨⟨first, others⟩, left⟩
    refine ⟨⟨first, ?_⟩, others, left⟩
    intro empty
    rw [empty] at left
    exact left rfl
  · rintro ⟨⟨first, _⟩, others, left⟩
    exact ⟨⟨first, others⟩, left⟩

def leftOver (candidates : List (JavaType × Ancestry)) (types : List JavaType)
    (annotations : List ClassName) : Option Choices :=
  if Agree candidates types annotations then some (narrowed (sharedBy candidates types) annotations) else none

theorem narrow_same (type : JavaType) (ancestry other : Ancestry) :
    (same type ancestry).narrow type other = some (same type ancestry) := by
  simp [narrow, isSame]

/-- A candidate that differs narrows what was open before it. -/
theorem narrow_eq_leftOver {choices : Choices} {candidate : JavaType × Ancestry}
    (differs : choices.isSame candidate.1 = false) :
    choices.narrow candidate.1 candidate.2 = leftOver [candidate] choices.opened.1 choices.opened.2 := by
  have shared : choices.opened.1.filter (· ∈ candidate.2.choices candidate.1.unwrapped.bare) =
      sharedBy [candidate] choices.opened.1 := by
    simp only [sharedBy, List.forall_mem_singleton, allowed]
  rw [narrow, differs, if_neg Bool.false_ne_true]
  simp only [shared]
  by_cases agree : Agree [candidate] choices.opened.1 choices.opened.2
  · have equal : labels candidate = choices.opened.2 := agree.1 candidate (List.mem_singleton_self _)
    rw [leftOver, if_pos agree, if_neg]
    rintro (different | empty)
    · exact different equal.symm
    · exact agree.2 (List.isEmpty_iff.mp empty)
  · rw [leftOver, if_neg agree, if_pos]
    by_cases equal : labels candidate = choices.opened.2
    · refine Or.inr (List.isEmpty_iff.mpr (Decidable.byContradiction fun left => agree ⟨?_, left⟩))
      simpa using equal
    · exact Or.inl fun same => equal same.symm

private def fold (choices : Choices) (candidates : List (JavaType × Ancestry)) : Option Choices :=
  candidates.foldlM (fun choices candidate => choices.narrow candidate.1 candidate.2) choices

private theorem fold_cons (choices : Choices) (candidate : JavaType × Ancestry)
    (rest : List (JavaType × Ancestry)) :
    fold choices (candidate :: rest) = (choices.narrow candidate.1 candidate.2).bind (fold · rest) := rfl

private theorem leftOver_cons (candidate : JavaType × Ancestry) (rest : List (JavaType × Ancestry))
    (types : List JavaType) (annotations : List ClassName)
    (continued : ∀ types, types ≠ [] → fold (narrowed types annotations) rest = leftOver rest types annotations) :
    (leftOver [candidate] types annotations).bind (fold · rest) =
      leftOver (candidate :: rest) types annotations := by
  by_cases first : Agree [candidate] types annotations
  · rw [leftOver, if_pos first, Option.bind_some, continued _ first.2]
    simp only [leftOver, @agree_cons candidate rest, first, true_and, ← sharedBy_cons]
  · have conflict : ¬ Agree (candidate :: rest) types annotations := fun agree => first (agree_cons.mp agree).1
    rw [leftOver, if_neg first, leftOver, if_neg conflict, Option.bind_none]

/-- Once narrowed, choices only shrink. -/
private theorem fold_narrowed (rest : List (JavaType × Ancestry)) (annotations : List ClassName) :
    ∀ types, types ≠ [] → fold (narrowed types annotations) rest = leftOver rest types annotations := by
  induction rest with
  | nil =>
    intro types present
    have agree : Agree [] types annotations :=
      ⟨List.forall_mem_nil _, (sharedBy_nil types).symm ▸ present⟩
    rw [leftOver, if_pos agree, sharedBy_nil]
    rfl
  | cons candidate rest ih =>
    intro types _
    rw [fold_cons, narrow_eq_leftOver rfl]
    exact leftOver_cons candidate rest types annotations ih

/-- The candidates from the first one that differs from the first of all. -/
def later (first : JavaType × Ancestry) (rest : List (JavaType × Ancestry)) : List (JavaType × Ancestry) :=
  rest.dropWhile (·.1 = first.1)

/-- The choices that candidates leave, in closed form. -/
theorem ofCandidates_cons (first : JavaType × Ancestry) (rest : List (JavaType × Ancestry)) :
    ofCandidates (first :: rest) =
      if later first rest = [] then some (same first.1 first.2)
      else leftOver (later first rest) (allowed first) (labels first) := by
  show fold (same first.1 first.2) rest = _
  induction rest with
  | nil => rfl
  | cons candidate rest ih =>
    rw [fold_cons]
    by_cases equal : candidate.1 = first.1
    · have passed : later first (candidate :: rest) = later first rest := by simp [later, equal]
      rw [equal, narrow_same, passed]
      exact ih
    · have differs : (same first.1 first.2).isSame candidate.1 = false := by
        simpa [isSame] using fun same => equal same.symm
      have started : later first (candidate :: rest) = candidate :: rest := by simp [later, equal]
      rw [started, if_neg (List.cons_ne_nil _ _), narrow_eq_leftOver differs]
      exact leftOver_cons candidate rest _ _ (fold_narrowed rest _)

theorem same_of_not_later {first candidate : JavaType × Ancestry} {rest : List (JavaType × Ancestry)}
    (member : candidate ∈ rest) (passed : candidate ∉ later first rest) : candidate.1 = first.1 := by
  rw [← List.takeWhile_append_dropWhile (p := (·.1 = first.1)) (l := rest)] at member
  rcases List.mem_append.mp member with before | after
  · simpa using List.mem_takeWhile_imp before
  · exact absurd after passed

theorem mem_of_mem_later {first candidate : JavaType × Ancestry} {rest : List (JavaType × Ancestry)}
    (member : candidate ∈ later first rest) : candidate ∈ rest :=
  (List.dropWhile_sublist _).subset member

/-- The first of the later candidates is one that differs. -/
theorem exists_differing {first : JavaType × Ancestry} {rest : List (JavaType × Ancestry)}
    (started : later first rest ≠ []) : ∃ candidate ∈ rest, candidate.1 ≠ first.1 := by
  refine ⟨(later first rest).head started, mem_of_mem_later (List.head_mem started), ?_⟩
  have differs :=
    List.head_dropWhile_not (fun candidate : JavaType × Ancestry => decide (candidate.1 = first.1)) started
  exact of_decide_eq_false differs

/-- What choices say of the candidates that left them. Only candidates of the same type need to know of a
supertype, since those equal to the first one were passed over. -/
def Fits (candidates : List (JavaType × Ancestry)) : Choices → Prop
  | same type _ => ∀ candidate ∈ candidates, candidate.1 = type
  | narrowed types annotations =>
    types ≠ [] ∧ (∃ one ∈ candidates, ∃ other ∈ candidates, one.1 ≠ other.1) ∧
    ∀ candidate ∈ candidates, labels candidate = annotations ∧
      ∀ type ∈ types, ∃ other ∈ candidates, other.1 = candidate.1 ∧ type ∈ allowed other

theorem exists_mem_of_found {candidates : List (JavaType × Ancestry)} {choices : Choices}
    (found : ofCandidates candidates = some choices) : ∃ candidate, candidate ∈ candidates := by
  cases candidates with
  | nil => cases found
  | cons first rest => exact ⟨first, List.mem_cons_self⟩

theorem fits_ofCandidates {candidates : List (JavaType × Ancestry)} {choices : Choices}
    (found : ofCandidates candidates = some choices) : choices.Fits candidates := by
  cases candidates with
  | nil => cases found
  | cons first rest =>
    rw [ofCandidates_cons] at found
    split at found
    next passed =>
      cases found
      refine List.forall_mem_cons.mpr ⟨rfl, fun candidate member => same_of_not_later member ?_⟩
      simp [passed]
    next started =>
      unfold leftOver at found
      split at found
      next agree =>
        cases found
        obtain ⟨other, inside, differs⟩ := exists_differing started
        refine ⟨agree.2, ⟨other, List.mem_cons_of_mem _ inside, first, List.mem_cons_self, differs⟩, ?_⟩
        intro candidate member
        by_cases asked : candidate ∈ later first rest
        · exact ⟨agree.1 candidate asked, fun type left =>
            ⟨candidate, member, rfl, (mem_sharedBy.mp left).2 candidate asked⟩⟩
        · have same : candidate.1 = first.1 := by
            rcases List.mem_cons.mp member with rfl | inside
            · rfl
            · exact same_of_not_later inside asked
          refine ⟨by simp only [labels, same], fun type left => ?_⟩
          exact ⟨first, List.mem_cons_self, same.symm, (mem_sharedBy.mp left).1⟩
      next => cases found

/-- Candidates that come after some that were narrowed go on narrowing what was left. -/
theorem ofCandidates_append_of_narrowed {candidates more : List (JavaType × Ancestry)} {types : List JavaType}
    {annotations : List ClassName} (found : ofCandidates candidates = some (narrowed types annotations)) :
    ofCandidates (candidates ++ more) = leftOver more types annotations := by
  have present := (fits_ofCandidates found).1
  cases candidates with
  | nil => cases found
  | cons first rest =>
    have found : fold (same first.1 first.2) rest = some (narrowed types annotations) := found
    show fold (same first.1 first.2) (rest ++ more) = _
    rw [fold, List.foldlM_append, ← fold, found]
    exact fold_narrowed more annotations types present

theorem ofCandidates_append_of_same {candidates more : List (JavaType × Ancestry)} {type : JavaType}
    {ancestry : Ancestry} (found : ofCandidates candidates = some (same type ancestry)) :
    ofCandidates (candidates ++ more) = ofCandidates ((type, ancestry) :: more) := by
  cases candidates with
  | nil => cases found
  | cons first rest =>
    have found : fold (same first.1 first.2) rest = some (same type ancestry) := found
    show fold (same first.1 first.2) (rest ++ more) = fold (same type ancestry) more
    rw [fold, List.foldlM_append, ← fold, found]
    rfl

end TypedTree.Choices
