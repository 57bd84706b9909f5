import TypedTree.Proofs.SharedColumns

/-! Common types level by level. Where classes have one line of supertypes each, the common type of some candidates
can stand for them beside further candidates. -/

namespace TypedTree

open Java (ClassName JavaType Ancestry Shape)

namespace Java.Ancestry

/-- The supertypes of a class are a line: behind each of them come its own supertypes. -/
structure Chained (ancestry : Ancestry) : Prop where
  distinct : ∀ name, (ancestry.above name).Nodup
  proper : ∀ name, name ∉ ancestry.above name
  continued : ∀ name (position : Fin (ancestry.above name).length),
    ancestry.above (ancestry.above name)[position] = (ancestry.above name).drop (position + 1)

variable {ancestry : Ancestry}

/-- Only the classes of a table have to be looked at. -/
theorem chained_ofTable {table : Table ClassName (List ClassName)}
    (chained : ∀ name ∈ table.keys,
      ((ofTable table).above name).Nodup ∧ name ∉ (ofTable table).above name ∧
        ∀ position : Fin ((ofTable table).above name).length,
          (ofTable table).above ((ofTable table).above name)[position] =
            ((ofTable table).above name).drop (position + 1)) :
    (ofTable table).Chained := by
  have unknown : ∀ name, name ∉ table.keys → (ofTable table).above name = [] := by
    intro name absent
    have none : (ofTable table).supertypes? name = none := Table.get?_eq_none absent
    rw [above, none, Option.getD_none]
  refine ⟨fun name => ?_, fun name => ?_, fun name position => ?_⟩
  all_goals by_cases known : name ∈ table.keys
  · exact (chained name known).1
  · simp [unknown name known]
  · exact (chained name known).2.1
  · simp [unknown name known]
  · exact (chained name known).2.2 position
  · have inside := position.isLt
    simp [unknown name known] at inside

/-- Ancestries that know the same or nothing know together what one of them knows. -/
theorem collect_of_some {ancestries : List Ancestry} (same : ∀ one ∈ ancestries, one = .empty ∨ one = ancestry)
    (known : ancestry ∈ ancestries) : collect ancestries = ancestry := by
  obtain ⟨source⟩ := ancestry
  cases source with
  | none =>
    have nothing : ancestries.filterMap Ancestry.source = [] := by
      refine List.filterMap_eq_nil_iff.mpr fun one member => ?_
      rcases same one member with rfl | rfl <;> rfl
    rw [collect, nothing]
    rfl
  | some find =>
    have all : ∀ other ∈ ancestries.filterMap Ancestry.source, other = find := by
      intro other member
      obtain ⟨one, inside, found⟩ := List.mem_filterMap.mp member
      rcases same one inside with rfl | rfl
      · cases found
      · exact (Option.some.inj found).symm
    have present : ancestries.filterMap Ancestry.source ≠ [] :=
      List.ne_nil_of_mem (List.mem_filterMap.mpr ⟨_, known, rfl⟩)
    obtain ⟨count, length⟩ := Nat.exists_eq_succ_of_ne_zero (mt List.length_eq_zero_iff.mp present)
    have answers : (fun name => (List.replicate (count + 1) find).findSome? (· name)) = find :=
      funext fun name => List.findSome?_replicate_of_pos (Nat.succ_pos count)
    rw [collect, List.eq_replicate_iff.mpr ⟨length, all⟩]
    show Ancestry.mk (some fun name => (List.replicate (count + 1) find).findSome? (· name)) = ⟨some find⟩
    rw [answers]

/-- Ancestries that are the same know together what each of them knows. -/
theorem collect_of_same {ancestries : List Ancestry} (present : ancestries ≠ [])
    (same : ∀ one ∈ ancestries, one = ancestry) : collect ancestries = ancestry := by
  obtain ⟨one, member⟩ := List.exists_mem_of_ne_nil _ present
  exact collect_of_some (fun one inside => Or.inr (same one inside)) (same one member ▸ member)

theorem Chained.above_split (chained : ancestry.Chained) {name next : ClassName} {before after : List ClassName}
    (split : ancestry.above name = before ++ next :: after) : ancestry.above next = after := by
  have inside : before.length < (ancestry.above name).length := by simp [split]
  have line := chained.continued name ⟨before.length, inside⟩
  simpa [split] using line

/-- Behind a choice come the choices that it leaves itself. -/
theorem Chained.choices_split (chained : ancestry.Chained) {base next : JavaType} {before after : List JavaType}
    (plain : base.annotations = []) (split : ancestry.choices base = before ++ next :: after) :
    ancestry.choices next = next :: after := by
  cases before with
  | nil =>
    have same : base = next := (List.cons.inj (show base :: _ = next :: after from split)).1
    rw [← same, split, same, List.nil_append]
  | cons head before =>
    cases base with
    | classType labels name =>
      cases plain
      obtain ⟨_, later⟩ := List.cons.inj (show _ :: _ = head :: (before ++ next :: after) from split)
      obtain ⟨names, rest, listed, _, later⟩ := List.map_eq_append_iff.mp later
      obtain ⟨own, behind, rfl, rfl, rfl⟩ := List.map_eq_cons_iff.mp later
      rw [JavaType.ofClass, choices_classType, chained.above_split listed]
    | _ =>
      have short := congrArg List.length split
      simp [choices] at short

theorem Chained.mem_of_behind (chained : ancestry.Chained) {base other bound type : JavaType}
    {before after : List JavaType} (plain : base.annotations = []) (otherPlain : other.annotations = [])
    (split : ancestry.choices base = before ++ bound :: after) (allowed : bound ∈ ancestry.choices other)
    (behind : type ∈ after) : type ∈ ancestry.choices other := by
  obtain ⟨otherBefore, otherAfter, otherSplit⟩ := List.append_of_mem allowed
  have line := chained.choices_split plain split
  rw [chained.choices_split otherPlain otherSplit] at line
  rw [otherSplit, (List.cons.inj line).2]
  exact List.mem_append_right _ (List.mem_cons_of_mem _ behind)

end Java.Ancestry

namespace Choices

variable {ancestry : Ancestry} {types more : List JavaType} {bound : JavaType} {rest : List JavaType}
  {annotations : List ClassName}

/-- What is left after some types were narrowed is all that its first choice allows. -/
theorem narrowed_eq_choices (chained : ancestry.Chained)
    (found : ofCandidates (shared ancestry types) = some (narrowed (bound :: rest) annotations)) :
    bound :: rest = ancestry.choices bound ∧ ∃ first ∈ types, bound ∈ ancestry.choices first.unwrapped.bare := by
  cases types with
  | nil => cases found
  | cons first others =>
    rw [ofCandidates_shared_cons] at found
    split at found
    next => cases found
    next =>
      unfold leftOver at found
      split at found
      next =>
        injection found with found
        injection found with left _
        obtain ⟨before, after, split, _, common, kept⟩ := List.filter_eq_cons_iff.mp left
        have plain := JavaType.annotations_bare first.unwrapped
        have line : ancestry.choices bound = bound :: after := chained.choices_split plain split
        have all : rest = after := by
          rw [← kept, List.filter_eq_self]
          intro type behind
          refine decide_eq_true fun candidate member => ?_
          obtain ⟨other, _, rfl⟩ := List.mem_map.mp member
          exact chained.mem_of_behind plain (JavaType.annotations_bare _) split
            (of_decide_eq_true common _ member) behind
        refine ⟨by rw [line, all], first, List.mem_cons_self, ?_⟩
        have split : ancestry.choices first.unwrapped.bare = before ++ bound :: after := split
        rw [split]
        exact List.mem_append_right _ List.mem_cons_self
      next => cases found

/-- A type with which narrowed choices are written down opens to the same choices again. Until a candidate differs
from it, nothing is lost by not narrowing. -/
theorem bind_reopened {type : JavaType} {read : Choices → Option JavaType} (plain : bound.annotations = [])
    (opened : type.unwrapped = bound.annotate annotations)
    (settled : read (same type ancestry) = read (narrowed (ancestry.choices bound) annotations)) :
    (ofCandidates (shared ancestry (type :: more))).bind read =
      (leftOver (shared ancestry more) (ancestry.choices bound) annotations).bind read := by
  have choices : allowed (type, ancestry) = ancestry.choices bound := by
    rw [allowed, opened, JavaType.bare_annotate, JavaType.bare_eq_self plain]
  have labeled : labels (type, ancestry) = annotations := by
    rw [labels, opened, JavaType.annotations_annotate plain]
  rw [ofCandidates_shared_cons, choices, labeled]
  split
  next equal =>
    have everywhere : ∀ candidate ∈ shared ancestry more, candidate = (type, ancestry) := by
      intro candidate member
      obtain ⟨other, inside, rfl⟩ := List.mem_map.mp member
      rw [equal other inside]
    have kept : sharedBy (shared ancestry more) (ancestry.choices bound) = ancestry.choices bound := by
      rw [sharedBy, List.filter_eq_self]
      refine fun choice member => decide_eq_true fun candidate inside => ?_
      rw [everywhere candidate inside, choices]
      exact member
    have agree : Agree (shared ancestry more) (ancestry.choices bound) annotations := by
      refine ⟨fun candidate inside => ?_, ?_⟩
      · rw [everywhere candidate inside, labeled]
      · rw [kept]
        exact List.cons_ne_nil _ _
    rw [leftOver, if_pos agree, kept]
    exact settled
  next => rfl

theorem ancestry_of_same {type : JavaType} {known : Ancestry}
    (found : ofCandidates (shared ancestry types) = some (same type known)) : known = ancestry := by
  cases types with
  | nil => cases found
  | cons first rest =>
    rw [ofCandidates_shared_cons] at found
    split at found
    next => cases found; rfl
    next => unfold leftOver at found; split at found <;> cases found

theorem append_of_same {type : JavaType} {known : Ancestry}
    (found : ofCandidates (shared ancestry types) = some (same type known)) :
    ofCandidates (shared ancestry (types ++ more)) = ofCandidates (shared ancestry (type :: more)) := by
  have joined : shared ancestry (types ++ more) = shared ancestry types ++ shared ancestry more := List.map_append
  rw [joined, ofCandidates_append_of_same found, ancestry_of_same found, shared_cons]

theorem append_of_narrowed (chained : ancestry.Chained)
    (found : ofCandidates (shared ancestry types) = some (narrowed (bound :: rest) annotations)) :
    ofCandidates (shared ancestry (types ++ more)) =
      leftOver (shared ancestry more) (ancestry.choices bound) annotations := by
  have joined : shared ancestry (types ++ more) = shared ancestry types ++ shared ancestry more := List.map_append
  rw [joined, ofCandidates_append_of_narrowed found, (narrowed_eq_choices chained found).1]

/-- The best class of some classes can stand for them. -/
theorem bind_best?_append (chained : ancestry.Chained) {choices : Choices} {type : JavaType}
    (classes : ∀ one ∈ types, one.shape = .plainClass)
    (found : ofCandidates (shared ancestry types) = some choices) (best : choices.best? = some type) :
    (ofCandidates (shared ancestry (types ++ more))).bind best? =
      (ofCandidates (shared ancestry (type :: more))).bind best? := by
  cases choices with
  | same seen known =>
    cases best
    rw [append_of_same found]
  | narrowed left annotations =>
    cases left with
    | nil => cases best
    | cons bound rest =>
      obtain ⟨_, first, member, allowed⟩ := narrowed_eq_choices chained found
      obtain ⟨name, same⟩ := JavaType.eq_classType (classes first member)
      rw [same] at allowed
      obtain ⟨own, _, rfl⟩ := Ancestry.mem_choices_ofClass.mp allowed
      cases best
      rw [append_of_narrowed chained found]
      exact (bind_reopened rfl rfl rfl).symm

/-- The wildcard that some arguments come to can stand for them: its bound opens to what they left. -/
theorem bind_bestArgument?_append (chained : ancestry.Chained) {choices : Choices} {type : JavaType}
    (found : ofCandidates (shared ancestry types) = some choices) (best : choices.bestArgument? = some type) :
    (ofCandidates (shared ancestry (types ++ more))).bind bestArgument? =
      (ofCandidates (shared ancestry (type :: more))).bind bestArgument? := by
  cases choices with
  | same seen known =>
    cases best
    rw [append_of_same found]
  | narrowed left annotations =>
    cases left with
    | nil => cases best
    | cons bound rest =>
      obtain ⟨_, first, _, allowed⟩ := narrowed_eq_choices chained found
      have plain := Ancestry.annotations_of_mem_choices (JavaType.annotations_bare _) allowed
      cases best
      rw [append_of_narrowed chained found]
      exact (bind_reopened plain rfl rfl).symm

end Choices

namespace ReturnType

variable {ancestry : Ancestry} {types others : List JavaType} {type : JavaType}

theorem uniform_append {shape : Shape} {count : Nat} :
    Uniform shape count (types ++ others) ↔ Uniform shape count types ∧ Uniform shape count others :=
  List.forall_mem_append

theorem uniform_cons {shape : Shape} {count : Nat} :
    Uniform shape count (type :: others) ↔
      (type.shape = shape ∧ type.arguments.length = count) ∧ Uniform shape count others :=
  List.forall_mem_cons

theorem columnClass?_append (chained : ancestry.Chained) (joins : Joins ancestry types type) :
    columnClass? (together ancestry (types ++ others)) = columnClass? (together ancestry (type :: others)) := by
  simp only [columnClass?, classColumn_together, classTypes, List.filterMap_append, List.filterMap_cons]
  cases named : type.className? with
  | none =>
    have shape : type.shape = .other := by
      refine Decidable.byContradiction fun other => ?_
      obtain ⟨name, found⟩ := JavaType.exists_className other
      rw [named] at found
      cases found
    have nothing : types.filterMap (fun one => one.className?.map (JavaType.classType one.annotations)) = [] := by
      refine List.filterMap_eq_nil_iff.mpr fun one member => ?_
      rw [joins.other shape one member, named, Option.map_none]
    rw [nothing]
    rfl
  | some name =>
    have found := joins.classes name named
    rw [columnClass?, classColumn_together] at found
    obtain ⟨choices, left, best⟩ := Option.bind_eq_some_iff.mp found
    refine Choices.bind_best?_append chained (fun entry member => ?_) left best
    obtain ⟨_, _, _, _, rfl⟩ := mem_classTypes.mp member
    rfl

theorem columnArgument?_append (chained : ancestry.Chained) (joins : Joins ancestry types type) (position : Nat) :
    columnArgument? (together ancestry (types ++ others)) position =
      columnArgument? (together ancestry (type :: others)) position := by
  simp only [columnArgument?, argumentColumn_together, argumentsAt, List.filterMap_append, List.filterMap_cons]
  cases here : type.arguments[position]? with
  | none =>
    have nothing : types.filterMap (·.arguments[position]?) = [] := by
      refine List.filterMap_eq_nil_iff.mpr fun one member => ?_
      rw [List.getElem?_eq_none_iff, (joins.uniform one member).2]
      exact List.getElem?_eq_none_iff.mp here
    rw [nothing]
    rfl
  | some argument =>
    have found := joins.arguments position argument here
    rw [columnArgument?, argumentColumn_together] at found
    obtain ⟨choices, left, best⟩ := Option.bind_eq_some_iff.mp found
    exact Choices.bind_bestArgument?_append chained left best

theorem commonType?_append (chained : ancestry.Chained) (found : commonType? (together ancestry types) = some type) :
    commonType? (together ancestry (types ++ others)) = commonType? (together ancestry (type :: others)) := by
  have present : types ≠ [] := by
    rintro rfl
    cases found
  obtain ⟨first, member⟩ := List.exists_mem_of_ne_nil _ present
  have joins := joins_of_commonType? found
  have like := joins.uniform first member
  refine commonType?_congr (by simp [present]) (by simp) ?_ ?_ (columnClass?_append chained joins)
    (columnArgument?_append chained joins)
  · intro shape count
    rw [uniform_append, uniform_cons]
    refine and_congr_left fun _ => ⟨fun all => ?_, ?_⟩
    · rw [← like.1, ← like.2]
      exact all first member
    · rintro ⟨rfl, rfl⟩
      exact joins.uniform
  · intro wanted shape
    rw [List.forall_mem_append, List.forall_mem_cons]
    refine and_congr_left fun _ => ⟨fun all => ?_, ?_⟩
    · have same := all first member
      rw [← joins.other (like.1 ▸ same ▸ shape) first member, same]
    · rintro rfl
      exact joins.other shape

/-- Where classes have one line of supertypes each, the common type of some candidates can stand for them: beside
further candidates it gives the type that all of them give. Wildcards and annotations may stand anywhere. If there
is no common type, none comes back with further candidates. -/
theorem common?_inLevels (ancestry : Ancestry) (chained : ancestry.Chained) (types others : List JavaType)
    (present : types ≠ []) :
    (∀ middle, common? (together ancestry types) = some middle →
      (∀ name, middle.ancestry.supertypes? name = ancestry.supertypes? name) ∧
        (common? (middle :: together ancestry others)).map (·.type) =
          (common? (together ancestry types ++ together ancestry others)).map (·.type)) ∧
      (common? (together ancestry types) = none →
        common? (together ancestry types ++ together ancestry others) = none) := by
  have joined : together ancestry types ++ together ancestry others = together ancestry (types ++ others) :=
    List.map_append.symm
  have typeOf : ∀ candidates, (common? candidates).map (·.type) = commonType? candidates := by
    intro candidates
    rw [common?, Option.map_map]
    exact Option.map_id'
  rw [joined]
  refine ⟨fun middle found => ?_, fun none => ?_⟩
  · obtain ⟨type, common, rfl⟩ := Option.map_eq_some_iff.mp found
    have known : Ancestry.collect ((together ancestry types).map (·.ancestry)) = ancestry := by
      refine Ancestry.collect_of_same (by simpa [together] using present) fun one member => ?_
      obtain ⟨_, inside, rfl⟩ := List.mem_map.mp member
      obtain ⟨_, _, rfl⟩ := List.mem_map.mp inside
      rfl
    rw [known, typeOf, typeOf, commonType?_append chained common]
    exact ⟨fun _ => rfl, rfl⟩
  · rw [common?, Option.map_eq_none_iff, commonType?_eq_none present] at none
    rw [common?, Option.map_eq_none_iff, commonType?_eq_none (by simp [present])]
    exact none.mono fun type => List.mem_append_left _

def zooList (argument : JavaType) : JavaType := .parameterized [] (.topLevel "java.util" "List") [argument]

/-- A list of cats, and one of dogs of any kind. -/
def petLists : List JavaType :=
  [zooList (.ofClass (.topLevel "zoo" "Cat")), zooList (.wildcardExtends [] (.ofClass (.topLevel "zoo" "Dog")))]

def animalLists : List JavaType :=
  [zooList (.wildcardExtends [] (.ofClass (.topLevel "zoo" "Pet"))), zooList (.ofClass (.topLevel "zoo" "Animal"))]

theorem inLevels_petLists :
    animals.Chained ∧ petLists ≠ [] ∧
      (common? (together animals petLists)).map (·.type) =
        some (zooList (.wildcardExtends [] (.ofClass (.topLevel "zoo" "Pet")))) ∧
      (common? (together animals petLists ++ together animals animalLists)).map (·.type) =
        some (zooList (.wildcardExtends [] (.ofClass (.topLevel "zoo" "Animal")))) ∧
      (∀ middle, common? (together animals petLists) = some middle →
        (∀ name, middle.ancestry.supertypes? name = animals.supertypes? name) ∧
          (common? (middle :: together animals animalLists)).map (·.type) =
            (common? (together animals petLists ++ together animals animalLists)).map (·.type)) ∧
      (common? (together animals petLists) = none →
        common? (together animals petLists ++ together animals animalLists) = none) :=
  have chained : animals.Chained := Ancestry.chained_ofTable (by decide)
  have present : petLists ≠ [] := by decide
  ⟨chained, present, rfl, rfl, common?_inLevels animals chained petLists animalLists present⟩

end ReturnType

end TypedTree
