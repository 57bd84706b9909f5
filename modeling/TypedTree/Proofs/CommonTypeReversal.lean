import TypedTree.Graph.Build
import TypedTree.Proofs.SharedColumns

/-! Common types of getters in two orders. There is one in both orders or in neither, and it is the same one if the
first and the last class agree on which common class comes first. -/

namespace TypedTree

open Java (ClassName JavaType Ancestry Shape)

namespace Java.Ancestry

variable {ancestry : Ancestry} {names others : List ClassName} {name : ClassName}

/-- A class that every one of some classes is, or is below. -/
def Covers (ancestry : Ancestry) (names : List ClassName) (name : ClassName) : Prop :=
  ∀ own ∈ names, name ∈ own :: ancestry.above own

instance (ancestry : Ancestry) (names : List ClassName) (name : ClassName) : Decidable (ancestry.Covers names name) :=
  inferInstanceAs (Decidable (∀ own ∈ names, name ∈ own :: ancestry.above own))

/-- The class that covers all, and comes first for the first of them. -/
def leading? (ancestry : Ancestry) : List ClassName → Option ClassName
  | [] => none
  | first :: rest => (first :: ancestry.above first).find? fun name => ancestry.Covers (first :: rest) name

/-- The first and the last class have the same class in front of all others that cover everything. -/
def Undisputed (ancestry : Ancestry) (names : List ClassName) : Prop :=
  ancestry.leading? names.reverse = ancestry.leading? names

/-- A class that covers all, and is below all others that do. -/
structure LeastCover (ancestry : Ancestry) (names : List ClassName) (name : ClassName) : Prop where
  covers : ancestry.Covers names name
  below : ∀ other, ancestry.Covers names other → other ∈ name :: ancestry.above name

theorem Covers.congr (same : ∀ own, own ∈ names ↔ own ∈ others) :
    ancestry.Covers names name ↔ ancestry.Covers others name :=
  forall_congr' fun own => imp_congr_left (same own)

theorem covers_of_leading? (found : ancestry.leading? names = some name) : ancestry.Covers names name := by
  cases names with
  | nil => cases found
  | cons first rest => simpa using List.find?_some found

theorem leading?_of_same {first : ClassName} {rest : List ClassName} (same : ∀ other ∈ rest, other = first) :
    ancestry.leading? (first :: rest) = some first := by
  have covers : ancestry.Covers (first :: rest) first := by
    refine List.forall_mem_cons.mpr ⟨List.mem_cons_self, fun own member => ?_⟩
    rw [same own member]
    exact List.mem_cons_self
  simp only [leading?, List.find?_cons, covers, decide_true]

theorem undisputed_nil : ancestry.Undisputed [] := rfl

/-- In an ordered ancestry a class that comes later is not below one that comes earlier. -/
theorem Ordered.pairwise (ordered : ancestry.Ordered) (name : ClassName) :
    (name :: ancestry.above name).Pairwise fun earlier later => earlier ∉ later :: ancestry.above later := by
  have plain : (JavaType.ofClass name).annotations = [] := rfl
  have choices := ordered.pairwise_choices plain
  rw [JavaType.ofClass, choices_classType, ← JavaType.ofClass, ← List.map_cons, List.pairwise_map] at choices
  exact choices.imp fun apart above => apart (ofClass_mem_choices.mpr above)

theorem LeastCover.leading? (least : ancestry.LeastCover names name) (ordered : ancestry.Ordered) (present : names ≠ []) :
    ancestry.leading? names = some name := by
  cases names with
  | nil => exact absurd rfl present
  | cons first rest =>
    have listed : name ∈ first :: ancestry.above first := least.covers first List.mem_cons_self
    obtain ⟨found, here⟩ : ∃ found, ancestry.leading? (first :: rest) = some found := by
      rw [← Option.isSome_iff_exists, Ancestry.leading?, List.find?_isSome]
      exact ⟨name, listed, decide_eq_true least.covers⟩
    obtain ⟨_, before, after, split, passed⟩ := List.find?_eq_some_iff_append.mp here
    rw [here]
    rw [split] at listed
    rcases List.mem_append.mp listed with earlier | later
    · have uncovered := passed name earlier
      simp [least.covers] at uncovered
    · rcases List.mem_cons.mp later with rfl | later
      · rfl
      -- What leads covers all and so is above the least class, which then cannot come later.
      · have pairs := ordered.pairwise first
        rw [split] at pairs
        have apart := (List.pairwise_cons.mp (List.pairwise_append.mp pairs).2.1).1 name later
        exact absurd (least.below found (covers_of_leading? here)) apart

/-- The orders of supertypes do not matter to classes with a least class above them. -/
theorem LeastCover.undisputed (least : ancestry.LeastCover names name) (ordered : ancestry.Ordered) :
    ancestry.Undisputed names := by
  by_cases present : names = []
  · rw [present]
    exact undisputed_nil
  · have turned : ancestry.LeastCover names.reverse name :=
      ⟨(Covers.congr fun _ => List.mem_reverse).mpr least.covers,
        fun other covers => least.below other ((Covers.congr fun _ => List.mem_reverse).mp covers)⟩
    rw [Undisputed, turned.leading? ordered (mt List.reverse_eq_nil_iff.mp present), least.leading? ordered present]

end Java.Ancestry

namespace Choices

variable {ancestry : Ancestry} {first : ClassName} {rest names : List ClassName}

def covering (ancestry : Ancestry) (first : ClassName) (rest : List ClassName) : List ClassName :=
  (first :: ancestry.above first).filter fun name => ancestry.Covers (first :: rest) name

theorem head?_covering : (covering ancestry first rest).head? = ancestry.leading? (first :: rest) := List.head?_filter

private theorem sharedBy_ofClass :
    sharedBy (shared ancestry (rest.map JavaType.ofClass)) (allowed (.ofClass first, ancestry)) =
      (covering ancestry first rest).map JavaType.ofClass := by
  have all : allowed (.ofClass first, ancestry) = (first :: ancestry.above first).map JavaType.ofClass := rfl
  rw [sharedBy, all, covering, List.filter_map]
  congr 1
  apply List.filter_congr
  intro name listed
  rw [Function.comp_apply, decide_eq_decide, Ancestry.Covers, List.forall_mem_cons, and_iff_right listed]
  simp only [shared, List.forall_mem_map]
  exact forall₂_congr fun own _ => Ancestry.ofClass_mem_choices

theorem leftOver_ofClass :
    leftOver (shared ancestry (rest.map JavaType.ofClass)) (allowed (.ofClass first, ancestry))
        (labels (.ofClass first, ancestry)) =
      if covering ancestry first rest = [] then none
      else some (narrowed ((covering ancestry first rest).map JavaType.ofClass) []) := by
  have plain : ∀ candidate ∈ shared ancestry (rest.map JavaType.ofClass), labels candidate = [] := by
    simp only [shared, List.forall_mem_map]
    exact fun _ _ => rfl
  by_cases none : covering ancestry first rest = []
  · rw [if_pos none, leftOver, if_neg]
    rintro ⟨_, left⟩
    rw [sharedBy_ofClass, none] at left
    exact left rfl
  · rw [if_neg none, leftOver, sharedBy_ofClass, if_pos]
    · rfl
    · refine ⟨plain, ?_⟩
      rw [sharedBy_ofClass]
      exact mt List.map_eq_nil_iff.mp none

theorem ofClass_injective : Function.Injective JavaType.ofClass := by
  intro one other same
  cases same
  rfl

private theorem ofCandidates_ofClass :
    ofCandidates (shared ancestry ((first :: rest).map JavaType.ofClass)) =
      if ∀ other ∈ rest, other = first then some (same (.ofClass first) ancestry)
      else if covering ancestry first rest = [] then none
      else some (narrowed ((covering ancestry first rest).map JavaType.ofClass) []) := by
  have equal : (∀ type ∈ rest.map JavaType.ofClass, type = .ofClass first) ↔ ∀ other ∈ rest, other = first := by
    rw [List.forall_mem_map]
    exact forall₂_congr fun _ _ => ofClass_injective.eq_iff
  rw [List.map_cons, ofCandidates_shared_cons, leftOver_ofClass]
  simp only [equal]

theorem best?_ofClass (names : List ClassName) :
    (ofCandidates (shared ancestry (names.map JavaType.ofClass))).bind best? =
      (ancestry.leading? names).map JavaType.ofClass := by
  cases names with
  | nil => rfl
  | cons first rest =>
    rw [ofCandidates_ofClass]
    split
    next same =>
      rw [Ancestry.leading?_of_same same]
      rfl
    next =>
      rw [← head?_covering]
      cases covering ancestry first rest <;> rfl

/-- A class that several classes were narrowed to is only a bound of an argument. -/
def argument (names : List ClassName) (name : ClassName) : JavaType :=
  if ∀ one ∈ names, ∀ other ∈ names, one = other then .ofClass name else .wildcardExtends [] (.ofClass name)

theorem bestArgument?_ofClass (names : List ClassName) :
    (ofCandidates (shared ancestry (names.map JavaType.ofClass))).bind bestArgument? =
      (ancestry.leading? names).map (argument names) := by
  cases names with
  | nil => rfl
  | cons first rest =>
    have equal : (∀ one ∈ first :: rest, ∀ other ∈ first :: rest, one = other) ↔ ∀ other ∈ rest, other = first := by
      constructor
      · exact fun same other member => same other (List.mem_cons_of_mem _ member) first List.mem_cons_self
      · intro same
        have all : ∀ other ∈ first :: rest, other = first := List.forall_mem_cons.mpr ⟨rfl, same⟩
        exact fun one member other otherMember => (all one member).trans (all other otherMember).symm
    rw [ofCandidates_ofClass]
    split
    next same =>
      rw [Ancestry.leading?_of_same same, Option.map_some, argument, if_pos (equal.mpr same)]
      rfl
    next differ =>
      have bounds : argument (first :: rest) = fun name => .wildcardExtends [] (.ofClass name) :=
        funext fun _ => if_neg (mt equal.mp differ)
      rw [← head?_covering, bounds]
      cases covering ancestry first rest <;> rfl

theorem argument_reverse (names : List ClassName) : argument names.reverse = argument names := by
  funext name
  simp only [argument, List.mem_reverse]

theorem argument_injective (names : List ClassName) : Function.Injective (argument names) := by
  intro one other same
  unfold argument at same
  split at same
  · exact ofClass_injective same
  · cases same
    rfl

end Choices

/-- What getters return: an element, or a list or an optional of it. -/
inductive GetterType where
  | plain (element : ClassName)
  | list (element : ClassName)
  | optional (element : ClassName)
deriving DecidableEq, Repr

namespace GetterType

def type : GetterType → JavaType
  | plain element => .ofClass element
  | list element => .parameterized [] (javaUtil "List") [.ofClass element]
  | optional element => .parameterized [] (javaUtil "Optional") [.ofClass element]

def raw : GetterType → ClassName
  | plain element => element
  | list _ => javaUtil "List"
  | optional _ => javaUtil "Optional"

/-- The class inside a list or an optional. -/
def inner? : GetterType → Option ClassName
  | plain _ => none
  | list element => some element
  | optional element => some element

theorem className?_type (getter : GetterType) : getter.type.className? = some getter.raw := by
  cases getter <;> rfl

theorem annotations_type (getter : GetterType) : getter.type.annotations = [] := by
  cases getter <;> rfl

theorem arguments_type (getter : GetterType) : getter.type.arguments = getter.inner?.toList.map JavaType.ofClass := by
  cases getter <;> rfl

theorem shape_type (getter : GetterType) :
    getter.type.shape = if getter.inner?.isSome then .parameterized else .plainClass := by
  cases getter <;> rfl

end GetterType

namespace ReturnType

variable {ancestry : Ancestry}

/-- What some getters return, all with the same knowledge of supertypes. -/
def ofGetters (ancestry : Ancestry) (getters : List GetterType) : List ReturnType :=
  getters.map fun getter => ⟨getter.type, ancestry⟩

theorem ofGetters_eq (getters : List GetterType) :
    ofGetters ancestry getters = together ancestry (getters.map GetterType.type) := by
  rw [ofGetters, together, List.map_map]
  rfl

theorem columnClass?_ofGetters (getters : List GetterType) :
    columnClass? (ofGetters ancestry getters) =
      (ancestry.leading? (getters.map GetterType.raw)).map JavaType.ofClass := by
  have classes : classTypes (getters.map GetterType.type) = (getters.map GetterType.raw).map JavaType.ofClass := by
    rw [classTypes, List.filterMap_map, List.map_map, ← List.filterMap_eq_map]
    apply List.filterMap_congr
    intro getter _
    rw [Function.comp_apply, getter.className?_type, getter.annotations_type]
    rfl
  rw [ofGetters_eq, columnClass?, classColumn_together, classes, Choices.best?_ofClass]

theorem columnArgument?_ofGetters (getters : List GetterType) :
    columnArgument? (ofGetters ancestry getters) 0 =
      (ancestry.leading? (getters.filterMap GetterType.inner?)).map
        (Choices.argument (getters.filterMap GetterType.inner?)) := by
  have arguments : argumentsAt 0 (getters.map GetterType.type) =
      (getters.filterMap GetterType.inner?).map JavaType.ofClass := by
    rw [argumentsAt, List.filterMap_map, List.map_filterMap]
    apply List.filterMap_congr
    intro getter _
    rw [Function.comp_apply, getter.arguments_type]
    cases getter.inner? <;> rfl
  rw [ofGetters_eq, columnArgument?, argumentColumn_together, arguments, Choices.bestArgument?_ofClass]

theorem columnArgument?_ofGetters_succ (getters : List GetterType) (position : Nat) :
    columnArgument? (ofGetters ancestry getters) (position + 1) = none := by
  have arguments : argumentsAt (position + 1) (getters.map GetterType.type) = [] := by
    rw [argumentsAt, List.filterMap_map, List.filterMap_eq_nil_iff]
    intro getter _
    rw [Function.comp_apply, getter.arguments_type]
    cases getter.inner? <;> rfl
  rw [ofGetters_eq, columnArgument?, argumentColumn_together, arguments]
  rfl

def typeOfGetters? (ancestry : Ancestry) (getters : List GetterType) : Option JavaType :=
  (common? (ofGetters ancestry getters)).map (·.type)

theorem typeOfGetters?_eq (getters : List GetterType) :
    typeOfGetters? ancestry getters = commonType? (ofGetters ancestry getters) := by
  rw [typeOfGetters?, common?, Option.map_map]
  exact congrFun Option.map_id _

theorem isSome_typeOfGetters?_reverse (getters : List GetterType) :
    (typeOfGetters? ancestry getters.reverse).isSome = (typeOfGetters? ancestry getters).isSome := by
  rw [typeOfGetters?_eq, typeOfGetters?_eq]
  by_cases present : getters = []
  · rw [present]
    rfl
  · have types : getters.map GetterType.type ≠ [] := mt List.map_eq_nil_iff.mp present
    have turned : getters.reverse.map GetterType.type ≠ [] :=
      mt List.map_eq_nil_iff.mp (mt List.reverse_eq_nil_iff.mp present)
    have either : commonType? (ofGetters ancestry getters.reverse) = none ↔
        commonType? (ofGetters ancestry getters) = none := by
      rw [ofGetters_eq, ofGetters_eq, commonType?_eq_none types, commonType?_eq_none turned]
      constructor
      · exact .congr fun type => by simp
      · exact .congr fun type => by simp
    rw [Bool.eq_iff_iff, Option.isSome_iff_ne_none, Option.isSome_iff_ne_none]
    exact not_congr either

section

variable {getters : List GetterType} {type : JavaType}

theorem leading?_raw_of_joins (joins : Joins ancestry (getters.map GetterType.type) type) {name : ClassName}
    (named : type.className? = some name) :
    (ancestry.leading? (getters.map GetterType.raw)).map JavaType.ofClass = some (.classType type.annotations name) := by
  rw [← columnClass?_ofGetters, ofGetters_eq]
  exact joins.classes name named

theorem leading?_inner_of_joins (joins : Joins ancestry (getters.map GetterType.type) type) {argument : JavaType}
    (here : type.arguments[0]? = some argument) :
    (ancestry.leading? (getters.filterMap GetterType.inner?)).map
      (Choices.argument (getters.filterMap GetterType.inner?)) = some argument := by
  rw [← columnArgument?_ofGetters, ofGetters_eq]
  exact joins.arguments 0 argument here

theorem undisputed_raw (present : getters ≠ []) (joins : Joins ancestry (getters.map GetterType.type) type)
    (turned : Joins ancestry (getters.reverse.map GetterType.type) type) :
    ancestry.Undisputed (getters.map GetterType.raw) := by
  obtain ⟨getter, inside⟩ := List.exists_mem_of_ne_nil getters present
  have shape : type.shape ≠ .other := by
    rw [← (joins.uniform _ (List.mem_map_of_mem inside)).1, getter.shape_type]
    split <;> simp
  obtain ⟨name, named⟩ := JavaType.exists_className shape
  have forward := leading?_raw_of_joins joins named
  have backward := leading?_raw_of_joins turned named
  rw [List.map_reverse] at backward
  exact Option.map_injective Choices.ofClass_injective (backward.trans forward.symm)

theorem undisputed_inner (joins : Joins ancestry (getters.map GetterType.type) type)
    (turned : Joins ancestry (getters.reverse.map GetterType.type) type) :
    ancestry.Undisputed (getters.filterMap GetterType.inner?) := by
  cases first : type.arguments[0]? with
  | none =>
    have empty : getters.filterMap GetterType.inner? = [] := by
      rw [List.filterMap_eq_nil_iff]
      intro getter inside
      have length := (joins.uniform _ (List.mem_map_of_mem inside)).2
      have none : type.arguments = [] := by simpa using first
      rw [none, getter.arguments_type] at length
      simpa using length
    rw [empty]
    exact Ancestry.undisputed_nil
  | some argument =>
    have forward := leading?_inner_of_joins joins first
    have backward := leading?_inner_of_joins turned first
    rw [List.filterMap_reverse, Choices.argument_reverse] at backward
    exact Option.map_injective (Choices.argument_injective _) (backward.trans forward.symm)

theorem typeOfGetters?_reverse_of_undisputed (present : getters ≠ [])
    (classes : ancestry.Undisputed (getters.map GetterType.raw))
    (elements : ancestry.Undisputed (getters.filterMap GetterType.inner?)) :
    typeOfGetters? ancestry getters.reverse = typeOfGetters? ancestry getters := by
  have member : ∀ type, type ∈ getters.reverse.map GetterType.type ↔ type ∈ getters.map GetterType.type := by simp
  rw [typeOfGetters?_eq, typeOfGetters?_eq, ofGetters_eq, ofGetters_eq]
  refine commonType?_congr (by simpa using present) (by simpa using present) (fun shape count => ?_) (fun type _ => ?_)
    ?_ fun position => ?_
  · exact forall_congr' fun type => imp_congr_left (member type)
  · exact forall_congr' fun type => imp_congr_left (member type)
  · rw [← ofGetters_eq, ← ofGetters_eq, columnClass?_ofGetters, columnClass?_ofGetters, List.map_reverse, classes]
  · rw [← ofGetters_eq, ← ofGetters_eq]
    cases position with
    | zero =>
      rw [columnArgument?_ofGetters, columnArgument?_ofGetters, List.filterMap_reverse, Choices.argument_reverse, elements]
    | succ position => rw [columnArgument?_ofGetters_succ, columnArgument?_ofGetters_succ]

/-- The common type does not depend on the order exactly if neither the classes nor the elements are disputed. -/
theorem typeOfGetters?_reverse_eq_some_iff (found : typeOfGetters? ancestry getters = some type) :
    typeOfGetters? ancestry getters.reverse = some type ↔
      ancestry.Undisputed (getters.map GetterType.raw) ∧ ancestry.Undisputed (getters.filterMap GetterType.inner?) := by
  have present : getters ≠ [] := by
    rintro rfl
    cases found
  constructor
  · intro turned
    rw [typeOfGetters?_eq, ofGetters_eq] at found turned
    have joins := joins_of_commonType? found
    have turnedJoins := joins_of_commonType? turned
    exact ⟨undisputed_raw present joins turnedJoins, undisputed_inner joins turnedJoins⟩
  · intro ⟨classes, elements⟩
    rw [← found]
    exact typeOfGetters?_reverse_of_undisputed present classes elements

end

/-- What turning some getters around keeps of their common type. -/
structure Reversal (ancestry : Ancestry) (getters : List GetterType) : Prop where
  either : (typeOfGetters? ancestry getters.reverse).isSome = (typeOfGetters? ancestry getters).isSome
  same : ∀ type, typeOfGetters? ancestry getters = some type →
    (typeOfGetters? ancestry getters.reverse = some type ↔
      ancestry.Undisputed (getters.map GetterType.raw) ∧ ancestry.Undisputed (getters.filterMap GetterType.inner?))
  least : ∀ raw, ancestry.LeastCover (getters.map GetterType.raw) raw →
    (getters.filterMap GetterType.inner? ≠ [] →
      ∃ inner, ancestry.LeastCover (getters.filterMap GetterType.inner?) inner) →
    typeOfGetters? ancestry getters.reverse = typeOfGetters? ancestry getters

theorem reversal_of_ordered (ordered : ancestry.Ordered) (getters : List GetterType) : Reversal ancestry getters := by
  refine ⟨isSome_typeOfGetters?_reverse getters, fun _ => typeOfGetters?_reverse_eq_some_iff, fun raw least inner => ?_⟩
  by_cases present : getters = []
  · rw [present]
    rfl
  · refine typeOfGetters?_reverse_of_undisputed present (least.undisputed ordered) ?_
    by_cases plain : getters.filterMap GetterType.inner? = []
    · rw [plain]
      exact Ancestry.undisputed_nil
    · obtain ⟨element, leastElement⟩ := inner plain
      exact leastElement.undisputed ordered

end ReturnType

end TypedTree
