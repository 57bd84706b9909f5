import TypedTree.Proofs.ChoiceNarrowing

/-! Columns whose candidates know the same supertypes. It no longer matters which candidates were asked, so
what is left depends on the types alone. If supertypes are listed before their own supertypes, nothing that
is left stands above another common choice. -/

namespace TypedTree

open Java (ClassName JavaType Ancestry)

namespace Java.Ancestry

/-- Supertypes are listed once, transitively, and before their own supertypes. -/
structure Ordered (ancestry : Ancestry) : Prop where
  distinct : ∀ name, (ancestry.above name).Nodup
  proper : ∀ name, name ∉ ancestry.above name
  before : ∀ name middle top, middle ∈ ancestry.above name → top ∈ ancestry.above middle →
    [middle, top].Sublist (ancestry.above name)

theorem Ordered.transitive {ancestry : Ancestry} (ordered : ancestry.Ordered) {name middle top : ClassName}
    (lower : middle ∈ ancestry.above name) (upper : top ∈ ancestry.above middle) : top ∈ ancestry.above name :=
  (ordered.before name middle top lower upper).subset (by simp)

/-- Only the classes of a table have to be looked at. -/
theorem ordered_ofTable {table : Table ClassName (List ClassName)}
    (ordered : ∀ name ∈ table.keys,
      ((ofTable table).above name).Nodup ∧ name ∉ (ofTable table).above name ∧
        ∀ middle ∈ (ofTable table).above name, ∀ top ∈ (ofTable table).above middle,
          [middle, top].Sublist ((ofTable table).above name)) :
    (ofTable table).Ordered := by
  have unknown : ∀ name, name ∉ table.keys → (ofTable table).above name = [] := by
    intro name absent
    have none : (ofTable table).supertypes? name = none := Table.get?_eq_none absent
    rw [above, none, Option.getD_none]
  constructor
  · intro name
    by_cases known : name ∈ table.keys
    · exact (ordered name known).1
    · rw [unknown name known]
      exact List.nodup_nil
  · intro name
    by_cases known : name ∈ table.keys
    · exact (ordered name known).2.1
    · rw [unknown name known]
      exact List.not_mem_nil
  · intro name middle top lower upper
    by_cases known : name ∈ table.keys
    · exact (ordered name known).2.2 middle lower top upper
    · rw [unknown name known] at lower
      cases lower

theorem not_both_orders {names : List ClassName} (distinct : names.Nodup) {one other : ClassName}
    (forward : [one, other].Sublist names) (backward : [other, one].Sublist names) : False := by
  induction names with
  | nil => cases forward
  | cons name names ih =>
    obtain ⟨absent, distinct⟩ := List.nodup_cons.mp distinct
    rcases List.sublist_cons_iff.mp forward with kept | ⟨_, same, kept⟩
    · rcases List.sublist_cons_iff.mp backward with turned | ⟨_, same, turned⟩
      · exact ih distinct kept turned
      · cases same
        exact absent (kept.subset (List.mem_cons_of_mem _ List.mem_cons_self))
    · cases same
      rcases List.sublist_cons_iff.mp backward with turned | ⟨_, same, turned⟩
      · exact absent (turned.subset (List.mem_cons_of_mem _ List.mem_cons_self))
      · cases same
        exact absent (kept.subset List.mem_cons_self)

theorem mem_choices_ofClass {ancestry : Ancestry} {below : ClassName} {type : JavaType} :
    type ∈ ancestry.choices (.ofClass below) ↔ ∃ name ∈ below :: ancestry.above below, type = .ofClass name := by
  rw [JavaType.ofClass, choices_classType, ← JavaType.ofClass, ← List.map_cons, List.mem_map]
  simp only [eq_comm]

theorem ofClass_mem_choices {ancestry : Ancestry} {below name : ClassName} :
    .ofClass name ∈ ancestry.choices (.ofClass below) ↔ name ∈ below :: ancestry.above below := by
  rw [mem_choices_ofClass]
  constructor
  · rintro ⟨other, member, same⟩
    cases same
    exact member
  · intro member
    exact ⟨name, member, rfl⟩

/-- No choice is followed by one that it stands above. -/
theorem Ordered.pairwise_choices {ancestry : Ancestry} (ordered : ancestry.Ordered) {base : JavaType}
    (plain : base.annotations = []) :
    (ancestry.choices base).Pairwise fun earlier later => earlier ∉ ancestry.choices later := by
  cases base with
  | classType labels name =>
    cases plain
    rw [choices_classType, List.pairwise_cons, List.pairwise_map]
    refine ⟨?_, List.pairwise_iff_forall_sublist.mpr ?_⟩
    · intro type member above
      obtain ⟨middle, listed, rfl⟩ := List.mem_map.mp member
      rcases List.mem_cons.mp (ofClass_mem_choices.mp above) with rfl | above
      · exact ordered.proper _ listed
      · exact ordered.proper _ (ordered.transitive listed above)
    · intro earlier later sublist above
      have listed : later ∈ ancestry.above name := sublist.subset (by simp)
      rcases List.mem_cons.mp (ofClass_mem_choices.mp above) with rfl | above
      · exact not_both_orders (ordered.distinct name) sublist sublist
      · exact not_both_orders (ordered.distinct name) sublist (ordered.before name later earlier listed above)
  | _ => simp [choices]

end Java.Ancestry

namespace Choices

/-- Every type, its wildcard and annotations aside, may be replaced with the choice. -/
def Common (ancestry : Ancestry) (types : List JavaType) (choice : JavaType) : Prop :=
  ∀ type ∈ types, choice ∈ ancestry.choices type.unwrapped.bare

def shared (ancestry : Ancestry) (types : List JavaType) : List (JavaType × Ancestry) := types.map (·, ancestry)

theorem shared_cons (ancestry : Ancestry) (first : JavaType) (rest : List JavaType) :
    shared ancestry (first :: rest) = (first, ancestry) :: shared ancestry rest := rfl

private theorem common_cons {ancestry : Ancestry} {first : JavaType} {rest : List JavaType} {choice : JavaType} :
    Common ancestry (first :: rest) choice ↔
      choice ∈ sharedBy (later (first, ancestry) (shared ancestry rest)) (allowed (first, ancestry)) := by
  rw [mem_sharedBy, Common, List.forall_mem_cons]
  refine and_congr_right fun here => ⟨?_, ?_⟩
  · intro each candidate asked
    obtain ⟨type, member, rfl⟩ := List.mem_map.mp (mem_of_mem_later asked)
    exact each type member
  · intro each type member
    have inside : (type, ancestry) ∈ shared ancestry rest := List.mem_map_of_mem member
    by_cases asked : (type, ancestry) ∈ later (first, ancestry) (shared ancestry rest)
    · exact each _ asked
    · have same : type = first := same_of_not_later inside asked
      exact same ▸ here

private theorem labels_of_later {ancestry : Ancestry} {first : JavaType} {rest : List JavaType}
    (agree : ∀ candidate ∈ later (first, ancestry) (shared ancestry rest),
      labels candidate = labels (first, ancestry)) :
    ∀ type ∈ first :: rest, type.unwrapped.annotations = first.unwrapped.annotations := by
  refine List.forall_mem_cons.mpr ⟨rfl, fun type member => ?_⟩
  have inside : (type, ancestry) ∈ shared ancestry rest := List.mem_map_of_mem member
  by_cases asked : (type, ancestry) ∈ later (first, ancestry) (shared ancestry rest)
  · exact agree _ asked
  · have same : type = first := same_of_not_later inside asked
    rw [same]

/-- What a column of types keeps from being narrowed to a common choice. -/
structure Opposed (ancestry : Ancestry) (types : List JavaType) : Prop where
  differ : ∃ one ∈ types, ∃ other ∈ types, one ≠ other
  conflict : (∃ one ∈ types, ∃ other ∈ types, one.unwrapped.annotations ≠ other.unwrapped.annotations) ∨
    ∀ choice, ¬ Common ancestry types choice

private theorem not_opposed_of_same {ancestry : Ancestry} {first : JavaType} {rest : List JavaType}
    (passed : later (first, ancestry) (shared ancestry rest) = []) : ¬ Opposed ancestry (first :: rest) := by
  have equal : ∀ type ∈ first :: rest, type = first := by
    refine List.forall_mem_cons.mpr ⟨rfl, fun type member => ?_⟩
    have inside : (type, ancestry) ∈ shared ancestry rest := List.mem_map_of_mem member
    have equal : (type, ancestry).1 = (first, ancestry).1 :=
      same_of_not_later inside (by rw [passed]; exact List.not_mem_nil)
    exact equal
  rintro ⟨⟨one, here, other, there, differ⟩, _⟩
  exact differ ((equal one here).trans (equal other there).symm)

private theorem opposed_iff_not_agree {ancestry : Ancestry} {first : JavaType} {rest : List JavaType}
    (started : later (first, ancestry) (shared ancestry rest) ≠ []) :
    Opposed ancestry (first :: rest) ↔
      ¬ Agree (later (first, ancestry) (shared ancestry rest)) (allowed (first, ancestry))
        (labels (first, ancestry)) := by
  constructor
  · rintro ⟨_, ⟨one, here, other, there, differ⟩ | nothing⟩ ⟨agree, left⟩
    · exact differ ((labels_of_later agree one here).trans (labels_of_later agree other there).symm)
    · obtain ⟨choice, common⟩ := List.exists_mem_of_ne_nil _ left
      exact nothing choice (common_cons.mpr common)
  · intro conflict
    obtain ⟨candidate, inside, differs⟩ := exists_differing started
    obtain ⟨type, member, rfl⟩ := List.mem_map.mp inside
    refine ⟨⟨type, List.mem_cons_of_mem _ member, first, List.mem_cons_self, differs⟩, ?_⟩
    by_cases labeled : ∃ candidate ∈ later (first, ancestry) (shared ancestry rest),
        labels candidate ≠ labels (first, ancestry)
    · obtain ⟨candidate, asked, differs⟩ := labeled
      obtain ⟨type, member, rfl⟩ := List.mem_map.mp (mem_of_mem_later asked)
      exact Or.inl ⟨type, List.mem_cons_of_mem _ member, first, List.mem_cons_self, differs⟩
    · refine Or.inr fun choice common => conflict ⟨fun candidate asked => ?_, ?_⟩
      · exact Decidable.byContradiction fun differs => labeled ⟨candidate, asked, differs⟩
      · exact List.ne_nil_of_mem (common_cons.mp common)

theorem ofCandidates_shared_eq_none {ancestry : Ancestry} {types : List JavaType} (present : types ≠ []) :
    ofCandidates (shared ancestry types) = none ↔ Opposed ancestry types := by
  cases types with
  | nil => exact absurd rfl present
  | cons first rest =>
    rw [shared_cons, ofCandidates_cons]
    by_cases passed : later (first, ancestry) (shared ancestry rest) = []
    · rw [if_pos passed]
      exact iff_of_false (by simp) (not_opposed_of_same passed)
    · rw [if_neg passed, opposed_iff_not_agree passed, leftOver]
      split
      next agree => exact iff_of_false (by simp) (not_not_intro agree)
      next conflict => exact iff_of_true rfl conflict

/-- What is left first is a common choice, and stands above no other one. -/
structure MostSpecific (ancestry : Ancestry) (types : List JavaType) (choice : JavaType) : Prop where
  common : Common ancestry types choice
  least : ∀ other, Common ancestry types other → other ≠ choice → choice ∉ ancestry.choices other

theorem mostSpecific_of_narrowed {ancestry : Ancestry} (ordered : ancestry.Ordered) {types : List JavaType}
    {first : JavaType} {rest : List JavaType} {annotations : List ClassName}
    (found : ofCandidates (shared ancestry types) = some (narrowed (first :: rest) annotations)) :
    MostSpecific ancestry types first := by
  cases types with
  | nil => cases found
  | cons type types =>
    rw [shared_cons, ofCandidates_cons] at found
    split at found
    next => cases found
    next started =>
      unfold leftOver at found
      split at found
      next agree =>
        injection found with found
        injection found with left _
        have common : ∀ choice, Common ancestry (type :: types) choice ↔ choice ∈ first :: rest := by
          intro choice
          rw [common_cons, ← left]
        have before : (first :: rest).Pairwise fun earlier later => earlier ∉ ancestry.choices later := by
          rw [← left]
          exact (ordered.pairwise_choices (JavaType.annotations_bare _)).sublist List.filter_sublist
        refine ⟨(common first).mpr List.mem_cons_self, fun other member different => ?_⟩
        rcases List.mem_cons.mp ((common other).mp member) with same | later
        · exact absurd same different
        · exact (List.pairwise_cons.mp before).1 other later
      next => cases found

end Choices

end TypedTree
