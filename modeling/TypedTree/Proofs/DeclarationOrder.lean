import TypedTree.Proofs.DependencyOrder
import TypedTree.Proofs.FinishingOrder
import TypedTree.Proofs.GraphAncestry
import TypedTree.Proofs.GraphOrders
import TypedTree.Proofs.HoistingSafety

/-! The order of declarations. All types are declared, each before its subtypes. Types come in the order of their
creation as long as nothing that was created later stands above them; below such a type the order of its subtypes is
turned around. -/

namespace TypedTree.TypeGraph

open TypedTree.Order (References Strangers Reaches followed Precedes)
open ListEffects (exists_ok_of_map)

variable {graph : TypeGraph} {known order : List TypeId} {id first second : TypeId}

/-- Edges are known at both of their ends, which are nodes. -/
structure Paired (graph : TypeGraph) : Prop where
  mirrored : ∀ above below, graph.Above below above ↔ graph.Below above below
  inside : ∀ above below, graph.Below above below → below ∈ graph.ids

instance (graph : TypeGraph) (above below : TypeId) : Decidable (graph.Below above below) :=
  inferInstanceAs (Decidable (below ∈ (graph.node above).subtypes))

instance (graph : TypeGraph) (below above : TypeId) : Decidable (graph.Above below above) :=
  inferInstanceAs (Decidable (above ∈ (graph.node below).supertypes))

/-- Only the nodes have to be looked at. -/
theorem paired_iff : graph.Paired ↔ ∀ id ∈ graph.ids,
    (∀ above ∈ (graph.node id).supertypes, graph.Below above id) ∧
      ∀ below ∈ (graph.node id).subtypes, below ∈ graph.ids ∧ graph.Above below id := by
  constructor
  · intro paired id _
    constructor
    · exact fun above edge => (paired.mirrored above id).mp edge
    · exact fun below edge => ⟨paired.inside id below edge, (paired.mirrored id below).mpr edge⟩
  · intro each
    constructor
    · intro above below
      constructor
      · exact fun edge => (each below edge.inside).1 above edge
      · exact fun edge => ((each above edge.inside).2 below edge).2
    · exact fun above below edge => ((each above edge.inside).2 below edge).1

instance (graph : TypeGraph) : Decidable graph.Paired := decidable_of_iff' _ paired_iff

theorem Paired.followed (paired : graph.Paired) (all : ∀ id ∈ graph.ids, id ∈ known) (id : TypeId) :
    followed (graph.edges TypeNode.subtypes rfl) .refuse known id = (graph.node id).subtypes := by
  apply List.filter_eq_self.mpr
  intro below edge
  exact decide_eq_true (all below (paired.inside id below edge))

theorem Paired.reaches (paired : graph.Paired) (all : ∀ id ∈ graph.ids, id ∈ known) {above below : TypeId} :
    Reaches (Order.followed (graph.edges TypeNode.subtypes rfl) .refuse known) above below ↔
      Relation.ReflTransGen graph.Below above below := by
  have same : Order.followed (graph.edges TypeNode.subtypes rfl) .refuse known = fun id => (graph.node id).subtypes :=
    funext (paired.followed all)
  rw [same]
  rfl

theorem exists_declarationOrder (paired : graph.Paired) : ∃ order, graph.declarationOrder = .ok order := by
  obtain ⟨order, run⟩ : ∃ order, Order.sort (graph.edges TypeNode.subtypes rfl) .refuse graph.ids.reverse = .ok order := by
    apply Order.exists_sort
    intro _ above _ below edge
    exact List.mem_reverse.mpr (paired.inside above below edge)
  exact ⟨order, orderIds_eq_ok.mpr run⟩

/-- The nodes that are newer than a node, and those that are older. -/
theorem exists_newer (inside : id ∈ graph.ids) : ∃ newer older, graph.ids.reverse = newer ++ id :: older ∧
    ∀ other, other ∈ newer ↔ other ∈ graph.ids ∧ id < other := by
  obtain ⟨newer, older, split⟩ := List.append_of_mem (List.mem_reverse.mpr inside)
  have descending : graph.ids.reverse.Pairwise (· > ·) := List.pairwise_reverse.mpr List.pairwise_lt_range
  rw [split] at descending
  obtain ⟨_, rest, ahead⟩ := List.pairwise_append.mp descending
  have behind := (List.pairwise_cons.mp rest).1
  refine ⟨newer, older, split, fun other => ?_⟩
  have member : other ∈ graph.ids ↔ other ∈ newer ++ id :: older := by rw [← split, List.mem_reverse]
  rw [member, List.mem_append, List.mem_cons]
  constructor
  · intro new
    exact ⟨Or.inl new, ahead other new id List.mem_cons_self⟩
  · rintro ⟨new | rfl | old, less⟩
    · exact new
    · exact absurd less (Nat.lt_irrefl other)
    · exact absurd (behind other old) (Nat.lt_asymm less)

/-- A type is declared before those that were created later, unless one of these is above it. -/
theorem sublist_of_created (paired : graph.Paired) (run : graph.declarationOrder = .ok order)
    (inside : second ∈ graph.ids) (less : first < second)
    (below : ∀ above, Relation.TransGen graph.Below above first → above < second) : [first, second].Sublist order := by
  obtain ⟨newer, older, split, isNewer⟩ := exists_newer inside
  have all : ∀ id ∈ graph.ids, id ∈ (newer ++ [second]) ++ older := by
    intro id member
    rw [List.append_assoc, List.singleton_append, ← split]
    exact List.mem_reverse.mpr member
  have run := orderIds_eq_ok.mp run
  have sorted := Order.sorted_of_sort run
  have member : first ∈ order := by
    rw [sorted.mem_iff nofun, List.mem_reverse, mem_ids]
    exact Nat.lt_trans less (mem_ids.mp inside)
  rw [split, List.append_cons] at run
  apply Order.sublist_of_unreached run member
  · intro above newest path
    have late : second ≤ above := by
      rcases List.mem_append.mp newest with new | last
      · exact Nat.le_of_lt ((isNewer above).mp new).2
      · exact Nat.le_of_eq (List.mem_singleton.mp last).symm
    rcases Relation.reflTransGen_iff_eq_or_transGen.mp ((paired.reaches all).mp path) with same | path
    · exact absurd (same ▸ less) (Nat.not_lt.mpr late)
    · exact absurd (below above path) (Nat.not_lt.mpr late)
  · exact ⟨second, List.mem_append_right _ (List.mem_singleton_self second), .refl⟩

/-- An order of declarations that respects the hierarchy. That one comes before another says that the two are a
sublist. -/
structure Declares (graph : TypeGraph) (order : List TypeId) : Prop where
  all : order.Perm graph.ids
  ahead : ∀ above below, graph.Below above below → ¬ Relation.ReflTransGen graph.Below below above →
    [above, below].Sublist order
  roots : ∀ first second, second ∈ graph.ids → first < second → (graph.node first).supertypes = [] →
    (graph.node second).supertypes = [] → [first, second].Sublist order
  created : (∀ above below, graph.Below above below → above < below) → order = graph.ids

/-- Every graph has an order of declarations, in which each type comes before the subtypes that do not lead back to it.
Types without supertypes are declared as they were created, and so are all types if each was created before its
subtypes. -/
theorem declarationOrder_complete (graph : TypeGraph) (paired : graph.Paired) :
    ∃ order, graph.declarationOrder = .ok order ∧ graph.Declares order := by
  obtain ⟨order, found⟩ := exists_declarationOrder paired
  have run := orderIds_eq_ok.mp found
  have sorted := Order.sorted_of_sort run
  have member : ∀ id, id ∈ order ↔ id ∈ graph.ids := by
    intro id
    rw [sorted.mem_iff nofun, List.mem_reverse]
  have known : ∀ id ∈ graph.ids, id ∈ graph.ids.reverse := fun _ => List.mem_reverse.mpr
  refine ⟨order, found, ?_, fun above below edge apart => ?_, fun first second inside less root _ => ?_, fun created => ?_⟩
  · exact (List.perm_ext_iff_of_nodup sorted.distinct List.nodup_range).mpr member
  · obtain ⟨before, after, rfl⟩ := List.append_of_mem ((member above).mpr edge.inside)
    apply Order.sublist_of_mem_after
    apply sorted.settled.mem_after
    · rw [paired.followed known]
      exact edge
    · exact fun path => apart ((paired.reaches known).mp path)
  · apply sublist_of_created paired found inside less
    intro above path
    obtain ⟨direct, _, edge⟩ := Relation.TransGen.tail'_iff.mp path
    have supertype := (paired.mirrored direct first).mpr edge
    rw [Above, root] at supertype
    cases supertype
  · have refused : Strangers.refuse ≠ .add := nofun
    have descending : graph.ids.reverse.Nodup := List.nodup_reverse.mpr List.nodup_range
    have backward : ∀ above ∈ graph.ids.reverse, ∀ below ∈ (graph.edges TypeNode.subtypes rfl).targets above,
        below ∈ graph.ids.reverse → below ≠ above → [below, above].Sublist graph.ids.reverse := by
      intro above _ below target _ _
      have edge : graph.Below above below := target
      obtain ⟨newer, older, split, isNewer⟩ := exists_newer edge.inside
      have new := (isNewer below).mpr ⟨paired.inside above below edge, created above below edge⟩
      rw [split]
      exact (List.singleton_sublist.mpr new).append (List.singleton_sublist.mpr List.mem_cons_self)
    rw [Order.reverse_of_sort refused descending backward run, List.reverse_reverse]

/-- Packs are tribes and tribes are packs. Wolves live in packs, and tribes are kin. -/
def pack : TypeGraph :=
  let name (simple : String) : Java.ClassName := .topLevel "pack" simple
  { nodes := #[{ TypeNode.new "wolf" (name "Wolf") .regular with supertypes := [1] },
      { TypeNode.new "pack" (name "Pack") .supertype with supertypes := [2], subtypes := [0, 2] },
      { TypeNode.new "tribe" (name "Tribe") .supertype with supertypes := [1, 4], subtypes := [1] },
      TypeNode.new "owl" (name "Owl") .regular,
      { TypeNode.new "kin" (name "Kin") .supertype with subtypes := [2] }]
    root := none }

theorem declarationOrder_complete_pack :
    pack.Paired ∧ pack.declarationOrder = .ok [3, 4, 2, 1, 0] ∧ pack.Declares [3, 4, 2, 1, 0] := by
  have paired : pack.Paired := by decide
  have run : pack.declarationOrder = .ok [3, 4, 2, 1, 0] := by rfl
  obtain ⟨order, found, declares⟩ := declarationOrder_complete pack paired
  cases run.symm.trans found
  exact ⟨paired, run, declares⟩

/-- Types with the same direct supertypes, neither of them above the other. -/
structure Siblings (graph : TypeGraph) (first second : TypeId) : Prop where
  same : ∀ above, graph.Below above first ↔ graph.Below above second
  apart : ¬ Relation.TransGen graph.Below first second
  otherApart : ¬ Relation.TransGen graph.Below second first

/-- Types without subtypes are siblings if they have the same supertypes. -/
theorem siblings_of_leaves (paired : graph.Paired)
    (supertypes : (graph.node first).supertypes = (graph.node second).supertypes)
    (leaf : (graph.node first).subtypes = []) (otherLeaf : (graph.node second).subtypes = []) :
    graph.Siblings first second := by
  have nothing : ∀ {id other}, (graph.node id).subtypes = [] → ¬ Relation.TransGen graph.Below id other := by
    intro id other none path
    obtain ⟨below, edge, _⟩ := Relation.TransGen.head'_iff.mp path
    rw [Below, none] at edge
    cases edge
  refine ⟨fun above => ?_, nothing leaf, nothing otherLeaf⟩
  rw [← paired.mirrored, ← paired.mirrored, Above, Above, supertypes]

theorem Siblings.path (siblings : graph.Siblings first second) {above : TypeId} :
    Relation.TransGen graph.Below above first ↔ Relation.TransGen graph.Below above second := by
  simp only [Relation.TransGen.tail'_iff, siblings.same]

/-- Two types are listed in one order and declared in the other one. -/
def Turned (listed order : List TypeId) (first second : TypeId) : Prop :=
  [first, second].Sublist listed ∧ [second, first].Sublist order ∨
    [second, first].Sublist listed ∧ [first, second].Sublist order

/-- Siblings below a type that is newer than them come in the order in which one of their supertypes lists them, turned
around. -/
theorem exists_turned (paired : graph.Paired) (run : graph.declarationOrder = .ok order) (inside : second ∈ graph.ids)
    (less : first < second) (siblings : graph.Siblings first second) {top : TypeId}
    (path : Relation.TransGen graph.Below top second) (newest : second < top) :
    ∃ above, graph.Below above second ∧ Turned (graph.node above).subtypes order first second := by
  obtain ⟨newer, older, split, isNewer⟩ := exists_newer inside
  have all : ∀ id ∈ graph.ids, id ∈ newer ++ second :: older := by
    intro id member
    rw [← split]
    exact List.mem_reverse.mpr member
  have different : first ≠ second := Nat.ne_of_lt less
  have run := orderIds_eq_ok.mp run
  have sorted := Order.sorted_of_sort run
  have member : ∀ id ∈ graph.ids, id ∈ order := by
    intro id known
    rwa [sorted.mem_iff nofun, List.mem_reverse]
  have firstInside : first ∈ graph.ids := mem_ids.mpr (Nat.lt_trans less (mem_ids.mp inside))
  have top : top ∈ newer := by
    obtain ⟨_, edge, _⟩ := Relation.TransGen.head'_iff.mp path
    exact (isNewer top).mpr ⟨edge.inside, newest⟩
  have unrelated : ∀ {id other}, id ≠ other → ¬ Relation.TransGen graph.Below id other →
      ¬ Reaches (followed (graph.edges TypeNode.subtypes rfl) .refuse (newer ++ second :: older)) id other := by
    intro id other different apart path
    rcases Relation.reflTransGen_iff_eq_or_transGen.mp ((paired.reaches all).mp path) with same | path
    · exact different same.symm
    · exact apart path
  rw [split] at run
  obtain ⟨above, listed⟩ := Order.exists_precedes_of_sort run
    (fun new => Nat.lt_asymm less ((isNewer first).mp new).2) (fun new => Nat.lt_irrefl second ((isNewer second).mp new).2)
    (unrelated different siblings.apart) (unrelated (Ne.symm different) siblings.otherApart)
    ⟨_, top, (paired.reaches all).mpr (siblings.path.mpr path).to_reflTransGen⟩ (member first firstInside)
    (member second inside)
  rw [paired.followed all] at listed
  rcases listed with ⟨precedes, behind⟩ | ⟨precedes, behind⟩
  · have edge := (siblings.same above).mp precedes.mem
    exact ⟨above, edge, Or.inl ⟨precedes.sublist (Ne.symm different) edge, behind⟩⟩
  · have edge : graph.Below above second := precedes.mem
    exact ⟨above, edge, Or.inr ⟨precedes.sublist different ((siblings.same above).mpr edge), behind⟩⟩

/-- Siblings are declared in the order of their creation if all types above them are older. If one of these is newer, the
order is that of the subtypes of a common supertype, turned around. -/
theorem declarationOrder_siblings (graph : TypeGraph) (paired : graph.Paired) :
    ∃ order, graph.declarationOrder = .ok order ∧ ∀ first second, second ∈ graph.ids → first < second →
      graph.Siblings first second →
        ((∀ above, Relation.TransGen graph.Below above second → above < second) → [first, second].Sublist order) ∧
        ((∃ above, Relation.TransGen graph.Below above second ∧ second < above) →
          ∃ above, graph.Below above second ∧ Turned (graph.node above).subtypes order first second) := by
  obtain ⟨order, run⟩ := exists_declarationOrder paired
  refine ⟨order, run, fun first second inside less siblings => ⟨fun older => ?_, fun ⟨top, path, newest⟩ => ?_⟩⟩
  · apply sublist_of_created paired run inside less
    exact fun above path => older above (siblings.path.mp path)
  · exact exists_turned paired run inside less siblings path newest

/-- Pets are older than cats and dogs, and wild animals are newer than foxes and owls. -/
def litters : TypeGraph :=
  let name (simple : String) : Java.ClassName := .topLevel "litters" simple
  { nodes := #[{ TypeNode.new "pet" (name "Pet") .supertype with subtypes := [1, 2] },
      { TypeNode.new "cat" (name "Cat") .regular with supertypes := [0] },
      { TypeNode.new "dog" (name "Dog") .regular with supertypes := [0] },
      { TypeNode.new "fox" (name "Fox") .regular with supertypes := [5] },
      { TypeNode.new "owl" (name "Owl") .regular with supertypes := [5] },
      { TypeNode.new "wild" (name "Wild") .supertype with subtypes := [3, 4] }]
    root := none }

theorem declarationOrder_siblings_litters :
    litters.Paired ∧ litters.Siblings 1 2 ∧ litters.Siblings 3 4 ∧ litters.declarationOrder = .ok [0, 1, 2, 5, 4, 3] ∧
      ((∀ above, Relation.TransGen litters.Below above 2 → above < 2) → [1, 2].Sublist [0, 1, 2, 5, 4, 3]) ∧
      ∃ above, litters.Below above 4 ∧ Turned (litters.node above).subtypes [0, 1, 2, 5, 4, 3] 3 4 := by
  have paired : litters.Paired := by decide
  have older : litters.Siblings 1 2 := siblings_of_leaves paired rfl rfl rfl
  have newer : litters.Siblings 3 4 := siblings_of_leaves paired rfl rfl rfl
  have run : litters.declarationOrder = .ok [0, 1, 2, 5, 4, 3] := by rfl
  obtain ⟨order, found, siblings⟩ := declarationOrder_siblings litters paired
  cases run.symm.trans found
  have wild : Relation.TransGen litters.Below 5 4 := .single (by decide)
  exact ⟨paired, older, newer, run, (siblings 1 2 (by decide) (by decide) older).1,
    (siblings 3 4 (by decide) (by decide) newer).2 ⟨5, wild, by decide⟩⟩

/-- Cats and dogs are pets. -/
def litter : Grammar where
  nodeTypes := [describe "cat" [] none, describe "dog" [] none, describe "pet" [] (some ["cat", "dog"])]

def validLitter : ValidGrammar where
  regular := [describe "cat" [] none, describe "dog" [] none]
  supertypes := [describe "pet" [] (some ["cat", "dog"])]
  root := none

/-- Dogs are declared before cats, which are older and listed first. -/
theorem turned_litter :
    litter.validate none = .ok validLitter ∧
    ∃ graph, build (Config.default.settings .automatic litter) validLitter = .ok graph ∧ graph.Paired ∧
      (∀ id, ¬ Relation.TransGen graph.Below id id) ∧ 1 ∈ graph.ids ∧ graph.Siblings 0 1 ∧
      graph.declarationOrder = .ok [2, 1, 0] ∧ ¬ [0, 1].Sublist [2, 1, 0] := by
  have shape : (build (Config.default.settings .automatic litter) validLitter).toOption.map (fun graph => decide <|
      graph.Paired ∧ (∀ above ∈ graph.ids, ∀ below ∈ (graph.node above).subtypes, below < above) ∧ 1 ∈ graph.ids ∧
        (graph.node 0).supertypes = (graph.node 1).supertypes ∧ (graph.node 0).subtypes = [] ∧
        (graph.node 1).subtypes = [] ∧ graph.declarationOrder.toOption = some [2, 1, 0]) = some true := by
    decide +kernel
  obtain ⟨graph, built, told⟩ := exists_ok_of_map shape
  obtain ⟨paired, older, inside, same, leaf, otherLeaf, declared⟩ := of_decide_eq_true told
  have less : ∀ {above below}, Relation.TransGen graph.Below above below → below < above := by
    intro above below path
    induction path with
    | single edge => exact older _ edge.inside _ edge
    | tail _ edge ih => exact Nat.lt_trans (older _ edge.inside _ edge) ih
  obtain ⟨order, run⟩ := exists_declarationOrder paired
  rw [run] at declared
  cases declared
  refine ⟨rfl, graph, built, paired, fun id cycle => Nat.lt_irrefl id (less cycle), inside, ?_, run, by decide⟩
  exact siblings_of_leaves paired same leaf otherLeaf

end TypedTree.TypeGraph
