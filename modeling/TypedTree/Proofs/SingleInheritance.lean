import TypedTree.Proofs.CommonTypeSets
import TypedTree.Proofs.GraphAncestry

/-! Grammars whose node types have one supertype each. In their graphs the supertypes of a class are a line. -/

namespace TypedTree

open Java (ClassName Ancestry)

/-- No node type is listed by two supertypes. -/
def ValidGrammar.SingleInheritance (grammar : ValidGrammar) (fallback : Table String String) : Prop :=
  Relator.RightUnique (grammar.Lists fallback)

/-- Where all subtypes are described, it is enough that no name is mentioned by two supertypes. -/
theorem ValidGrammar.singleInheritance_of_mentions {grammar : ValidGrammar} (fallback : Table String String)
    (described : ∀ type ∈ grammar.supertypes, ∀ mention ∈ type.subtypes.getD [],
      mention.name ∈ grammar.names .regular ++ grammar.names .supertype)
    (once : ∀ type ∈ grammar.supertypes, ∀ other ∈ grammar.supertypes, ∀ mention ∈ type.subtypes.getD [],
      mention.name ∈ (other.subtypes.getD []).map (·.name) → type.name = other.name) :
    grammar.SingleInheritance fallback := by
  have own : ∀ {type}, type ∈ grammar.supertypes → ∀ {mention below}, mention ∈ type.subtypes.getD [] →
      grammar.StandsFor fallback mention.name below → below = mention.name := by
    rintro type member mention below listed (⟨_, same⟩ | ⟨absent, _⟩)
    · exact same
    · exact absurd (List.mem_append.mp (described type member mention listed)) absent
  rintro below _ _ ⟨type, member, rfl, mention, listed, _, stands⟩
    ⟨other, otherMember, rfl, again, listedAgain, _, standsAgain⟩
  refine once type member other otherMember mention listed (List.mem_map.mpr ⟨again, listedAgain, ?_⟩)
  rw [← own otherMember listedAgain standsAgain, own member listed stands]

namespace Java.Ancestry

variable {ancestry : Ancestry}

/-- Any two supertypes of a class are related. -/
def Linear (ancestry : Ancestry) : Prop :=
  ∀ name, ∀ one ∈ ancestry.above name, ∀ other ∈ ancestry.above name,
    one = other ∨ other ∈ ancestry.above one ∨ one ∈ ancestry.above other

theorem Ordered.pairwise_above (ordered : ancestry.Ordered) (linear : ancestry.Linear) (name : ClassName) :
    (ancestry.above name).Pairwise fun lower upper => upper ∈ ancestry.above lower := by
  refine List.pairwise_iff_forall_sublist.mpr fun {lower upper} sublist => ?_
  have lowerListed : lower ∈ ancestry.above name := sublist.subset (by simp)
  have upperListed : upper ∈ ancestry.above name := sublist.subset (by simp)
  rcases linear name lower lowerListed upper upperListed with rfl | above | below
  · exact (not_both_orders (ordered.distinct name) sublist sublist).elim
  · exact above
  · exact (not_both_orders (ordered.distinct name) sublist (ordered.before name upper lower upperListed below)).elim

/-- Behind each supertype come its own supertypes, and no others. -/
theorem Ordered.above_split (ordered : ancestry.Ordered) (linear : ancestry.Linear) {name next : ClassName}
    {before after : List ClassName} (split : ancestry.above name = before ++ next :: after) :
    ancestry.above next = after := by
  have upward := ordered.pairwise_above linear name
  have distinct := ordered.distinct name
  have listed : next ∈ ancestry.above name := by simp [split]
  have ordersBefore := ordered.before name next
  rw [split] at upward distinct ordersBefore
  obtain ⟨later, rest⟩ := List.pairwise_cons.mp (List.pairwise_append.mp upward).2.1
  have behind : ∀ top ∈ ancestry.above next, top ∈ after := by
    intro top above
    have sublist := ordersBefore top (split ▸ listed) above
    rcases List.mem_append.mp (sublist.subset (show top ∈ [next, top] by simp)) with earlier | here
    · have turned : [top, next].Sublist (before ++ next :: after) :=
        (List.singleton_sublist.mpr earlier).append (List.singleton_sublist.mpr List.mem_cons_self)
      exact (not_both_orders distinct sublist turned).elim
    · rcases List.mem_cons.mp here with rfl | behind
      · exact absurd above (ordered.proper top)
      · exact behind
  have same : (ancestry.above next).Perm after := by
    refine (List.perm_ext_iff_of_nodup (ordered.distinct next) ?_).mpr fun top => ⟨behind top, later top⟩
    exact (List.nodup_cons.mp (List.nodup_append.mp distinct).2.1).2
  refine same.eq_of_pairwise (fun one other _ _ above below => ?_) (ordered.pairwise_above linear next) rest
  exact absurd (ordered.transitive above below) (ordered.proper one)

theorem Ordered.chained (ordered : ancestry.Ordered) (linear : ancestry.Linear) : ancestry.Chained := by
  refine ⟨ordered.distinct, ordered.proper, fun name position => ?_⟩
  have split : ancestry.above name = (ancestry.above name).take position ++
      (ancestry.above name)[position] :: (ancestry.above name).drop (position + 1) := by simp
  exact ordered.above_split linear split

end Java.Ancestry

namespace TypeGraph

variable {settings : Settings} {grammar : ValidGrammar} {graph : TypeGraph} {passes : Method → Prop}

theorem listedAbove_rightUnique (formed : Formed settings grammar graph) (layered : Layered settings grammar graph)
    (valid : graph.Valid passes) (single : grammar.SingleInheritance settings.fallbackTypes) :
    Relator.RightUnique graph.ListedAbove := by
  rintro name one other ⟨_, found, member⟩ ⟨_, foundAgain, otherMember⟩
  obtain ⟨lower, upper, inside, named, edge, rfl, kind⟩ := exists_above_of_directSupertypes found member
  obtain ⟨again, otherUpper, againInside, againNamed, otherEdge, rfl, otherKind⟩ :=
    exists_above_of_directSupertypes foundAgain otherMember
  cases valid.named lower inside again againInside (named.trans againNamed.symm)
  have upperInside := layered.inside lower upper edge
  have otherInside := layered.inside lower otherUpper otherEdge
  have same := single (layered.listed lower upper edge kind) (layered.listed lower otherUpper otherEdge otherKind)
  cases formed.unique upper upperInside otherUpper otherInside same
  rfl

theorem chained_ancestry (acyclic : ∀ name, ¬ Relation.TransGen graph.ListedAbove name name)
    (unique : Relator.RightUnique graph.ListedAbove) : graph.ancestry.Chained := by
  refine (ordered_ancestry acyclic).chained fun name one first other second => ?_
  have path : ∀ {above}, above ∈ graph.ancestry.above name → Relation.ReflTransGen graph.ListedAbove name above :=
    fun member => (((graph.told_ancestry name).complete _).mp member).to_reflTransGen
  have told : ∀ {below above}, Relation.ReflTransGen graph.ListedAbove below above →
      below = above ∨ above ∈ graph.ancestry.above below := by
    intro below above path
    rcases Relation.reflTransGen_iff_eq_or_transGen.mp path with same | path
    · exact Or.inl same.symm
    · exact Or.inr (((graph.told_ancestry below).complete above).mpr path)
  rcases Relation.ReflTransGen.total_of_right_unique unique (path first) (path second) with upward | downward
  · exact (told upward).imp_right Or.inl
  · exact (told downward).elim (fun same => Or.inl same.symm) fun below => Or.inr (Or.inr below)

theorem Stages.chained {named snapshot filled : TypeGraph}
    (stages : Stages settings grammar named snapshot filled graph) (distinct : DistinctClasses settings)
    (single : grammar.SingleInheritance settings.fallbackTypes)
    (acyclic : grammar.Acyclic settings.fallbackTypes) : snapshot.ancestry.Chained := by
  have reached := stages.steps_snapshot.1.reached
  have valid := (stages.built distinct).start
  exact chained_ancestry (acyclic_listedAbove reached.layered valid acyclic)
    (listedAbove_rightUnique reached.formed reached.layered valid single)

end TypeGraph

end TypedTree
