import TypedTree.Proofs.GraphOrders
import TypedTree.Proofs.SharedOffers

/-! The methods that are hoisted into one interface, given what was hoisted below it. They are exactly those
that all subtypes offer, that nothing above declares, and whose return types have a common one. -/

namespace TypedTree.Hoisting

/-- Return types, each at the first occurrence of its type. -/
def distinctTypes (types : List ReturnType) : List ReturnType :=
  types.eraseDupsBy fun one other => one.type = other.type

/-- What a method returns that several types offer with some return types. -/
inductive CommonReturn (returns : List (Option ReturnType)) : Option ReturnType → Prop
  | void (all : ∀ offered ∈ returns, offered = none) : CommonReturn returns none
  | typed {types : List ReturnType} {common : ReturnType} (all : returns = types.map some)
      (found : ReturnType.common? (distinctTypes types) = some common) : CommonReturn returns (some common)

private theorem foldl_addReturn_some (types seen : List ReturnType) :
    (types.map some).foldl addReturn (seen.reverse.map some) =
      (List.eraseDupsBy.loop (fun one other : ReturnType => one.type = other.type) types seen).map some := by
  induction types generalizing seen with
  | nil => rw [List.eraseDupsBy.loop]; rfl
  | cons type types ih =>
    have test : (seen.reverse.map some).any (typeOf · = typeOf (some type)) =
        seen.any fun other => type.type = other.type := by
      rw [List.map_reverse, List.any_reverse, List.any_map]
      congr 1
      funext other
      simp [typeOf, eq_comm]
    rw [List.map_cons, List.foldl_cons, addReturn, test, List.eraseDupsBy.loop]
    cases seen.any fun other => decide (type.type = other.type) with
    | true => simp only [if_true, ih]
    | false => simpa using ih (type :: seen)

private theorem foldl_addReturn_none {returns : List (Option ReturnType)} (void : ∀ offered ∈ returns, offered = none) :
    returns.foldl addReturn [none] = [none] := by
  induction returns with
  | nil => rfl
  | cons offered returns ih =>
    obtain ⟨rfl, others⟩ := List.forall_mem_cons.mp void
    have same : addReturn [none] none = [none] := rfl
    rw [List.foldl_cons, same, ih others]

/-- No type gets lost. -/
private theorem exists_mem_foldl_addReturn {type : Option Java.JavaType} {returns seen : List (Option ReturnType)} :
    (∃ offered ∈ returns.foldl addReturn seen, typeOf offered = type) ↔
      ∃ offered ∈ seen ++ returns, typeOf offered = type := by
  induction returns generalizing seen with
  | nil => rw [List.foldl_nil, List.append_nil]
  | cons first returns ih =>
    rw [List.foldl_cons, ih, addReturn]
    split
    next present =>
      obtain ⟨known, member, same⟩ := List.any_eq_true.mp present
      have same : typeOf known = typeOf first := of_decide_eq_true same
      simp only [List.mem_append, List.mem_cons]
      constructor
      · rintro ⟨offered, either, equal⟩
        exact ⟨offered, either.imp_right Or.inr, equal⟩
      · rintro ⟨offered, old | rfl | new, equal⟩
        · exact ⟨offered, Or.inl old, equal⟩
        · exact ⟨known, Or.inl member, same.trans equal⟩
        · exact ⟨offered, Or.inr new, equal⟩
    next => rw [List.append_assoc, List.singleton_append]

theorem commonReturn_map_some (types : List ReturnType) :
    commonReturn (types.map some) = (ReturnType.common? types).map some := by
  have defined : (types.map some).mapM id = some types := ListEffects.mapM_eq_some.mpr (List.map_id _)
  cases types with
  | nil => rfl
  | cons type types =>
    rw [List.map_cons] at defined ⊢
    simp only [commonReturn, defined, Option.bind_eq_bind, Option.bind_some]
    cases ReturnType.common? (type :: types) <;> rfl

private theorem typeOf_eq_none {offered : Option ReturnType} : typeOf offered = none ↔ offered = none :=
  Option.map_eq_none_iff

private theorem commonReturn_of_void {returns : List (Option ReturnType)} (present : returns ≠ [])
    (void : ∀ offered ∈ returns, offered = none) : commonReturn (returns.foldl addReturn []) = some none := by
  obtain ⟨first, rest, rfl⟩ := List.exists_cons_of_ne_nil present
  obtain ⟨rfl, others⟩ := List.forall_mem_cons.mp void
  have single : (none :: rest).foldl addReturn [] = [none] := foldl_addReturn_none others
  rw [single, commonReturn]

private theorem commonReturn_of_mixed {returns : List (Option ReturnType)} (untyped : none ∈ returns)
    {other : Option ReturnType} (member : other ∈ returns) (typed : other ≠ none) :
    commonReturn (returns.foldl addReturn []) = none := by
  have mixed : ∃ offered ∈ returns.foldl addReturn [], id offered = none := by
    obtain ⟨offered, inside, same⟩ :=
      exists_mem_foldl_addReturn.mpr ⟨none, List.mem_append_right [] untyped, rfl⟩
    exact ⟨offered, inside, typeOf_eq_none.mp same⟩
  have several : returns.foldl addReturn [] ≠ [none] := by
    intro single
    obtain ⟨offered, inside, same⟩ :=
      exists_mem_foldl_addReturn.mpr ⟨other, List.mem_append_right [] member, rfl⟩
    rw [single, List.mem_singleton] at inside
    exact typed (typeOf_eq_none.mp (same.symm.trans (inside ▸ rfl)))
  rw [commonReturn, ListEffects.mapM_eq_none.mpr mixed]
  · rfl
  · exact several

theorem exists_types {returns : List (Option ReturnType)} (typed : none ∉ returns) :
    ∃ types : List ReturnType, returns = types.map some := by
  refine ⟨returns.filterMap id, ?_⟩
  have defined : returns.mapM id = some (returns.filterMap id) :=
    ListEffects.mapM_of_defined fun offered member absent => typed (absent ▸ member)
  simpa using ListEffects.mapM_eq_some.mp defined

/-- What distinct return types have in common is what all of them have in common. -/
theorem commonReturn_eq_some {returns : List (Option ReturnType)} (present : returns ≠ [])
    {result : Option ReturnType} :
    commonReturn (returns.foldl addReturn []) = some result ↔ CommonReturn returns result := by
  by_cases void : ∀ offered ∈ returns, offered = none
  · rw [commonReturn_of_void present void, Option.some.injEq]
    constructor
    · intro same
      exact same ▸ .void void
    · intro common
      cases common with
      | void => rfl
      | @typed types _ all found =>
        obtain ⟨first, rest, rfl⟩ := List.exists_cons_of_ne_nil present
        obtain ⟨type, _, _, same, _⟩ := List.map_eq_cons_iff.mp all.symm
        cases same.trans (void first List.mem_cons_self)
  · by_cases untyped : none ∈ returns
    · obtain ⟨other, member, typed⟩ : ∃ offered ∈ returns, offered ≠ none := by
        simpa only [not_forall, exists_prop] using void
      rw [commonReturn_of_mixed untyped member typed]
      refine iff_of_false (nomatch ·) fun common => ?_
      cases common with
      | void all => exact void all
      | typed all =>
        rw [all] at untyped
        obtain ⟨_, _, same⟩ := List.mem_map.mp untyped
        cases same
    · obtain ⟨types, rfl⟩ := exists_types untyped
      have distinct : (types.map some).foldl addReturn [] = (distinctTypes types).map some :=
        foldl_addReturn_some types []
      rw [distinct, commonReturn_map_some]
      constructor
      · intro known
        obtain ⟨common, found, rfl⟩ := Option.map_eq_some_iff.mp known
        exact .typed rfl found
      · intro common
        cases common with
        | void all => exact absurd all void
        | typed all found =>
          have same := (List.map_inj_right fun _ _ equal => Option.some.inj equal).mp all
          rw [same, found]
          rfl

variable {graph : TypeGraph} {hoisted : Hoisted} {interface : TypeId}

/-- A method of an interface that has subtypes: all of them offer it, no type at or above the interface
declares it, and it returns what the offered methods have in common. -/
structure Hoistable (graph : TypeGraph) (offered : TypeId → List Method) (interface : TypeId) (key : MethodKey)
    (returns : Option ReturnType) : Prop where
  present : (graph.node interface).subtypes ≠ []
  shared : ∀ subtype ∈ (graph.node interface).subtypes, key ∈ keysOf (offered subtype)
  fresh : ∀ type, Relation.ReflTransGen graph.Above interface type → key ∉ keysOf (graph.node type).methods
  common : CommonReturn (offeredReturns ((graph.node interface).subtypes.map offered) key) returns

theorem exists_declaredKeys (graph : TypeGraph) (interface : TypeId) :
    ∃ declared, declaredKeys graph interface = .ok declared ∧
      ∀ key, key ∈ declared ↔
        ∃ type, Relation.ReflTransGen graph.Above interface type ∧ key ∈ keysOf (graph.node type).methods := by
  obtain ⟨ancestors, found, above⟩ := graph.exists_ancestors interface
  refine ⟨_, ListEffects.bind_eq_ok.mpr ⟨ancestors, found, rfl⟩, fun key => ?_⟩
  simp only [List.mem_flatMap, List.mem_cons, above, Relation.reflTransGen_iff_eq_or_transGen]
  rfl

theorem mem_sharedOffers {first : List Method} {others : List (List Method)} {key : MethodKey}
    {returns : List (Option ReturnType)} :
    (key, returns) ∈ sharedOffers first others ↔ (∀ methods ∈ first :: others, key ∈ keysOf methods) ∧
      (offeredReturns (first :: others) key).foldl addReturn [] = returns := by
  simp only [sharedOffers, List.mem_map, List.mem_filter, decide_eq_true_eq, List.forall_mem_cons, Prod.mk.injEq]
  constructor
  · rintro ⟨method, ⟨member, shared⟩, rfl, same⟩
    exact ⟨⟨List.mem_map_of_mem member, shared⟩, same⟩
  · rintro ⟨⟨here, shared⟩, same⟩
    obtain ⟨method, member, rfl⟩ := List.mem_map.mp here
    exact ⟨method, ⟨member, shared⟩, rfl, same⟩

theorem offeredReturns_ne_nil {first : List Method} {others : List (List Method)} {key : MethodKey}
    (offered : key ∈ keysOf first) : offeredReturns (first :: others) key ≠ [] := by
  obtain ⟨method, member, same⟩ := List.mem_map.mp offered
  have inside : method.returns ∈ returnsOf first key :=
    List.mem_map_of_mem (List.mem_filter.mpr ⟨member, decide_eq_true same⟩)
  exact List.ne_nil_of_mem (List.mem_flatMap.mpr ⟨first, List.mem_cons_self, inside⟩)

theorem hoist_eq_some {declared : List MethodKey} {key : MethodKey} {returns : List (Option ReturnType)}
    {method : Method} :
    hoist declared (key, returns) = some method ↔
      key ∉ declared ∧ method.key = key ∧ commonReturn returns = some method.returns := by
  by_cases known : key ∈ declared
  · simp [hoist, known]
  · rw [hoist, if_neg known, Option.map_eq_some_iff]
    constructor
    · intro ⟨common, found, same⟩
      subst same
      exact ⟨known, rfl, found⟩
    · intro ⟨_, same, found⟩
      subst same
      exact ⟨method.returns, found, rfl⟩

/-- What a list of methods for an interface has to be. -/
structure Hoists (graph : TypeGraph) (offered : TypeId → List Method) (interface : TypeId) (methods : List Method) :
    Prop where
  exact : ∀ method, method ∈ methods ↔ Hoistable graph offered interface method.key method.returns
  distinct : (keysOf methods).Nodup
  inOrder : ∀ first rest, (graph.node interface).subtypes = first :: rest →
    (keysOf methods).Sublist (keysOf (offered first))
  single : methods ≠ [] → ∀ subtype ∈ (graph.node interface).subtypes, (keysOf (offered subtype)).Nodup

private theorem keys_hoist {declared : List MethodKey} (candidates : List (MethodKey × List (Option ReturnType))) :
    (keysOf (candidates.filterMap (hoist declared))).Sublist (candidates.map Prod.fst) := by
  induction candidates with
  | nil => exact .slnil
  | cons candidate candidates ih =>
    cases hoisted : hoist declared candidate with
    | none =>
      rw [List.filterMap_cons_none hoisted]
      exact ih.cons _
    | some method =>
      obtain ⟨key, returns⟩ := candidate
      obtain ⟨_, rfl, _⟩ := hoist_eq_some.mp hoisted
      rw [List.filterMap_cons_some hoisted]
      exact ih.cons_cons _

private theorem keys_sharedOffers (first : List Method) (others : List (List Method)) :
    ((sharedOffers first others).map Prod.fst).Sublist (keysOf first) := by
  rw [sharedOffers, List.map_map]
  exact List.filter_sublist.map Method.key

private theorem mem_hoists {declared : List MethodKey} {first : TypeId} {rest : List TypeId}
    {offered : TypeId → List Method}
    (subtypes : (graph.node interface).subtypes = first :: rest)
    (declares : ∀ key, key ∈ declared ↔
      ∃ type, Relation.ReflTransGen graph.Above interface type ∧ key ∈ keysOf (graph.node type).methods)
    {method : Method} :
    method ∈ (sharedOffers (offered first) (rest.map offered)).filterMap (hoist declared) ↔
      Hoistable graph offered interface method.key method.returns := by
  rw [List.mem_filterMap]
  constructor
  · intro ⟨⟨key, returns⟩, inside, found⟩
    obtain ⟨fresh, rfl, common⟩ := hoist_eq_some.mp found
    obtain ⟨shared, rfl⟩ := mem_sharedOffers.mp inside
    refine ⟨by simp [subtypes], fun subtype member => ?_, fun type above member => ?_, ?_⟩
    · rw [subtypes] at member
      exact shared _ (List.mem_map_of_mem member)
    · exact fresh ((declares _).mpr ⟨type, above, member⟩)
    · rw [subtypes]
      exact (commonReturn_eq_some (offeredReturns_ne_nil (shared _ List.mem_cons_self))).mp common
  · intro hoistable
    have shared : ∀ methods ∈ (first :: rest).map offered, method.key ∈ keysOf methods := by
      intro methods member
      obtain ⟨subtype, inside, rfl⟩ := List.mem_map.mp member
      exact hoistable.shared subtype (subtypes ▸ inside)
    have common := hoistable.common
    rw [subtypes] at common
    refine ⟨_, mem_sharedOffers.mpr ⟨shared, rfl⟩, hoist_eq_some.mpr ⟨fun member => ?_, rfl, ?_⟩⟩
    · obtain ⟨type, above, inside⟩ := (declares _).mp member
      exact hoistable.fresh type above inside
    · exact (commonReturn_eq_some (offeredReturns_ne_nil (shared _ List.mem_cons_self))).mpr common

theorem hoists_of_commonMethods {methods : List Method} (run : commonMethods graph hoisted interface = .ok methods) :
    Hoists graph (offeredBy graph hoisted) interface methods := by
  obtain ⟨declared, known, run⟩ := ListEffects.bind_eq_ok.mp run
  obtain ⟨_, found, declares⟩ := exists_declaredKeys graph interface
  cases known.symm.trans found
  obtain ⟨candidates, left, run⟩ := ListEffects.bind_eq_ok.mp run
  cases subtypes : (graph.node interface).subtypes with
  | nil =>
    rw [subtypes] at left
    cases left
    cases run
    refine ⟨fun method => ?_, List.nodup_nil, fun _ _ same => (nomatch subtypes.symm.trans same), absurd rfl⟩
    exact iff_of_false List.not_mem_nil fun hoistable => hoistable.present subtypes
  | cons first rest =>
    rw [subtypes] at left
    obtain ⟨final, rfl, entries, distinct, each⟩ := sharedOffers_of_candidatesFrom left
    cases run
    have keys :
        (keysOf (final.entries.filterMap (hoist declared))).Sublist (keysOf (offeredBy graph hoisted first)) := by
      rw [entries]
      exact (keys_hoist _).trans (keys_sharedOffers _ _)
    refine ⟨fun method => ?_, distinct.sublist keys, fun _ _ same => ?_, fun present => ?_⟩
    · rw [entries]
      exact mem_hoists subtypes declares
    · cases subtypes.symm.trans same
      exact keys
    · rw [subtypes]
      exact each fun none => present (by rw [none]; rfl)

end TypedTree.Hoisting
