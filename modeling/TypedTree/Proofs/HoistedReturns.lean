import TypedTree.Proofs.HoistingRuns

/-! What hoisted methods return. A test that return types pass, and that what they have in common passes then, is passed
by all that is hoisted. -/

namespace TypedTree.Hoisting

theorem distinctTypes_cons (type : ReturnType) (types : List ReturnType) :
    distinctTypes (type :: types) = type :: distinctTypes (types.filter fun other => other.type ≠ type.type) := by
  rw [distinctTypes, List.eraseDupsBy_cons]
  simp [distinctTypes]

/-- The types that are kept are those that were given, each one once. -/
theorem distinctTypes_mem (types : List ReturnType) :
    (∀ kept ∈ distinctTypes types, kept ∈ types) ∧
      ∀ type ∈ types, ∃ kept ∈ distinctTypes types, kept.type = type.type := by
  match types with
  | [] => exact ⟨List.forall_mem_nil _, List.forall_mem_nil _⟩
  | first :: rest =>
    obtain ⟨given, found⟩ := distinctTypes_mem (rest.filter fun other => other.type ≠ first.type)
    rw [distinctTypes_cons]
    refine ⟨List.forall_mem_cons.mpr ⟨List.mem_cons_self, fun kept member => ?_⟩, fun type member => ?_⟩
    · exact List.mem_cons_of_mem _ (List.mem_of_mem_filter (given kept member))
    · by_cases same : type.type = first.type
      · exact ⟨first, List.mem_cons_self, same.symm⟩
      · rcases List.mem_cons.mp member with rfl | later
        · exact absurd rfl same
        · obtain ⟨kept, inside, equal⟩ := found type (List.mem_filter.mpr ⟨later, decide_eq_true same⟩)
          exact ⟨kept, List.mem_cons_of_mem _ inside, equal⟩
termination_by types.length
decreasing_by exact Nat.lt_succ_of_le (List.length_filter_le _ _)

theorem mem_offeredReturns {rows : List (List Method)} {key : MethodKey} {returns : Option ReturnType} :
    returns ∈ offeredReturns rows key ↔
      ∃ methods ∈ rows, ∃ method ∈ methods, method.key = key ∧ method.returns = returns := by
  simp only [offeredReturns, returnsOf, List.mem_flatMap, List.mem_map, List.mem_filter, decide_eq_true_eq, and_assoc]

/-- A test of return types, for each kind of methods, that is passed by what types that pass it have in common. -/
def Closed (passes : MethodKind → ReturnType → Prop) : Prop :=
  ∀ kind candidates result, (∀ candidate ∈ candidates, passes kind candidate) →
    ReturnType.common? candidates = some result → passes kind result

def Returning (passes : MethodKind → ReturnType → Prop) (method : Method) : Prop :=
  ∀ returns, method.returns = some returns → passes method.kind returns

variable {graph : TypeGraph} {passes : MethodKind → ReturnType → Prop} {hoisted final : Hoisted} {interface : TypeId}
  {methods : List Method}

theorem CommonReturn.passed {kind : MethodKind} {returns : List (Option ReturnType)} {result : Option ReturnType}
    (closed : Closed passes) (common : CommonReturn returns result)
    (all : ∀ type, some type ∈ returns → passes kind type) {type : ReturnType} (given : result = some type) :
    passes kind type := by
  cases common with
  | void => cases given
  | typed same found =>
    cases given
    refine closed kind _ _ (fun candidate kept => all candidate ?_) found
    rw [same]
    exact List.mem_map_of_mem ((distinctTypes_mem _).1 candidate kept)

/-- The offered methods with one key return types that pass the test for its kind. -/
theorem passes_of_offered {offered : TypeId → List Method}
    (returning : ∀ type, ∀ method ∈ offered type, Returning passes method) {types : List TypeId} {key : MethodKey}
    {type : ReturnType} (inside : some type ∈ offeredReturns (types.map offered) key) : passes key.kind type := by
  obtain ⟨row, rowMember, other, otherMember, same, returns⟩ := mem_offeredReturns.mp inside
  obtain ⟨subtype, _, rfl⟩ := List.mem_map.mp rowMember
  rw [← same]
  exact returning subtype other otherMember type returns

theorem returning_of_commonMethods (closed : Closed passes)
    (offered : ∀ type, ∀ method ∈ offeredBy graph hoisted type, Returning passes method)
    (run : commonMethods graph hoisted interface = .ok methods) : ∀ method ∈ methods, Returning passes method := by
  intro method member returns given
  have hoistable := ((hoists_of_commonMethods run).exact method).mp member
  exact hoistable.common.passed closed (fun type inside => passes_of_offered offered inside) given

theorem returning_offeredBy (own : ∀ id, ∀ method ∈ (graph.node id).methods, Returning passes method)
    (inherited : ∀ type methods, hoisted.get? type = some methods → ∀ method ∈ methods, Returning passes method) :
    ∀ type, ∀ method ∈ offeredBy graph hoisted type, Returning passes method := by
  intro type method member
  rcases List.mem_append.mp member with mine | hoistedHere
  · exact own type method mine
  · cases found : hoisted.get? type with
    | none =>
      rw [found] at hoistedHere
      cases hoistedHere
    | some methods =>
      rw [found] at hoistedHere
      exact inherited type methods found method hoistedHere

/-- The test is passed from one interface to the next. -/
theorem returning_of_hoistAll (closed : Closed passes)
    (own : ∀ id, ∀ method ∈ (graph.node id).methods, Returning passes method) (run : hoistAll graph = .ok final) :
    ∀ type methods, final.get? type = some methods → ∀ method ∈ methods, Returning passes method := by
  obtain ⟨upward, _, run⟩ := hoistAll_eq_ok.mp run
  refine ListEffects.foldlM_invariant (fun _ (table : Hoisted) => ∀ type methods, table.get? type = some methods →
    ∀ method ∈ methods, Returning passes method) (fun _ _ none => by cases none) ?_ run
  intro done interface table next _ inherited step type methods found
  obtain ⟨hoistedHere, here, rfl⟩ := hoistInto_eq_ok.mp step
  rw [Table.get?_insert] at found
  split at found
  next =>
    cases found
    exact returning_of_commonMethods closed (returning_offeredBy own inherited) here
  next => exact inherited type methods found

end TypedTree.Hoisting
