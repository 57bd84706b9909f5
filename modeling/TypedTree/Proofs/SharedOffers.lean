import TypedTree.Graph.Hoisting
import TypedTree.Proofs.ListEffects
import TypedTree.Proofs.TableEntries

/-! What is left of the methods that several types offer: those that all of them offer, in the order of the
first one, with the return types that they offer. -/

namespace TypedTree.Hoisting

def entry (method : Method) : MethodKey × Option ReturnType := (method.key, method.returns)

def keysOf (methods : List Method) : List MethodKey := methods.map Method.key

theorem keys_of_entries {offers : Offers} {methods : List Method} (same : offers.entries = methods.map entry) :
    offers.keys = keysOf methods := by
  rw [Table.keys, same, List.map_map]
  rfl

private theorem foldlM_offers {owner : String} {methods : List Method} {start offers : Offers} :
    methods.foldlM (fun (offers : Offers) method =>
        if offers.contains method.key then .error (.duplicateMethod owner method.text)
        else .ok (offers.insert method.key method.returns)) start = (.ok offers : Except Error Offers) ↔
      (start.keys ++ keysOf methods).Nodup ∧ offers.entries = start.entries ++ methods.map entry := by
  induction methods generalizing start with
  | nil =>
    have distinct : start.keys.Nodup := start.distinct
    simp only [List.foldlM_nil, keysOf, List.map_nil, List.append_nil, distinct, true_and]
    exact ⟨fun same => congrArg Table.entries (Except.ok.inj same).symm,
      fun same => congrArg Except.ok (Table.ext_entries same).symm⟩
  | cons method methods ih =>
    rw [List.foldlM_cons, ListEffects.bind_eq_ok]
    by_cases present : method.key ∈ start.keys
    · rw [if_pos (Table.contains_iff.mpr present)]
      refine iff_of_false (by simp) fun ⟨distinct, _⟩ => ?_
      exact (List.nodup_append.mp distinct).2.2 _ present _ List.mem_cons_self rfl
    · rw [if_neg (mt Table.contains_iff.mp present)]
      have keys : (start.insert method.key method.returns).keys = start.keys ++ [method.key] := by
        rw [Table.keys_insert, if_neg present]
      simp only [Except.ok.injEq, exists_eq_left', ih, keys, Table.entries_insert_of_absent present, keysOf,
        List.map_cons, entry, List.append_assoc, List.singleton_append]

/-- A type offers its methods as they are, provided that their keys are distinct. -/
theorem offers_eq_ok {owner : String} {methods : List Method} {result : Offers} :
    offers owner methods = .ok result ↔ (keysOf methods).Nodup ∧ result.entries = methods.map entry := by
  rw [offers, foldlM_offers]
  rfl

def returnsOf (methods : List Method) (key : MethodKey) : List (Option ReturnType) :=
  (methods.filter (·.key = key)).map (·.returns)

theorem returnsOf_eq {offers : Offers} {methods : List Method} (same : offers.entries = methods.map entry)
    (key : MethodKey) : returnsOf methods key = (offers.get? key).toList := by
  rw [← Table.filter_entries, same, List.filter_map, List.map_map]
  rfl

def offeredReturns (rows : List (List Method)) (key : MethodKey) : List (Option ReturnType) :=
  rows.flatMap (returnsOf · key)

/-- The candidates that are left of the methods of several types. -/
def sharedOffers (first : List Method) (others : List (List Method)) : List (MethodKey × List (Option ReturnType)) :=
  (first.filter fun method => ∀ methods ∈ others, method.key ∈ keysOf methods).map fun method =>
    (method.key, (offeredReturns (first :: others) method.key).foldl addReturn [])

theorem firstCandidates_entries {offers : Offers} {methods : List Method}
    (same : offers.entries = methods.map entry) : (firstCandidates offers).entries = sharedOffers methods [] := by
  have all : methods.filter (fun method => ∀ others ∈ ([] : List (List Method)), method.key ∈ keysOf others) =
      methods := by simp
  rw [sharedOffers, all, firstCandidates, Table.entries_mapValues, same, List.map_map]
  refine List.map_congr_left fun method member => ?_
  have found : offers.get? method.key = some method.returns :=
    Table.get?_eq_some.mpr (same ▸ List.mem_map_of_mem member)
  simp [entry, offeredReturns, returnsOf_eq same, found, addReturn]

theorem narrow_entries {candidates : Candidates} {offers : Offers} {first methods : List Method}
    {others : List (List Method)} (left : candidates.entries = sharedOffers first others)
    (same : offers.entries = methods.map entry) :
    (narrow candidates offers).entries = sharedOffers first (others ++ [methods]) := by
  have offered : ∀ key, offers.contains key = true ↔ key ∈ keysOf methods := by
    intro key
    rw [Table.contains_iff, keys_of_entries same]
  simp only [narrow, keepKeys, Table.entries_mapValues, left, sharedOffers, List.filter_map, List.map_map,
    List.filter_filter]
  have kept : (first.filter fun method => decide (∀ row ∈ others ++ [methods], method.key ∈ keysOf row)) =
      first.filter fun method =>
        offers.contains method.key && decide (∀ row ∈ others, method.key ∈ keysOf row) := by
    refine List.filter_congr fun method _ => ?_
    rw [Bool.eq_iff_iff]
    simp [offered, or_imp, forall_and, and_comm]
  rw [kept]
  refine List.map_congr_left fun method member => ?_
  obtain ⟨returns, found⟩ : ∃ returns, offers.get? method.key = some returns :=
    Option.isSome_iff_exists.mp ((Bool.and_eq_true _ _ ▸ List.of_mem_filter member).1)
  have joined : offeredReturns (first :: (others ++ [methods])) method.key =
      offeredReturns (first :: others) method.key ++ [returns] := by
    rw [offeredReturns, ← List.cons_append, List.flatMap_append, List.flatMap_singleton, returnsOf_eq same, found]
    rfl
  simp [joined, found, List.foldl_append]

/-- Further types only take candidates away. -/
theorem sharedOffers_eq_nil_of_append {first : List Method} {others : List (List Method)}
    (none : sharedOffers first others = []) (more : List (List Method)) :
    sharedOffers first (others ++ more) = [] := by
  rw [sharedOffers, List.map_eq_nil_iff, List.filter_eq_nil_iff] at none ⊢
  intro method member shared
  refine none method member (decide_eq_true fun methods other => ?_)
  exact of_decide_eq_true shared methods (List.mem_append_left _ other)

/-- What a type offers besides its supertypes: its methods, and those that were hoisted into it. -/
def offeredBy (graph : TypeGraph) (hoisted : Hoisted) (type : TypeId) : List Method :=
  (graph.node type).methods ++ (hoisted.get? type).getD []

/-- The candidates once one more type was looked at. -/
def takeIn (candidates : Option Candidates) (offers : Offers) : Candidates :=
  match candidates with
  | none => firstCandidates offers
  | some candidates => narrow candidates offers

variable {graph : TypeGraph} {hoisted : Hoisted}

theorem candidatesFrom_cons_eq_ok {candidates result : Option Candidates} {subtype : TypeId} {rest : List TypeId} :
    candidatesFrom graph hoisted candidates (subtype :: rest) = .ok result ↔
      ∃ offers : Offers, (keysOf (offeredBy graph hoisted subtype)).Nodup ∧
        offers.entries = (offeredBy graph hoisted subtype).map entry ∧
        ((takeIn candidates offers).entries = [] ∧ some (takeIn candidates offers) = result ∨
          (takeIn candidates offers).entries ≠ [] ∧
            candidatesFrom graph hoisted (some (takeIn candidates offers)) rest = .ok result) := by
  rw [candidatesFrom, ListEffects.bind_eq_ok]
  refine exists_congr fun offers => ?_
  rw [offers_eq_ok, and_assoc]
  refine and_congr_right fun _ => and_congr_right fun _ => ?_
  change (if (takeIn candidates offers).isEmpty = true then .ok (some (takeIn candidates offers))
    else candidatesFrom graph hoisted (some (takeIn candidates offers)) rest) = .ok result ↔ _
  have test : (takeIn candidates offers).isEmpty = true ↔ (takeIn candidates offers).entries = [] := List.isEmpty_iff
  by_cases empty : (takeIn candidates offers).entries = []
  · simp [test, empty]
  · simp [test, empty]

private theorem candidatesFrom_some {candidates : Candidates} {first : List Method} {others : List (List Method)}
    {subtypes : List TypeId} {result : Option Candidates} (left : candidates.entries = sharedOffers first others)
    (run : candidatesFrom graph hoisted (some candidates) subtypes = .ok result) :
    ∃ final, result = some final ∧
      final.entries = sharedOffers first (others ++ subtypes.map (offeredBy graph hoisted)) ∧
      (final.entries ≠ [] → ∀ subtype ∈ subtypes, (keysOf (offeredBy graph hoisted subtype)).Nodup) := by
  induction subtypes generalizing candidates others with
  | nil =>
    cases run
    exact ⟨candidates, rfl, by simpa using left, fun _ => List.forall_mem_nil _⟩
  | cons subtype rest ih =>
    obtain ⟨offers, distinct, same, run⟩ := candidatesFrom_cons_eq_ok.mp run
    have narrowed := narrow_entries left same
    rcases run with ⟨empty, rfl⟩ | ⟨_, run⟩
    · have gone := sharedOffers_eq_nil_of_append (narrowed ▸ empty) (rest.map (offeredBy graph hoisted))
      rw [List.append_assoc] at gone
      exact ⟨_, rfl, empty.trans gone.symm, fun present => absurd empty present⟩
    · obtain ⟨final, found, entries, each⟩ := ih narrowed run
      rw [List.append_assoc] at entries
      exact ⟨final, found, entries, fun present => List.forall_mem_cons.mpr ⟨distinct, each present⟩⟩

/-- The candidates are what all subtypes offer, even if only some of them were looked at. If any are left,
no subtype offers two methods with one key. -/
theorem sharedOffers_of_candidatesFrom {first : TypeId} {rest : List TypeId} {result : Option Candidates}
    (run : candidatesFrom graph hoisted none (first :: rest) = .ok result) :
    ∃ final, result = some final ∧
      final.entries = sharedOffers (offeredBy graph hoisted first) (rest.map (offeredBy graph hoisted)) ∧
      (keysOf (offeredBy graph hoisted first)).Nodup ∧
      (final.entries ≠ [] → ∀ subtype ∈ first :: rest, (keysOf (offeredBy graph hoisted subtype)).Nodup) := by
  obtain ⟨offers, distinct, same, run⟩ := candidatesFrom_cons_eq_ok.mp run
  have left := firstCandidates_entries same
  rcases run with ⟨empty, rfl⟩ | ⟨_, run⟩
  · have gone := sharedOffers_eq_nil_of_append (left ▸ empty) (rest.map (offeredBy graph hoisted))
    exact ⟨_, rfl, empty.trans gone.symm, distinct, fun present => absurd empty present⟩
  · obtain ⟨final, found, entries, each⟩ := candidatesFrom_some left run
    exact ⟨final, found, entries, distinct, fun present => List.forall_mem_cons.mpr ⟨distinct, each present⟩⟩

end TypedTree.Hoisting
