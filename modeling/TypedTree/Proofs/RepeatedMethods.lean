import TypedTree.Proofs.HoistingOutcomes

/-! Which repeated methods are noticed. Subtypes are looked at as long as they share a method, so a type that has two
methods with one key goes unnoticed behind siblings that share none, and then nothing is hoisted from it. -/

namespace TypedTree.Hoisting

variable {graph : TypeGraph} {hoisted : Hoisted} {interface : TypeId}

/-- A type has two methods of its own with one key. -/
def Repeats (graph : TypeGraph) (type : TypeId) : Prop := ¬ (keysOf (graph.node type).methods).Nodup

/-- What was hoisted when an interface has its turn. -/
def HasTurn (graph : TypeGraph) (interface : TypeId) (hoisted : Hoisted) : Prop :=
  ∃ done rest, graph.interfacesUpward = .ok (done ++ interface :: rest) ∧
    done.foldlM (hoistInto graph) .empty = .ok hoisted

/-- A method with this key is offered by all of some types. -/
def SharedBy (graph : TypeGraph) (hoisted : Hoisted) (types : List TypeId) (key : MethodKey) : Prop :=
  ∀ type ∈ types, key ∈ keysOf (offeredBy graph hoisted type)

/-- A subtype is looked at if those before it share a method. The first one always is. -/
def LooksAt (graph : TypeGraph) (hoisted : Hoisted) (interface subtype : TypeId) : Prop :=
  ∃ before after, (graph.node interface).subtypes = before ++ subtype :: after ∧
    ∃ key, SharedBy graph hoisted before key

/-- The rejection of a graph for a type with two methods of one key. Nothing is recorded. -/
def Rejects (graph : TypeGraph) : Prop :=
  ∃ owner method, resolve graph = (graph, .error (.duplicateMethod owner method))

theorem sharedBy_append {types others : List TypeId} {key : MethodKey} :
    SharedBy graph hoisted (types ++ others) key ↔
      SharedBy graph hoisted types key ∧ SharedBy graph hoisted others key := by
  simp [SharedBy, or_imp, forall_and]

theorem sharedBy_singleton {type : TypeId} {key : MethodKey} :
    SharedBy graph hoisted [type] key ↔ key ∈ keysOf (offeredBy graph hoisted type) := by
  simp [SharedBy]

theorem mem_keys_takeIn {candidates : Option Candidates} {offers : Offers} {key : MethodKey} :
    key ∈ (takeIn candidates offers).keys ↔ (∀ known ∈ candidates, key ∈ known.keys) ∧ key ∈ offers.keys := by
  cases candidates with
  | none => simp [takeIn, firstCandidates, Table.keys]
  | some candidates =>
    simp only [takeIn, narrow, keepKeys, Table.keys, Table.entries_mapValues, List.map_map]
    simp [Table.contains_iff, Table.keys]

theorem exists_offers {methods : List Method} (distinct : (keysOf methods).Nodup) :
    ∃ offers : Offers, offers.entries = methods.map entry :=
  ⟨⟨methods.map entry, by simpa [keysOf, entry, Function.comp_def] using distinct⟩, rfl⟩

/-- The first subtype may repeat nothing, and the others are looked at if candidates are left. -/
theorem exists_candidatesFrom_cons {candidates : Option Candidates} {first : TypeId} {rest : List TypeId} :
    (∃ result, candidatesFrom graph hoisted candidates (first :: rest) = .ok result) ↔
      (keysOf (offeredBy graph hoisted first)).Nodup ∧
        ∀ offers : Offers, offers.entries = (offeredBy graph hoisted first).map entry →
          (takeIn candidates offers).entries ≠ [] →
            ∃ result, candidatesFrom graph hoisted (some (takeIn candidates offers)) rest = .ok result := by
  simp only [candidatesFrom_cons_eq_ok]
  constructor
  · intro ⟨result, offers, distinct, same, run⟩
    refine ⟨distinct, fun others again left => ?_⟩
    obtain rfl := Table.ext_entries (again.trans same.symm)
    rcases run with ⟨none, _⟩ | ⟨_, run⟩
    · exact absurd none left
    · exact ⟨result, run⟩
  · intro ⟨distinct, others⟩
    obtain ⟨offers, same⟩ := exists_offers distinct
    by_cases left : (takeIn candidates offers).entries = []
    · exact ⟨_, offers, distinct, same, Or.inl ⟨left, rfl⟩⟩
    · obtain ⟨result, run⟩ := others offers same left
      exact ⟨result, offers, distinct, same, Or.inr ⟨left, run⟩⟩

/-- The elements of a list, each with those before it. -/
theorem forall_split_cons {α : Type} {first : α} {rest : List α} {P : List α → α → Prop} :
    (∀ before x after, first :: rest = before ++ x :: after → P before x) ↔
      P [] first ∧ ∀ before x after, rest = before ++ x :: after → P (first :: before) x := by
  constructor
  · intro each
    refine ⟨each [] first rest rfl, fun before x after split => each (first :: before) x after ?_⟩
    exact congrArg (first :: ·) split
  · intro ⟨here, others⟩ before x after split
    cases before with
    | nil =>
      obtain ⟨rfl, _⟩ := List.cons.inj split
      exact here
    | cons y before =>
      obtain ⟨rfl, behind⟩ := List.cons.inj split
      exact others before x after behind

/-- The candidates know what the types that were looked at share. -/
theorem exists_candidatesFrom {candidates : Option Candidates} {done subtypes : List TypeId}
    (known : ∀ key, (∀ left ∈ candidates, key ∈ left.keys) ↔ SharedBy graph hoisted done key)
    (shared : ∃ key, SharedBy graph hoisted done key) :
    (∃ result, candidatesFrom graph hoisted candidates subtypes = .ok result) ↔
      ∀ before subtype after, subtypes = before ++ subtype :: after →
        (∃ key, SharedBy graph hoisted (done ++ before) key) → (keysOf (offeredBy graph hoisted subtype)).Nodup := by
  induction subtypes generalizing candidates done with
  | nil =>
    refine iff_of_true ⟨candidates, rfl⟩ fun before subtype after split => ?_
    simp at split
  | cons first rest ih =>
    have here : ∃ key, SharedBy graph hoisted (done ++ []) key := by simpa using shared
    rw [exists_candidatesFrom_cons, forall_split_cons, imp_iff_right here]
    apply and_congr_right
    intro distinct
    have knows : ∀ offers : Offers, offers.entries = (offeredBy graph hoisted first).map entry →
        ∀ key, key ∈ (takeIn candidates offers).keys ↔ SharedBy graph hoisted (done ++ [first]) key := by
      intro offers same key
      rw [mem_keys_takeIn, known, keys_of_entries same, sharedBy_append, sharedBy_singleton]
    have goesOn : ∀ offers : Offers, offers.entries = (offeredBy graph hoisted first).map entry →
        (∃ key, SharedBy graph hoisted (done ++ [first]) key) →
        ((∃ result, candidatesFrom graph hoisted (some (takeIn candidates offers)) rest = .ok result) ↔
          ∀ before subtype after, rest = before ++ subtype :: after →
            (∃ key, SharedBy graph hoisted (done ++ first :: before) key) →
              (keysOf (offeredBy graph hoisted subtype)).Nodup) := by
      intro offers same left
      simpa using ih (by simpa using knows offers same) left
    constructor
    · intro others before subtype after split ⟨key, offered⟩
      obtain ⟨offers, same⟩ := exists_offers distinct
      rw [List.append_cons] at offered
      have left := (sharedBy_append.mp offered).1
      have present : (takeIn candidates offers).entries ≠ [] := by
        intro none
        have inside := (knows offers same key).mpr left
        simp [Table.keys, none] at inside
      exact (goesOn offers same ⟨key, left⟩).mp (others offers same present) before subtype after split
        ⟨key, List.append_cons .. ▸ offered⟩
    · intro each offers same present
      obtain ⟨entry, member⟩ := List.exists_mem_of_ne_nil _ present
      have left := (knows offers same entry.1).mp (List.mem_map_of_mem member)
      exact (goesOn offers same ⟨entry.1, left⟩).mpr each

/-- What is hoisted into a type repeats nothing. -/
theorem nodup_offeredBy (fresh : Fresh graph hoisted) (type : TypeId) :
    (keysOf (offeredBy graph hoisted type)).Nodup ↔ (keysOf (graph.node type).methods).Nodup := by
  rw [offeredBy, keysOf, List.map_append, List.nodup_append]
  refine and_iff_left ?_
  cases found : hoisted.get? type with
  | none => simp
  | some methods =>
    obtain ⟨distinct, apart⟩ := fresh type methods found
    exact ⟨distinct, fun own member other inherited same => apart other inherited (same ▸ member)⟩

theorem exists_hoistInto (fresh : Fresh graph hoisted) :
    (∃ next, hoistInto graph hoisted interface = .ok next) ↔
      ∀ subtype, LooksAt graph hoisted interface subtype → ¬ Repeats graph subtype := by
  have candidates : (∃ next, hoistInto graph hoisted interface = .ok next) ↔
      ∃ result, candidatesFrom graph hoisted none (graph.node interface).subtypes = .ok result := by
    obtain ⟨declared, known, _⟩ := exists_declaredKeys graph interface
    simp only [hoistInto, commonMethods, known]
    cases candidatesFrom graph hoisted none (graph.node interface).subtypes with
    | error error => simp [bind, Except.bind, Except.map]
    | ok result => cases result <;> exact iff_of_true ⟨_, rfl⟩ ⟨_, rfl⟩
  have unknown : ∀ key, (∀ left ∈ (none : Option Candidates), key ∈ left.keys) ↔ SharedBy graph hoisted [] key := by
    simp [SharedBy]
  have shared : ∃ key, SharedBy graph hoisted [] key := ⟨⟨.getter "", .custom⟩, List.forall_mem_nil _⟩
  rw [candidates, exists_candidatesFrom unknown shared]
  simp only [nodup_offeredBy fresh, Repeats, not_not]
  constructor
  · intro each subtype looks
    obtain ⟨before, after, split, shared⟩ := looks
    exact each before subtype after split shared
  · intro each before subtype after split shared
    exact each subtype ⟨before, after, split, shared⟩

theorem HasTurn.fresh (turn : HasTurn graph interface hoisted) : Fresh graph hoisted := by
  obtain ⟨done, _, _, run⟩ := turn
  have nothing : Fresh graph .empty := nofun
  exact ListEffects.foldlM_invariant (fun _ => Fresh graph) nothing
    (fun _ _ _ _ _ fresh step => fresh_hoistInto fresh step) run

/-- Hoisting fails in the turn of an interface. -/
theorem exists_turn_of_error {error : Error} (failed : hoistAll graph = .error error) :
    ∃ interface hoisted, HasTurn graph interface hoisted ∧ hoistInto graph hoisted interface = .error error := by
  obtain ⟨upward, found⟩ := graph.exists_interfacesUpward
  rw [hoistAll, found] at failed
  obtain ⟨done, interface, rest, hoisted, rfl, before, failed⟩ := ListEffects.foldlM_eq_error.mp failed
  exact ⟨interface, hoisted, ⟨done, rest, found, before⟩, failed⟩

theorem HasTurn.exists_next {final : Hoisted} (turn : HasTurn graph interface hoisted)
    (hoists : hoistAll graph = .ok final) : ∃ next, hoistInto graph hoisted interface = .ok next := by
  obtain ⟨done, rest, found, before⟩ := turn
  obtain ⟨upward, again, run⟩ := hoistAll_eq_ok.mp hoists
  cases found.symm.trans again
  cases step : hoistInto graph hoisted interface with
  | ok next => exact ⟨next, rfl⟩
  | error error =>
    have failed := ListEffects.foldlM_eq_error.mpr ⟨done, interface, rest, hoisted, rfl, before, step⟩
    cases failed.symm.trans run

theorem exists_hasTurn {final : Hoisted} (hoists : hoistAll graph = .ok final) (inside : interface ∈ graph.interfaces) :
    ∃ hoisted, HasTurn graph interface hoisted := by
  obtain ⟨upward, found, run⟩ := hoistAll_eq_ok.mp hoists
  have order := TypeGraph.upward_of_interfacesUpward found
  obtain ⟨done, rest, rfl⟩ := List.append_of_mem ((order.complete interface).mpr inside)
  rw [List.foldlM_append] at run
  obtain ⟨hoisted, before, _⟩ := ListEffects.bind_eq_ok.mp run
  exact ⟨hoisted, done, rest, found, before⟩

/-- Without any rejection the interfaces get their methods. -/
theorem exists_hoistAll (accepts : ¬ Rejects graph) : ∃ final, hoistAll graph = .ok final := by
  cases outcome : hoistAll graph with
  | ok final => exact ⟨final, rfl⟩
  | error error =>
    obtain ⟨id, _, _, method, _, _, _, rfl⟩ := Classical.not_not.mp (avoids_hoistAll graph error outcome)
    exact absurd ⟨_, _, by rw [resolve, outcome]⟩ accepts

theorem rejects_iff (pending : ∀ interface ∈ graph.interfaces, (graph.node interface).common = none) :
    Rejects graph ↔ ∃ interface hoisted subtype,
      HasTurn graph interface hoisted ∧ LooksAt graph hoisted interface subtype ∧ Repeats graph subtype := by
  constructor
  · intro ⟨owner, method, run⟩
    cases outcome : hoistAll graph with
    | ok final =>
      obtain ⟨after, finished⟩ := exists_resolve pending outcome
      cases finished.symm.trans run
    | error error =>
      obtain ⟨interface, hoisted, turn, failed⟩ := exists_turn_of_error outcome
      refine ⟨interface, hoisted, ?_⟩
      apply Classical.byContradiction
      intro unseen
      obtain ⟨next, step⟩ := (exists_hoistInto turn.fresh).mpr fun subtype looks repeats =>
        unseen ⟨subtype, turn, looks, repeats⟩
      cases step.symm.trans failed
  · intro ⟨interface, hoisted, subtype, turn, looks, repeats⟩
    apply Classical.byContradiction
    intro accepts
    obtain ⟨final, hoists⟩ := exists_hoistAll accepts
    exact (exists_hoistInto turn.fresh).mp (turn.exists_next hoists) subtype looks repeats

/-- A type that repeats a method is noticed behind siblings that have a method in common. -/
theorem rejects_of_repeats (pending : ∀ interface ∈ graph.interfaces, (graph.node interface).common = none)
    (inside : interface ∈ graph.interfaces) {before after : List TypeId} {subtype : TypeId} {key : MethodKey}
    (split : (graph.node interface).subtypes = before ++ subtype :: after)
    (shared : ∀ earlier ∈ before, key ∈ keysOf (graph.node earlier).methods) (repeats : Repeats graph subtype) :
    Rejects graph := by
  apply Classical.byContradiction
  intro accepts
  obtain ⟨final, hoists⟩ := exists_hoistAll accepts
  obtain ⟨hoisted, turn⟩ := exists_hasTurn hoists inside
  have offered : SharedBy graph hoisted before key := by
    intro earlier member
    rw [offeredBy, keysOf, List.map_append]
    exact List.mem_append_left _ (shared earlier member)
  have looks : LooksAt graph hoisted interface subtype := ⟨before, after, split, key, offered⟩
  exact accepts ((rejects_iff pending).mpr ⟨interface, hoisted, subtype, turn, looks, repeats⟩)

/-- Nothing is hoisted from a type that repeats a method. -/
theorem commonMethods_of_repeats {after : TypeGraph} (run : resolve graph = (after, .ok ()))
    (inside : interface ∈ graph.interfaces) {subtype : TypeId} (below : subtype ∈ (graph.node interface).subtypes)
    (repeats : Repeats graph subtype) : (after.node interface).commonMethods = [] := by
  obtain ⟨final, resolves⟩ := exists_resolves run
  obtain ⟨upward, order, _, turns⟩ := upward_of_hoistAll resolves.hoists
  obtain ⟨before, behind, split⟩ := List.append_of_mem ((order.complete interface).mpr inside)
  obtain ⟨hoisted, methods, turn⟩ := turns before interface behind split
  rw [resolves.commonMethods turn.kept]
  apply Classical.byContradiction
  intro present
  have distinct := (hoists_of_commonMethods turn.run).single present subtype below
  rw [offeredBy, keysOf, List.map_append] at distinct
  exact repeats (List.nodup_append.mp distinct).1

/-- Of the types below an interface that have two methods with one key, those are noticed that are looked at. These are
the first one and each one behind siblings with a method in common, and from the others nothing is hoisted. -/
theorem resolve_rejects (graph : TypeGraph)
    (pending : ∀ interface ∈ graph.interfaces, (graph.node interface).common = none) :
    (Rejects graph ↔ ∃ interface hoisted subtype,
      HasTurn graph interface hoisted ∧ LooksAt graph hoisted interface subtype ∧ Repeats graph subtype) ∧
    (∀ interface ∈ graph.interfaces, ∀ before subtype after key,
      (graph.node interface).subtypes = before ++ subtype :: after →
        (∀ earlier ∈ before, key ∈ keysOf (graph.node earlier).methods) → Repeats graph subtype → Rejects graph) ∧
    ∀ after, resolve graph = (after, .ok ()) → ∀ interface ∈ graph.interfaces,
      ∀ subtype ∈ (graph.node interface).subtypes, Repeats graph subtype → (after.node interface).commonMethods = [] := by
  refine ⟨rejects_iff pending, fun interface inside before subtype after key split shared repeats => ?_, ?_⟩
  · exact rejects_of_repeats pending inside split shared repeats
  · exact fun after run interface inside subtype below repeats => commonMethods_of_repeats run inside below repeats

/-- Foxes and cats are pets, in some order. Foxes have no methods. -/
def pets (order : List TypeId) (methods : List Method) : TypeGraph :=
  let name := Java.ClassName.topLevel "pets"
  { nodes := #[
      { TypeNode.new "fox" (name "Fox") .regular with supertypes := [2] },
      { TypeNode.new "cat" (name "Cat") .regular with supertypes := [2], methods },
      { TypeNode.new "pet" (name "Pet") .supertype with subtypes := order }]
    root := none }

theorem resolve_rejects_pets :
    let purr : Method := ⟨.custom, .getter "purr", none⟩
    let graph := pets [1, 0] [purr, purr]
    (∀ interface ∈ graph.interfaces, (graph.node interface).common = none) ∧ Repeats graph 1 ∧ Rejects graph := by
  intro purr graph
  have pending : ∀ interface ∈ graph.interfaces, (graph.node interface).common = none := by
    have all : ∀ interface ∈ graph.interfaces, (graph.node interface).common.isNone := by decide +zetaReduce
    exact fun interface inside => Option.isNone_iff_eq_none.mp (all interface inside)
  have repeats : Repeats graph 1 := by
    rw [Repeats]
    decide +zetaReduce
  obtain ⟨_, noticed, _⟩ := resolve_rejects graph pending
  exact ⟨pending, repeats, noticed 2 (by decide +zetaReduce) [] 1 [0] purr.key rfl (List.forall_mem_nil _) repeats⟩

/-- Behind foxes, cats may have a method twice. -/
theorem repeats_unnoticed :
    let purr : Method := ⟨.custom, .getter "purr", none⟩
    let graph := pets [0, 1] [purr, purr]
    (∀ interface ∈ graph.interfaces, (graph.node interface).common.isNone) ∧ 2 ∈ graph.interfaces ∧
      1 ∈ (graph.node 2).subtypes ∧ Repeats graph 1 ∧ (resolve graph).2 = .ok () ∧
      (resolve (pets [1, 0] [purr, purr])).2 = .error (.duplicateMethod "cat" "void purr()") := by
  intro purr graph
  refine ⟨by decide +zetaReduce, by decide +zetaReduce, by decide +zetaReduce, ?_, rfl, rfl⟩
  rw [Repeats]
  decide +zetaReduce

end TypedTree.Hoisting
