import Mathlib.Data.List.Induction
import TypedTree.Proofs.HoistedMethods

/-! A run of hoisting over all interfaces. Each one is treated on the grounds of those before it, so that
without cycles the result of each interface is explained by the results of those below it. -/

namespace TypedTree.Hoisting

variable {graph : TypeGraph} {final : Hoisted}

def hoistInto (graph : TypeGraph) (hoisted : Hoisted) (interface : TypeId) : Except Error Hoisted :=
  (commonMethods graph hoisted interface).map (hoisted.insert interface)

theorem hoistInto_eq_ok {hoisted next : Hoisted} {interface : TypeId} :
    hoistInto graph hoisted interface = .ok next ↔
      ∃ methods, commonMethods graph hoisted interface = .ok methods ∧ hoisted.insert interface methods = next := by
  rw [hoistInto]
  cases commonMethods graph hoisted interface <;> simp [Except.map]

theorem hoistAll_eq_ok :
    hoistAll graph = .ok final ↔
      ∃ upward, graph.interfacesUpward = .ok upward ∧ upward.foldlM (hoistInto graph) .empty = .ok final :=
  ListEffects.bind_eq_ok

private theorem get?_of_not_mem {start : Hoisted} {interfaces : List TypeId} {type : TypeId}
    (absent : type ∉ interfaces) (run : interfaces.foldlM (hoistInto graph) start = .ok final) :
    final.get? type = start.get? type := by
  refine ListEffects.foldlM_invariant (fun _ table => table.get? type = start.get? type) rfl ?_ run
  intro done interface table next member same step
  obtain ⟨methods, _, rfl⟩ := hoistInto_eq_ok.mp step
  have different : interface ≠ type := fun equal => absent (equal ▸ member)
  rw [Table.get?_insert, if_neg different, same]

/-- What was hoisted when an interface had its turn, and what was hoisted into it. -/
structure Turn (graph : TypeGraph) (final : Hoisted) (before : List TypeId) (interface : TypeId)
    (table : Hoisted) (methods : List Method) : Prop where
  known : ∀ type, table.get? type = if type ∈ before then final.get? type else none
  run : commonMethods graph table interface = .ok methods
  kept : final.get? interface = some methods

theorem exists_turn {before after : List TypeId} {interface : TypeId}
    (distinct : (before ++ interface :: after).Nodup)
    (run : (before ++ interface :: after).foldlM (hoistInto graph) .empty = .ok final) :
    ∃ table methods, Turn graph final before interface table methods := by
  rw [List.foldlM_append, ListEffects.bind_eq_ok] at run
  obtain ⟨table, first, run⟩ := run
  rw [List.foldlM_cons, ListEffects.bind_eq_ok] at run
  obtain ⟨next, step, last⟩ := run
  obtain ⟨methods, here, rfl⟩ := hoistInto_eq_ok.mp step
  obtain ⟨_, others, apart⟩ := List.nodup_append.mp distinct
  refine ⟨table, methods, fun type => ?_, here, ?_⟩
  · split
    next member =>
      have later : type ∉ after := fun behind => apart type member type (List.mem_cons_of_mem _ behind) rfl
      have different : interface ≠ type := fun same => apart type member interface List.mem_cons_self same.symm
      rw [get?_of_not_mem later last, Table.get?_insert, if_neg different]
    next absent => exact get?_of_not_mem absent first
  · rw [get?_of_not_mem (List.nodup_cons.mp others).1 last, Table.get?_insert, if_pos rfl]

/-- A run treats every interface once, and nothing else. -/
theorem upward_of_hoistAll (run : hoistAll graph = .ok final) :
    ∃ upward, graph.Upward upward ∧ (∀ type, type ∉ graph.interfaces → final.get? type = none) ∧
      ∀ before interface after, upward = before ++ interface :: after →
        ∃ table methods, Turn graph final before interface table methods := by
  obtain ⟨upward, found, run⟩ := hoistAll_eq_ok.mp run
  have order := TypeGraph.upward_of_interfacesUpward found
  refine ⟨upward, order, fun type outside => ?_, ?_⟩
  · exact get?_of_not_mem (mt (order.complete type).mp outside) run
  · rintro before interface after rfl
    exact exists_turn order.distinct run

theorem resolve_eq_ok {resolved : TypeGraph} :
    resolve graph = (resolved, .ok ()) ↔
      ∃ final, hoistAll graph = .ok final ∧ record graph final.entries = (resolved, .ok ()) := by
  rw [resolve]
  cases hoistAll graph <;> simp

theorem record_cons {id : TypeId} {methods : List Method} {rest : List (TypeId × List Method)}
    (pending : (graph.node id).common = none) :
    record graph ((id, methods) :: rest) =
      record (graph.modify id fun node => { node with common := some methods }) rest := by
  rw [record, TypeGraph.setCommonMethods, pending]
  rfl

theorem pending_of_record {resolved : TypeGraph} {id : TypeId} {methods : List Method}
    {rest : List (TypeId × List Method)} (run : record graph ((id, methods) :: rest) = (resolved, .ok ())) :
    (graph.node id).common = none := by
  cases common : (graph.node id).common with
  | none => rfl
  | some known =>
    rw [record, TypeGraph.setCommonMethods, common] at run
    cases run

/-- Recording adds what was hoisted to the nodes, and leaves everything else as it is. -/
theorem node_of_record {entries : List (TypeId × List Method)} {resolved : TypeGraph}
    (distinct : (entries.map Prod.fst).Nodup) (inside : ∀ id ∈ entries.map Prod.fst, id ∈ graph.ids)
    (run : record graph entries = (resolved, .ok ())) (id : TypeId) :
    resolved.node id = { graph.node id with common := (Table.find id entries).or (graph.node id).common } := by
  induction entries generalizing graph with
  | nil =>
    cases run
    rfl
  | cons entry entries ih =>
    obtain ⟨first, methods⟩ := entry
    obtain ⟨absent, distinct⟩ := List.nodup_cons.mp distinct
    obtain ⟨here, inside⟩ := List.forall_mem_cons.mp inside
    rw [record_cons (pending_of_record run)] at run
    rw [ih distinct (by simpa using inside) run, TypeGraph.node_modify, Table.find]
    by_cases same : first = id
    · subst same
      simp [Table.find_eq_none absent, here]
    · simp [same, Ne.symm same]

/-- Recording fails only where something was recorded before. -/
theorem exists_record {entries : List (TypeId × List Method)} (distinct : (entries.map Prod.fst).Nodup)
    (pending : ∀ id ∈ entries.map Prod.fst, (graph.node id).common = none) :
    ∃ resolved, record graph entries = (resolved, .ok ()) := by
  induction entries generalizing graph with
  | nil => exact ⟨graph, rfl⟩
  | cons entry entries ih =>
    obtain ⟨first, methods⟩ := entry
    obtain ⟨absent, distinct⟩ := List.nodup_cons.mp distinct
    obtain ⟨here, others⟩ := List.forall_mem_cons.mp pending
    rw [record_cons here]
    refine ih distinct fun id member => ?_
    have different : id ≠ first := fun same => absent (same ▸ member)
    rw [TypeGraph.node_modify, if_neg fun both => different both.1]
    exact others id member

theorem ids_of_record {entries : List (TypeId × List Method)} {resolved : TypeGraph}
    (run : record graph entries = (resolved, .ok ())) : resolved.ids = graph.ids := by
  induction entries generalizing graph with
  | nil =>
    cases run
    rfl
  | cons entry entries ih =>
    rw [record_cons (pending_of_record run)] at run
    rw [ih run, TypeGraph.ids_modify]

theorem root_of_record {entries : List (TypeId × List Method)} {resolved : TypeGraph}
    (run : record graph entries = (resolved, .ok ())) : resolved.root = graph.root := by
  induction entries generalizing graph with
  | nil =>
    cases run
    rfl
  | cons entry entries ih =>
    rw [record_cons (pending_of_record run)] at run
    rw [ih run]
    rfl

theorem root_of_resolve {resolved : TypeGraph} (run : resolve graph = (resolved, .ok ())) :
    resolved.root = graph.root := by
  obtain ⟨_, _, records⟩ := resolve_eq_ok.mp run
  exact root_of_record records

/-- A successful run gives every interface what was hoisted into it, and changes nothing else. -/
structure Resolves (graph resolved : TypeGraph) (final : Hoisted) : Prop where
  hoists : hoistAll graph = .ok final
  ids : resolved.ids = graph.ids
  node : ∀ id, resolved.node id = { graph.node id with common := (final.get? id).or (graph.node id).common }

theorem exists_resolves {resolved : TypeGraph} (run : resolve graph = (resolved, .ok ())) :
    ∃ final, Resolves graph resolved final := by
  obtain ⟨final, hoists, records⟩ := resolve_eq_ok.mp run
  obtain ⟨_, _, outside, _⟩ := upward_of_hoistAll hoists
  refine ⟨final, hoists, ids_of_record records, node_of_record final.distinct (fun id member => ?_) records⟩
  refine Decidable.byContradiction fun absent => Table.get?_eq_none_iff.mp (outside id fun inside => absent ?_) member
  exact List.mem_of_mem_filter inside

theorem Resolves.commonMethods {resolved : TypeGraph} (resolves : Resolves graph resolved final) {interface : TypeId}
    {methods : List Method} (kept : final.get? interface = some methods) :
    (resolved.node interface).commonMethods = methods := by
  rw [TypeNode.commonMethods, resolves.node, kept]
  rfl

/-- No interface stands below itself. -/
def Acyclic (graph : TypeGraph) : Prop :=
  ∀ interface ∈ graph.interfaces, ¬ Relation.TransGen graph.InterfaceBelow interface interface

theorem Acyclic.apart (acyclic : Acyclic graph) {above below : TypeId} (inside : above ∈ graph.interfaces)
    (target : graph.InterfaceBelow above below) : ¬ Relation.ReflTransGen graph.InterfaceBelow below above :=
  fun path => acyclic above inside (.head' target path)

/-- Interfaces can be treated from the bottom up. -/
theorem Acyclic.induction {motive : TypeId → Prop} (acyclic : Acyclic graph)
    (step : ∀ interface ∈ graph.interfaces, (∀ below, graph.InterfaceBelow interface below → motive below) →
      motive interface) : ∀ interface ∈ graph.interfaces, motive interface := by
  obtain ⟨upward, found⟩ := graph.exists_interfacesUpward
  have order := TypeGraph.upward_of_interfacesUpward found
  have treated : ∀ before after, upward = before ++ after → ∀ interface ∈ before, motive interface := by
    intro before
    induction before using List.reverseRecOn with
    | nil => exact fun _ _ => List.forall_mem_nil _
    | append_singleton before interface ih =>
      intro after split
      rw [List.append_assoc, List.singleton_append] at split
      have earlier := ih (interface :: after) split
      have inside : interface ∈ graph.interfaces := (order.complete interface).mp (by simp [split])
      have here : motive interface := step interface inside fun below target =>
        earlier below (order.behind before interface after split below target (acyclic.apart inside target))
      exact List.forall_mem_append.mpr ⟨earlier, List.forall_mem_singleton.mpr here⟩
  exact fun interface inside =>
    treated upward [] (List.append_nil _).symm interface ((order.complete interface).mpr inside)

end TypedTree.Hoisting
