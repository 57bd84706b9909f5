import Mathlib.Logic.Relation
import TypedTree.Order
import TypedTree.Proofs.ListEffects

/-! What a depth-first walk enters, and in which order it finishes. A reference leads to an element that was
finished earlier, unless that element leads back. -/

namespace TypedTree.Order

variable {α : Type}

/-- One element leads to another along references, or is the same. -/
def Reaches (next : α → List α) : α → α → Prop := Relation.ReflTransGen fun x y => y ∈ next x

/-- Every reference of a list leads further down the list, or to where it can be followed back. -/
def Settled (next : α → List α) : List α → Prop
  | [] => True
  | x :: rest => (∀ y ∈ next x, y ∈ rest ∨ Reaches next y x) ∧ Settled next rest

theorem Settled.mem_after {next : α → List α} {before after : List α} {x y : α}
    (settled : Settled next (before ++ x :: after)) (target : y ∈ next x) (apart : ¬ Reaches next y x) :
    y ∈ after := by
  induction before with
  | nil => exact (settled.1 y target).resolve_right apart
  | cons first before ih => exact ih settled.2

/-- Without cycles all that an element leads to comes after it. -/
theorem Settled.mem_after_of_path {next : α → List α} {before after : List α} {x y : α}
    (settled : Settled next (before ++ x :: after))
    (acyclic : ∀ z ∈ before ++ x :: after, ¬ Relation.TransGen (fun x y => y ∈ next x) z z)
    (path : Relation.TransGen (fun x y => y ∈ next x) x y) : y ∈ after := by
  induction path with
  | single target => exact settled.mem_after target fun back => acyclic x (by simp) (.head' target back)
  | @tail middle y _ target ih =>
    obtain ⟨earlier, later, rfl⟩ := List.append_of_mem ih
    have split : before ++ x :: (earlier ++ middle :: later) = (before ++ x :: earlier) ++ middle :: later := by simp
    rw [split] at settled acyclic
    have behind := settled.mem_after target fun back => acyclic middle (by simp) (.head' target back)
    exact List.mem_append_right _ (List.mem_cons_of_mem _ behind)

theorem sublist_of_mem_after {before after : List α} {x y : α} (behind : y ∈ after) :
    [x, y].Sublist (before ++ x :: after) :=
  ((List.singleton_sublist.mpr behind).cons_cons x).trans (List.sublist_append_right _ _)

theorem Settled.sublist_of_path {next : α → List α} {sorted : List α} {x y : α} (settled : Settled next sorted)
    (acyclic : ∀ z ∈ sorted, ¬ Relation.TransGen (fun x y => y ∈ next x) z z) (member : x ∈ sorted)
    (path : Relation.TransGen (fun x y => y ∈ next x) x y) : [x, y].Sublist sorted := by
  obtain ⟨before, after, rfl⟩ := List.append_of_mem member
  exact sublist_of_mem_after (settled.mem_after_of_path acyclic path)

namespace Walk

/-- An element whose references are still being walked. -/
def Open (walk : Walk α) (x : α) : Prop := x ∈ walk.entered ∧ x ∉ walk.finished

structure Valid (next : α → List α) (walk : Walk α) : Prop where
  inside : ∀ x ∈ walk.finished, x ∈ walk.entered
  distinct : walk.finished.Nodup
  closed : ∀ x ∈ walk.finished, ∀ y ∈ next x, y ∈ walk.entered
  settled : Settled next walk.finished

/-- What walking some roots does. What it opens it finishes, and all that it finishes can be reached. -/
structure Advances (next : α → List α) (roots : List α) (walk after : Walk α) : Prop where
  valid : after.Valid next
  entered : ∀ x ∈ roots, x ∈ after.entered
  finished : ∃ new, after.finished = new ++ walk.finished ∧ ∀ y ∈ new, ∃ x ∈ roots, Reaches next x y
  opened : ∀ x, after.Open x ↔ walk.Open x

variable {next : α → List α} {walk after : Walk α}

theorem Advances.refl (valid : walk.Valid next) : Advances next [] walk walk :=
  ⟨valid, List.forall_mem_nil _, ⟨[], rfl, List.forall_mem_nil _⟩, fun _ => Iff.rfl⟩

/-- An element that was entered before is passed by. -/
theorem Advances.pass (valid : walk.Valid next) {x : α} (entered : x ∈ walk.entered) : Advances next [x] walk walk :=
  ⟨valid, List.forall_mem_singleton.mpr entered, ⟨[], rfl, List.forall_mem_nil _⟩, fun _ => Iff.rfl⟩

theorem Advances.grows {roots : List α} (advances : Advances next roots walk after) {x : α}
    (entered : x ∈ walk.entered) : x ∈ after.entered := by
  by_cases finished : x ∈ walk.finished
  · obtain ⟨new, same, _⟩ := advances.finished
    exact advances.valid.inside x (by rw [same]; exact List.mem_append_right _ finished)
  · exact ((advances.opened x).mpr ⟨entered, finished⟩).1

theorem Advances.trans {roots more : List α} {middle : Walk α} (first : Advances next roots walk middle)
    (second : Advances next more middle after) : Advances next (roots ++ more) walk after := by
  obtain ⟨new, finished, reached⟩ := first.finished
  obtain ⟨later, laterFinished, laterReached⟩ := second.finished
  refine ⟨second.valid, ?_, ⟨later ++ new, ?_, ?_⟩, fun x => (second.opened x).trans (first.opened x)⟩
  · intro x member
    rcases List.mem_append.mp member with root | root
    · exact second.grows (first.entered x root)
    · exact second.entered x root
  · rw [laterFinished, finished, List.append_assoc]
  · intro y member
    rcases List.mem_append.mp member with inside | inside
    · obtain ⟨x, root, path⟩ := laterReached y inside
      exact ⟨x, List.mem_append_right _ root, path⟩
    · obtain ⟨x, root, path⟩ := reached y inside
      exact ⟨x, List.mem_append_left _ root, path⟩

/-- Entering an element opens it. -/
theorem Valid.enter (valid : walk.Valid next) {x : α} : Valid next ⟨x :: walk.entered, walk.finished⟩ :=
  ⟨fun y member => List.mem_cons_of_mem _ (valid.inside y member), valid.distinct,
    fun y member z target => List.mem_cons_of_mem _ (valid.closed y member z target), valid.settled⟩

theorem open_enter {x y : α} (valid : walk.Valid next) (new : x ∉ walk.entered) :
    Open ⟨x :: walk.entered, walk.finished⟩ y ↔ y = x ∨ walk.Open y := by
  have unfinished : x ∉ walk.finished := fun finished => new (valid.inside x finished)
  simp only [Open, List.mem_cons]
  constructor
  · rintro ⟨rfl | entered, pending⟩
    · exact Or.inl rfl
    · exact Or.inr ⟨entered, pending⟩
  · rintro (rfl | ⟨entered, pending⟩)
    · exact ⟨Or.inl rfl, unfinished⟩
    · exact ⟨Or.inr entered, pending⟩

/-- Once all references of an element were walked it can be finished. Those that it cannot be put in front
of are open, so they lead to it. -/
theorem Advances.finish {x : α} {walked : Walk α} (valid : walk.Valid next) (new : x ∉ walk.entered)
    (leads : ∀ y, walk.Open y → Reaches next y x)
    (advances : Advances next (next x) ⟨x :: walk.entered, walk.finished⟩ walked) :
    Advances next [x] walk ⟨walked.entered, x :: walked.finished⟩ := by
  have opened : ∀ y, walked.Open y ↔ y = x ∨ walk.Open y :=
    fun y => (advances.opened y).trans (open_enter valid new)
  obtain ⟨entered, unfinished⟩ := (opened x).mpr (Or.inl rfl)
  have settled : ∀ y ∈ next x, y ∈ walked.finished ∨ Reaches next y x := by
    intro y target
    by_cases finished : y ∈ walked.finished
    · exact Or.inl finished
    · rcases (opened y).mp ⟨advances.entered y target, finished⟩ with rfl | old
      · exact Or.inr .refl
      · exact Or.inr (leads y old)
  refine ⟨⟨?_, ?_, ?_, settled, advances.valid.settled⟩, ?_, ?_, ?_⟩
  · exact List.forall_mem_cons.mpr ⟨entered, advances.valid.inside⟩
  · exact List.nodup_cons.mpr ⟨unfinished, advances.valid.distinct⟩
  · exact List.forall_mem_cons.mpr ⟨advances.entered, advances.valid.closed⟩
  · exact List.forall_mem_singleton.mpr entered
  · obtain ⟨later, finished, reached⟩ := advances.finished
    refine ⟨x :: later, by rw [finished]; rfl, List.forall_mem_cons.mpr ⟨⟨x, List.mem_singleton_self x, .refl⟩, ?_⟩⟩
    intro y member
    obtain ⟨z, target, path⟩ := reached y member
    exact ⟨x, List.mem_singleton_self x, path.head target⟩
  · intro y
    have apart : walk.Open y → y ≠ x := fun old same => new (same ▸ old.1)
    constructor
    · rintro ⟨old, pending⟩
      obtain ⟨different, pending⟩ := not_or.mp (mt List.mem_cons.mpr pending)
      exact ((opened y).mp ⟨old, pending⟩).resolve_left different
    · intro old
      obtain ⟨inside, pending⟩ := (opened y).mpr (Or.inr old)
      exact ⟨inside, fun member => (List.mem_cons.mp member).elim (apart old) pending⟩

end Walk

/-- Walking some elements, one after the other. An element that was entered before is passed by; a new one is entered,
what it references is walked, and then it is finished. -/
inductive Walks (next : α → List α) : List α → Walk α → Walk α → Prop
  | done {walk : Walk α} : Walks next [] walk walk
  | old {x : α} {rest : List α} {walk after : Walk α} (entered : x ∈ walk.entered) (others : Walks next rest walk after) :
      Walks next (x :: rest) walk after
  | new {x : α} {rest : List α} {walk walked after : Walk α} (absent : x ∉ walk.entered)
      (inner : Walks next (next x) ⟨x :: walk.entered, walk.finished⟩ walked)
      (others : Walks next rest ⟨walked.entered, x :: walked.finished⟩ after) : Walks next (x :: rest) walk after

namespace Walks

variable {next : α → List α} {xs ys : List α} {walk middle after other : Walk α}

theorem grows (walks : Walks next xs walk after) : ∀ x ∈ walk.entered, x ∈ after.entered := by
  induction walks with
  | done => exact fun _ entered => entered
  | old _ _ ih => exact ih
  | new _ _ _ inner others => exact fun y entered => others y (inner y (List.mem_cons_of_mem _ entered))

theorem append_iff : Walks next (xs ++ ys) walk after ↔ ∃ middle, Walks next xs walk middle ∧ Walks next ys middle after := by
  constructor
  · intro walks
    induction xs generalizing walk with
    | nil => exact ⟨walk, .done, walks⟩
    | cons x xs ih =>
      cases walks with
      | old entered others =>
        obtain ⟨middle, first, last⟩ := ih others
        exact ⟨middle, .old entered first, last⟩
      | new absent inner others =>
        obtain ⟨middle, first, last⟩ := ih others
        exact ⟨middle, .new absent inner first, last⟩
  · rintro ⟨middle, first, last⟩
    induction first with
    | done => exact last
    | old entered _ ih => exact .old entered (ih last)
    | new absent inner _ _ ih => exact .new absent inner (ih last)

/-- A walk has no choice. -/
theorem unique (walks : Walks next xs walk after) (again : Walks next xs walk other) : after = other := by
  induction walks generalizing other with
  | done =>
    cases again
    rfl
  | old entered _ ih =>
    cases again with
    | old _ others => exact ih others
    | new absent => exact absurd entered absent
  | new absent _ _ innerIh othersIh =>
    cases again with
    | old entered => exact absurd entered absent
    | new _ inner others =>
      cases innerIh inner
      exact othersIh others

end Walks

/-- The elements of a walk that are kept, under other names. -/
def Walk.image {β : Type} (keep : α → Bool) (name : α → β) (walk : Walk α) : Walk β :=
  ⟨(walk.entered.filter keep).map name, (walk.finished.filter keep).map name⟩

/-- Elements may be left out if they reference nothing, and the others may be renamed: a walk along the others goes the
same way. -/
theorem Walks.image {β : Type} {next : α → List α} {other : β → List β} {keep : α → Bool} {name : α → β}
    (same : ∀ x, keep x = true → other (name x) = ((next x).filter keep).map name)
    (distinct : ∀ x y, keep x = true → keep y = true → name x = name y → x = y)
    (leaf : ∀ x, ∀ y ∈ next x, keep y = false → next y = []) {xs : List α} {walk after : Walk α}
    (walks : Walks next xs walk after) (start : ∀ x ∈ xs, keep x = false → next x = []) :
    Walks other ((xs.filter keep).map name) (walk.image keep name) (after.image keep name) := by
  induction walks with
  | done => exact .done
  | @old x rest walk after entered _ ih =>
    have rest := ih fun y member => start y (List.mem_cons_of_mem _ member)
    cases kept : keep x with
    | false => rwa [List.filter_cons_of_neg (by simp [kept])]
    | true =>
      rw [List.filter_cons_of_pos kept]
      exact .old (List.mem_map_of_mem (List.mem_filter.mpr ⟨entered, kept⟩)) rest
  | @new x rest walk walked after absent inner _ innerIh othersIh =>
    have rest := othersIh fun y member => start y (List.mem_cons_of_mem _ member)
    have inside := innerIh (leaf x)
    cases kept : keep x with
    | false =>
      rw [start x List.mem_cons_self kept] at inner
      cases inner
      simpa [Walk.image, kept] using rest
    | true =>
      rw [List.filter_cons_of_pos kept, List.map_cons]
      have fresh : name x ∉ (walk.image keep name).entered := by
        intro entered
        obtain ⟨y, member, equal⟩ := List.mem_map.mp entered
        obtain ⟨entered, otherKept⟩ := List.mem_filter.mp member
        exact absent (distinct y x otherKept kept equal ▸ entered)
      have inside : Walks other (other (name x))
          ⟨name x :: (walk.image keep name).entered, (walk.image keep name).finished⟩ (walked.image keep name) := by
        simpa [Walk.image, kept, same x kept] using inside
      apply Walks.new fresh inside
      simpa [Walk.image, kept] using rest

/-- A walk may go on with some elements if all that is open leads to them. -/
structure Ready (next : α → List α) (xs : List α) (walk : Walk α) : Prop where
  valid : walk.Valid next
  leads : ∀ x ∈ xs, ∀ y, walk.Open y → Reaches next y x

namespace Ready

variable {next : α → List α} {x : α} {xs rest : List α} {walk after : Walk α}

theorem start (next : α → List α) (xs : List α) : Ready next xs ⟨[], []⟩ :=
  ⟨⟨List.forall_mem_nil _, List.nodup_nil, List.forall_mem_nil _, trivial⟩, fun _ _ _ pending => nomatch pending.1⟩

theorem enter (ready : Ready next (x :: rest) walk) (absent : x ∉ walk.entered) :
    Ready next (next x) ⟨x :: walk.entered, walk.finished⟩ := by
  refine ⟨ready.valid.enter, fun y target z pending => ?_⟩
  rcases (Walk.open_enter ready.valid absent).mp pending with rfl | old
  · exact .single target
  · exact (ready.leads x List.mem_cons_self z old).tail target

theorem later (ready : Ready next (xs ++ rest) walk) (advances : Walk.Advances next xs walk after) :
    Ready next rest after :=
  ⟨advances.valid, fun y member z pending => ready.leads y (List.mem_append_right _ member) z ((advances.opened z).mp pending)⟩

end Ready

theorem Walks.advances {next : α → List α} {xs : List α} {walk after : Walk α} (walks : Walks next xs walk after)
    (ready : Ready next xs walk) : Walk.Advances next xs walk after := by
  induction walks with
  | done => exact .refl ready.valid
  | old entered _ ih =>
    have first := Walk.Advances.pass ready.valid entered
    exact first.trans (ih (ready.later first))
  | new absent _ _ inner others =>
    have first := Walk.Advances.finish ready.valid absent (ready.leads _ List.mem_cons_self) (inner (ready.enter absent))
    exact first.trans (others (ready.later first))

variable [DecidableEq α]

/-- The references that a walk goes on with. -/
def followed (references : References α) (strangers : Strangers) (known : List α) (x : α) : List α :=
  match strangers with
  | .add => references.targets x
  | .ignore => (references.targets x).filter (· ∈ known)
  | .refuse => (references.targets x).filter (· ∈ known)

theorem mem_followed {references : References α} {strangers : Strangers} {known : List α} {x y : α} :
    y ∈ followed references strangers known x ↔ y ∈ references.targets x ∧ (strangers = .add ∨ y ∈ known) := by
  cases strangers <;> simp [followed]

namespace Walk

variable {references : References α} {strangers : Strangers} {known : List α} {walk after : Walk α}

/-- How many elements of the domain were not entered. -/
def missing (references : References α) (walk : Walk α) : Nat :=
  (references.domain.filter (· ∉ walk.entered)).length

theorem missing_le (grows : ∀ x ∈ walk.entered, x ∈ after.entered) :
    after.missing references ≤ walk.missing references := by
  have fewer : references.domain.filter (· ∉ after.entered) =
      (references.domain.filter (· ∉ walk.entered)).filter (· ∉ after.entered) := by
    rw [List.filter_filter]
    refine List.filter_congr fun x _ => ?_
    by_cases old : x ∈ walk.entered
    · simp [grows x old]
    · simp [old]
  rw [missing, fewer]
  exact List.length_filter_le _ _

theorem missing_lt {x : α} (inside : x ∈ references.domain) (new : x ∉ walk.entered) :
    missing references ⟨x :: walk.entered, walk.finished⟩ < walk.missing references := by
  have fewer : references.domain.filter (· ∉ x :: walk.entered) =
      (references.domain.filter (· ∉ walk.entered)).filter (· ≠ x) := by
    rw [List.filter_filter]
    refine List.filter_congr fun y _ => ?_
    simp
  rw [missing, missing, fewer, List.length_filter_lt_length_iff_exists]
  exact ⟨x, by simp [inside, new], by simp⟩

theorem visit_entered {depth : Nat} {x : α} (old : x ∈ walk.entered) :
    walk.visit references strangers known depth x = .ok walk := by
  cases depth with
  | zero => rfl
  | succ depth => rw [visit, if_pos old]

/-- An element that is new is entered, what it references is walked, and then it is finished. -/
theorem visit_new {depth : Nat} {x : α} (new : x ∉ walk.entered) :
    walk.visit references strangers known (depth + 1) x = .ok after ↔
      (strangers = .refuse → ∀ y ∈ references.targets x, y ∈ known) ∧
      ∃ walked, (followed references strangers known x).foldlM
          (fun walk y => visit references strangers known depth walk y) ⟨x :: walk.entered, walk.finished⟩ =
            .ok walked ∧
        after = ⟨walked.entered, x :: walked.finished⟩ := by
  rw [visit, if_neg new, ListEffects.bind_eq_ok]
  have last : ∀ walked : Walk α, (pure ⟨walked.entered, x :: walked.finished⟩ : Except (StrangeReference α) _) =
      .ok after ↔ after = ⟨walked.entered, x :: walked.finished⟩ :=
    fun walked => ⟨fun same => (Except.ok.inj same).symm, fun same => congrArg Except.ok same.symm⟩
  cases strangers with
  | add => simp [followed, last]
  | ignore => simp [followed, List.foldlM_filter, pure, Except.pure, eq_comm (a := after)]
  | refuse =>
    simp only [last, ListEffects.foldlM_guarded, true_imp_iff]
    constructor
    · rintro ⟨walked, ⟨allowed, run⟩, same⟩
      refine ⟨allowed, walked, ?_, same⟩
      rwa [followed, List.filter_eq_self.mpr (by simpa using allowed)]
    · rintro ⟨allowed, walked, run, same⟩
      rw [followed, List.filter_eq_self.mpr (by simpa using allowed)] at run
      exact ⟨walked, ⟨allowed, run⟩, same⟩

/-- A walk that is deep enough for all that was not entered never runs out of depth. -/
theorem walks_of_visit {depth : Nat} {x : α} (deep : walk.missing references < depth)
    (run : walk.visit references strangers known depth x = .ok after) :
    Walks (followed references strangers known) [x] walk after := by
  induction depth generalizing walk after x with
  | zero => exact nomatch deep
  | succ depth ih =>
    by_cases old : x ∈ walk.entered
    · rw [visit_entered old] at run
      cases run
      exact .old old .done
    · obtain ⟨_, walked, walks, rfl⟩ := (visit_new old).mp run
      refine .new old ?_ .done
      by_cases inside : x ∈ references.domain
      · refine ListEffects.foldlM_invariant
          (fun done state => Walks _ done ⟨x :: walk.entered, walk.finished⟩ state) .done ?_ walks
        intro done y state next _ walks step
        have deep : state.missing references < depth :=
          calc state.missing references
            _ ≤ missing references ⟨x :: walk.entered, walk.finished⟩ := missing_le walks.grows
            _ < walk.missing references := missing_lt inside old
            _ ≤ depth := Nat.lt_succ_iff.mp deep
        exact Walks.append_iff.mpr ⟨state, walks, ih deep step⟩
      · -- Nothing is referenced, so no depth is used.
        have nothing : followed references strangers known x = [] := by
          rw [List.eq_nil_iff_forall_not_mem]
          intro y target
          have referenced := (mem_followed.mp target).1
          rw [references.outside x inside] at referenced
          cases referenced
        rw [nothing] at walks ⊢
        cases walks
        exact .done

/-- Only a reference that must not be there can stop a walk. -/
theorem exists_visit {depth : Nat} {x : α} (start : strangers = .refuse → x ∈ known)
    (allowed : strangers = .refuse → ∀ x ∈ known, ∀ y ∈ references.targets x, y ∈ known) :
    ∃ after, walk.visit references strangers known depth x = .ok after := by
  induction depth generalizing walk x with
  | zero => exact ⟨walk, rfl⟩
  | succ depth ih =>
    by_cases old : x ∈ walk.entered
    · exact ⟨walk, visit_entered old⟩
    · have targets : strangers = .refuse → ∀ y ∈ references.targets x, y ∈ known :=
        fun refusing => allowed refusing x (start refusing)
      obtain ⟨walked, walks, _⟩ : ∃ walked, (followed references strangers known x).foldlM
          (fun walk y => visit references strangers known depth walk y) ⟨x :: walk.entered, walk.finished⟩ =
            .ok walked ∧ True := by
        refine ListEffects.exists_foldlM (fun _ _ => True) trivial fun done y rest state split _ => ?_
        have target : y ∈ followed references strangers known x := by
          rw [split]
          exact List.mem_append_right _ List.mem_cons_self
        obtain ⟨next, step⟩ := @ih state y fun refusing => targets refusing y (mem_followed.mp target).1
        exact ⟨next, step, trivial⟩
      exact ⟨_, (visit_new old).mpr ⟨targets, walked, walks, rfl⟩⟩

end Walk

/-- What is sorted: all that can be reached, each element once and in front of what it references. -/
structure Sorted (next : α → List α) (elements sorted : List α) : Prop where
  distinct : sorted.Nodup
  complete : ∀ y, y ∈ sorted ↔ ∃ x ∈ elements, Reaches next x y
  settled : Settled next sorted

variable {references : References α} {strangers : Strangers} {elements sorted : List α}

theorem walks_of_sort (run : sort references strangers elements = .ok sorted) :
    ∃ walk, Walks (followed references strangers elements) elements ⟨[], []⟩ walk ∧ walk.finished = sorted := by
  obtain ⟨walk, walks, done⟩ := ListEffects.bind_eq_ok.mp run
  cases done
  refine ⟨walk, ?_, rfl⟩
  refine ListEffects.foldlM_invariant (fun done state => Walks _ done ⟨[], []⟩ state) .done ?_ walks
  intro done x state next _ walks step
  exact Walks.append_iff.mpr ⟨state, walks, Walk.walks_of_visit (Nat.lt_succ_iff.mpr (List.length_filter_le _ _)) step⟩

omit [DecidableEq α] in
/-- A whole walk finishes all that it enters. -/
theorem sorted_of_walks {next : α → List α} {walk : Walk α} (walks : Walks next elements ⟨[], []⟩ walk) :
    Sorted next elements walk.finished ∧ ∀ x, x ∈ walk.entered ↔ x ∈ walk.finished := by
  have advances := walks.advances (.start next elements)
  have all : ∀ y ∈ walk.entered, y ∈ walk.finished := fun y entered =>
    Classical.byContradiction fun pending => nomatch ((advances.opened y).mp ⟨entered, pending⟩).1
  refine ⟨⟨advances.valid.distinct, fun y => ⟨fun member => ?_, ?_⟩, advances.valid.settled⟩,
    fun x => ⟨all x, advances.valid.inside x⟩⟩
  · obtain ⟨new, same, reached⟩ := advances.finished
    rw [same, List.append_nil] at member
    exact reached y member
  · rintro ⟨x, root, path⟩
    induction path with
    | refl => exact all x (advances.entered x root)
    | tail _ target ih => exact all _ (advances.valid.closed _ ih _ target)

theorem sorted_of_sort (run : sort references strangers elements = .ok sorted) :
    Sorted (followed references strangers elements) elements sorted := by
  obtain ⟨walk, walks, rfl⟩ := walks_of_sort run
  exact (sorted_of_walks walks).1

theorem exists_sort (allowed : strangers = .refuse → ∀ x ∈ elements, ∀ y ∈ references.targets x, y ∈ elements) :
    ∃ sorted, sort references strangers elements = .ok sorted := by
  obtain ⟨walk, walks, _⟩ : ∃ walk, elements.foldlM (fun (walk : Walk α) (x : α) =>
      walk.visit references strangers elements (references.domain.length + 1) x) ⟨[], []⟩ = .ok walk ∧ True := by
    refine ListEffects.exists_foldlM (fun _ _ => True) trivial fun done x rest state split _ => ?_
    have inside : x ∈ elements := by
      rw [split]
      exact List.mem_append_right _ List.mem_cons_self
    obtain ⟨next, step⟩ := Walk.exists_visit (fun _ => inside) allowed
    exact ⟨next, step, trivial⟩
  exact ⟨walk.finished, ListEffects.bind_eq_ok.mpr ⟨walk, walks, rfl⟩⟩

/-- Unless strangers are added, what is sorted is what was given. -/
theorem Sorted.mem_iff (sorted_by : Sorted (followed references strangers elements) elements sorted)
    (closed : strangers ≠ .add) {x : α} : x ∈ sorted ↔ x ∈ elements := by
  rw [sorted_by.complete]
  constructor
  · rintro ⟨root, member, path⟩
    cases path with
    | refl => exact member
    | tail _ target => exact (mem_followed.mp target).2.resolve_left closed
  · intro member
    exact ⟨x, member, .refl⟩

end TypedTree.Order
