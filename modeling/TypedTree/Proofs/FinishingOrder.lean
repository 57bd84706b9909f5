import TypedTree.Proofs.DepthFirst

/-! Which of two elements a walk finishes first; it comes last in the order. What the first elements reach is finished
before all else. Of two elements that are met elsewhere, the first one to be listed where they are met is finished
first. -/

namespace TypedTree.Order

variable {α : Type} {next : α → List α} {first second x : α} {xs rest : List α} {walk middle after : Walk α}

namespace Walk

/-- One element was finished before another one was entered. -/
structure FinishedFirst (walk : Walk α) (first second : α) : Prop where
  finished : first ∈ walk.finished
  behind : second ∉ walk.entered ∨ [second, first].Sublist walk.finished

theorem Advances.reached (advances : Advances next xs walk after) (valid : walk.Valid next) {y : α}
    (entered : y ∈ after.entered) : y ∈ walk.entered ∨ ∃ x ∈ xs, Reaches next x y := by
  by_cases finished : y ∈ after.finished
  · obtain ⟨new, same, reached⟩ := advances.finished
    rw [same] at finished
    rcases List.mem_append.mp finished with inside | old
    · exact Or.inr (reached y inside)
    · exact Or.inl (valid.inside y old)
  · exact Or.inl ((advances.opened y).mp ⟨entered, finished⟩).1

/-- Later the other element can only be put in front. -/
theorem FinishedFirst.later (before : walk.FinishedFirst first second) (valid : walk.Valid next)
    (closed : ¬ walk.Open second) (advances : Advances next xs walk after) : after.FinishedFirst first second := by
  obtain ⟨new, same, _⟩ := advances.finished
  constructor
  · rw [same]
    exact List.mem_append_right _ before.finished
  · by_cases entered : second ∈ after.entered
    · right
      rcases before.behind with absent | behind
      · have finished : second ∈ after.finished := Classical.byContradiction fun pending =>
          closed ((advances.opened second).mp ⟨entered, pending⟩)
        rw [same] at finished ⊢
        have late : second ∈ new := (List.mem_append.mp finished).resolve_right fun old => absent (valid.inside second old)
        exact (List.singleton_sublist.mpr late).append (List.singleton_sublist.mpr before.finished)
      · rw [same]
        exact behind.trans (List.sublist_append_right _ _)
    · exact Or.inl entered

theorem FinishedFirst.finish (before : walk.FinishedFirst first second) (x : α) :
    FinishedFirst ⟨walk.entered, x :: walk.finished⟩ first second :=
  ⟨List.mem_cons_of_mem _ before.finished, before.behind.imp_right fun behind => behind.cons x⟩

end Walk

/-- One element is listed, and no other one before it. -/
def Precedes (xs : List α) (first second : α) : Prop := ∃ before after, xs = before ++ first :: after ∧ second ∉ before

theorem Precedes.cons (precedes : Precedes xs first second) (different : x ≠ second) : Precedes (x :: xs) first second := by
  obtain ⟨before, after, rfl, absent⟩ := precedes
  refine ⟨x :: before, after, rfl, fun member => ?_⟩
  rcases List.mem_cons.mp member with same | inside
  · exact different same.symm
  · exact absent inside

theorem Precedes.mem (precedes : Precedes xs first second) : first ∈ xs := by
  obtain ⟨before, after, rfl, _⟩ := precedes
  exact List.mem_append_right _ List.mem_cons_self

theorem Precedes.sublist (precedes : Precedes xs first second) (different : second ≠ first) (member : second ∈ xs) :
    [first, second].Sublist xs := by
  obtain ⟨before, after, rfl, absent⟩ := precedes
  have late : second ∈ after := by
    apply (List.mem_cons.mp ((List.mem_append.mp member).resolve_left absent)).resolve_left
    exact different
  exact ((List.singleton_sublist.mpr late).cons_cons first).trans (List.sublist_append_right _ _)

/-- One element was finished first, and was listed first where it was met: among the elements of a walk, or among
the references of an element. -/
structure MetFirst (next : α → List α) (xs : List α) (after : Walk α) (first second : α) : Prop where
  finished : after.FinishedFirst first second
  listed : Precedes xs first second ∨ ∃ x, Precedes (next x) first second

theorem MetFirst.cons (met : MetFirst next xs after first second) (different : x ≠ second) :
    MetFirst next (x :: xs) after first second :=
  ⟨met.finished, met.listed.imp_left fun precedes => precedes.cons different⟩

/-- The element with which a walk starts is met first. -/
theorem metFirst_of_start (valid : walk.Valid next) (new : second ∉ walk.entered) (apart : ¬ Reaches next first second)
    (start : Walk.Advances next [first] walk middle) (finished : first ∈ middle.finished)
    (others : Walk.Advances next rest middle after) : MetFirst next (first :: rest) after first second := by
  have absent : second ∉ middle.entered := by
    intro entered
    rcases start.reached valid entered with old | ⟨root, same, path⟩
    · exact new old
    · rw [List.mem_singleton.mp same] at path
      exact apart path
  have before : middle.FinishedFirst first second := ⟨finished, Or.inl absent⟩
  exact ⟨before.later start.valid (fun pending => absent pending.1) others, Or.inl ⟨[], rest, rfl, List.not_mem_nil⟩⟩

/-- A walk that enters one of two elements meets one of them first, unless one leads to the other. -/
theorem Walks.metFirst (walks : Walks next xs walk after) (ready : Ready next xs walk) (firstNew : first ∉ walk.entered)
    (secondNew : second ∉ walk.entered) (apart : ¬ Reaches next first second) (otherApart : ¬ Reaches next second first)
    (entered : first ∈ after.entered ∨ second ∈ after.entered) :
    MetFirst next xs after first second ∨ MetFirst next xs after second first := by
  induction walks with
  | done => exact absurd entered (not_or.mpr ⟨firstNew, secondNew⟩)
  | @old x rest walk after old others ih =>
    have notFirst : x ≠ first := fun same => firstNew (same ▸ old)
    have notSecond : x ≠ second := fun same => secondNew (same ▸ old)
    have met := ih (ready.later (.pass ready.valid old)) firstNew secondNew entered
    exact met.imp (fun met => met.cons notSecond) fun met => met.cons notFirst
  | @new x rest walk walked after absent inner others innerIh othersIh =>
    have inside := ready.enter absent
    have step := Walk.Advances.finish ready.valid absent (ready.leads x List.mem_cons_self) (inner.advances inside)
    have onward := ready.later step
    have last := others.advances onward
    by_cases isFirst : x = first
    · subst isFirst
      exact Or.inl (metFirst_of_start ready.valid secondNew apart step List.mem_cons_self last)
    by_cases isSecond : x = second
    · subst isSecond
      exact Or.inr (metFirst_of_start ready.valid firstNew otherApart step List.mem_cons_self last)
    by_cases met : first ∈ walked.entered ∨ second ∈ walked.entered
    · -- What is met below an element is met among its references, or further down.
      have outward : ∀ {one other : α}, other ∉ walk.entered → MetFirst next (next x) walked one other →
          MetFirst next (x :: rest) after one other := by
        intro one other new met
        have closed : ¬ Walk.Open ⟨walked.entered, x :: walked.finished⟩ other :=
          fun pending => new ((step.opened other).mp pending).1
        exact ⟨(met.finished.finish x).later step.valid closed last, Or.inr (met.listed.elim (⟨x, ·⟩) id)⟩
      have firstAbsent : first ∉ x :: walk.entered := by
        simp only [List.mem_cons, not_or]
        exact ⟨Ne.symm isFirst, firstNew⟩
      have secondAbsent : second ∉ x :: walk.entered := by
        simp only [List.mem_cons, not_or]
        exact ⟨Ne.symm isSecond, secondNew⟩
      exact (innerIh inside firstAbsent secondAbsent met).imp (outward secondNew) (outward firstNew)
    · obtain ⟨firstAbsent, secondAbsent⟩ := not_or.mp met
      have met := othersIh onward firstAbsent secondAbsent entered
      exact met.imp (fun met => met.cons isSecond) fun met => met.cons isFirst

variable [DecidableEq α] {references : References α} {strangers : Strangers} {earlier later sorted : List α}

/-- An order is made in two parts. What the earlier elements reach is finished first. -/
theorem exists_parts_of_sort (run : sort references strangers (earlier ++ later) = .ok sorted) :
    ∃ middle walk, Walks (followed references strangers (earlier ++ later)) earlier ⟨[], []⟩ middle ∧
      Walk.Advances (followed references strangers (earlier ++ later)) later middle walk ∧ walk.finished = sorted := by
  obtain ⟨walk, walks, same⟩ := walks_of_sort run
  obtain ⟨middle, first, last⟩ := Walks.append_iff.mp walks
  have ready := (Ready.start (followed references strangers (earlier ++ later)) (earlier ++ later)).later
    (first.advances (.start _ earlier))
  exact ⟨middle, walk, first, last.advances ready, same⟩

/-- What earlier elements do not reach comes before all that they reach. -/
theorem sublist_of_unreached (run : sort references strangers (earlier ++ later) = .ok sorted) (member : first ∈ sorted)
    (unreached : ∀ x ∈ earlier, ¬ Reaches (followed references strangers (earlier ++ later)) x first)
    (reached : ∃ x ∈ earlier, Reaches (followed references strangers (earlier ++ later)) x second) :
    [first, second].Sublist sorted := by
  obtain ⟨middle, walk, walks, last, rfl⟩ := exists_parts_of_sort run
  have order := (sorted_of_walks walks).1
  obtain ⟨new, same, _⟩ := last.finished
  rw [same] at member ⊢
  have late : first ∈ new := by
    apply (List.mem_append.mp member).resolve_right
    intro early
    obtain ⟨x, root, path⟩ := (order.complete first).mp early
    exact unreached x root path
  exact (List.singleton_sublist.mpr late).append (List.singleton_sublist.mpr ((order.complete second).mpr reached))

/-- Two elements that earlier elements reach, without being among them, are listed the other way around among the
references of some element. -/
theorem exists_precedes_of_sort (run : sort references strangers (earlier ++ later) = .ok sorted)
    (firstOther : first ∉ earlier) (secondOther : second ∉ earlier)
    (apart : ¬ Reaches (followed references strangers (earlier ++ later)) first second)
    (otherApart : ¬ Reaches (followed references strangers (earlier ++ later)) second first)
    (reached : ∃ x ∈ earlier, Reaches (followed references strangers (earlier ++ later)) x first)
    (firstMember : first ∈ sorted) (secondMember : second ∈ sorted) :
    ∃ x, Precedes (followed references strangers (earlier ++ later) x) first second ∧ [second, first].Sublist sorted ∨
      Precedes (followed references strangers (earlier ++ later) x) second first ∧ [first, second].Sublist sorted := by
  obtain ⟨middle, walk, walks, last, rfl⟩ := exists_parts_of_sort run
  obtain ⟨order, finished⟩ := sorted_of_walks walks
  have entered : first ∈ middle.entered := (finished first).mpr ((order.complete first).mpr reached)
  have valid := (walks.advances (.start _ earlier)).valid
  -- In the end both are finished, so that the one that was finished first is behind.
  have told : ∀ {one other : α}, one ∉ earlier → other ∈ walk.finished →
      MetFirst (followed references strangers (earlier ++ later)) earlier middle one other →
      ∃ x, Precedes (followed references strangers (earlier ++ later) x) one other ∧ [other, one].Sublist walk.finished := by
    intro one other outside member met
    obtain ⟨x, listed⟩ := met.listed.resolve_left fun listed => outside listed.mem
    have closed : ¬ middle.Open other := fun pending => pending.2 ((finished other).mp pending.1)
    have behind := (met.finished.later valid closed last).behind
    exact ⟨x, listed, behind.resolve_left fun absent => absent (last.valid.inside other member)⟩
  rcases walks.metFirst (.start _ earlier) List.not_mem_nil List.not_mem_nil apart otherApart (Or.inl entered) with met | met
  · obtain ⟨x, both⟩ := told firstOther secondMember met
    exact ⟨x, Or.inl both⟩
  · obtain ⟨x, both⟩ := told secondOther firstMember met
    exact ⟨x, Or.inr both⟩

end TypedTree.Order
