import Mathlib.Data.List.Forall2

/-! Runs over lists that may fail. Statements about the lists are derived from runs that succeed. -/

namespace TypedTree.ListEffects

variable {α β σ ε : Type}

theorem guard_bind {p : Prop} [Decidable p] (holds : p) (next : Unit → Option β) : (guard p >>= next) = next () := by
  have passed : (guard p : Option Unit) = some () := if_pos holds
  rw [passed]
  rfl

theorem not_guard_bind {p : Prop} [Decidable p] (fails : ¬ p) (next : Unit → Option β) : (guard p >>= next) = none := by
  have failed : (guard p : Option Unit) = none := if_neg fails
  rw [failed]
  rfl

theorem mapM_eq_some {f : α → Option β} {items : List α} {results : List β} :
    items.mapM f = some results ↔ items.map f = results.map some := by
  induction items generalizing results with
  | nil => cases results <;> simp
  | cons item items ih =>
    rw [List.mapM_cons]
    cases head : f item with
    | none => cases results <;> simp [head]
    | some value =>
      cases tail : items.mapM f with
      | none =>
        have absent : ∀ rest : List β, items.map f ≠ rest.map some := by
          intro rest equal
          have found := ih.mpr equal
          rw [tail] at found
          cases found
        cases results <;> simp [head, absent]
      | some rest =>
        have mapped := ih.mp tail
        cases results with
        | nil => simp
        | cons result others =>
          have same : rest.map some = others.map some ↔ rest = others :=
            List.map_inj_right fun _ _ equal => Option.some.inj equal
          simp [head, mapped, same]

theorem getElem?_of_mapM_range {f : Nat → Option β} {count position : Nat} {results : List β} {result : β}
    (run : (List.range count).mapM f = some results) (present : results[position]? = some result) :
    position < count ∧ f position = some result := by
  have mapped := mapM_eq_some.mp run
  have inside : position < count := by
    have length : results.length = count := by simpa using (congrArg List.length mapped).symm
    exact length ▸ (List.getElem?_eq_some_iff.mp present).1
  have there := congrArg (·[position]?) mapped
  exact ⟨inside, by simpa [present, inside] using there⟩

theorem mapM_eq_none {f : α → Option β} {items : List α} :
    items.mapM f = none ↔ ∃ item ∈ items, f item = none := by
  induction items with
  | nil => simp
  | cons item items ih =>
    rw [List.mapM_cons]
    cases head : f item with
    | none => simp [head]
    | some value =>
      cases tail : items.mapM f with
      | none => simpa [head, tail] using ih
      | some rest => simpa [head, tail] using ih

theorem mapM_congr {f g : α → Option β} {items : List α} (same : ∀ item ∈ items, f item = g item) :
    items.mapM f = items.mapM g := by
  induction items with
  | nil => rfl
  | cons item items ih =>
    rw [List.mapM_cons, List.mapM_cons, same item List.mem_cons_self,
      ih fun other member => same other (List.mem_cons_of_mem _ member)]

theorem mapM_of_defined {f : α → Option β} {items : List α} (defined : ∀ item ∈ items, f item ≠ none) :
    items.mapM f = some (items.filterMap f) := by
  rw [mapM_eq_some, List.map_filterMap]
  induction items with
  | nil => rfl
  | cons item items ih =>
    obtain ⟨value, found⟩ := Option.ne_none_iff_exists'.mp (defined item List.mem_cons_self)
    have others := ih fun other member => defined other (List.mem_cons_of_mem _ member)
    simp [found, others]

theorem error_ne_ok {error : ε} {value : α} : (.error error : Except ε α) ≠ .ok value := nofun

theorem bind_eq_ok {run : Except ε α} {next : α → Except ε β} {result : β} :
    (run >>= next) = .ok result ↔ ∃ value, run = .ok value ∧ next value = .ok result := by
  cases run with
  | error error => simp [bind, Except.bind]
  | ok value => simp [bind, Except.bind]

/-- What can be told of the result of a run shows that there is one. -/
theorem exists_ok_of_map {run : Except ε α} {f : α → β} {told : β} (known : run.toOption.map f = some told) :
    ∃ value, run = .ok value ∧ f value = told := by
  cases run with
  | error error => cases known
  | ok value => exact ⟨value, rfl, Option.some.inj known⟩

def failure? : Except ε α → Option ε
  | .error error => some error
  | .ok _ => none

theorem failure?_eq_some {run : Except ε α} {error : ε} : failure? run = some error ↔ run = .error error := by
  cases run <;> simp [failure?]

theorem mem_of_mapM_eq_ok {f : α → Except ε β} {items : List α} {results : List β}
    (run : items.mapM f = .ok results) {result : β} (member : result ∈ results) :
    ∃ item ∈ items, f item = .ok result := by
  induction items generalizing results with
  | nil =>
    cases run
    cases member
  | cons item items ih =>
    rw [List.mapM_cons, bind_eq_ok] at run
    obtain ⟨first, here, run⟩ := run
    obtain ⟨others, rest, done⟩ := bind_eq_ok.mp run
    cases done
    rcases List.mem_cons.mp member with rfl | later
    · exact ⟨item, List.mem_cons_self, here⟩
    · obtain ⟨other, inside, found⟩ := ih rest later
      exact ⟨other, List.mem_cons_of_mem _ inside, found⟩

theorem forall₂_of_mapM_eq_ok {f : α → Except ε β} {items : List α} {results : List β}
    (run : items.mapM f = .ok results) : List.Forall₂ (fun item result => f item = .ok result) items results := by
  induction items generalizing results with
  | nil =>
    cases run
    exact .nil
  | cons item items ih =>
    rw [List.mapM_cons, bind_eq_ok] at run
    obtain ⟨first, here, run⟩ := run
    obtain ⟨others, rest, done⟩ := bind_eq_ok.mp run
    cases done
    exact .cons here (ih rest)

/-- A run takes in each of its items at some point. -/
theorem exists_of_foldlM_split {f : σ → α → Except ε σ} {before after : List α} {item : α} {start final : σ}
    (run : (before ++ item :: after).foldlM f start = .ok final) :
    ∃ state next, before.foldlM f start = .ok state ∧ f state item = .ok next ∧ after.foldlM f next = .ok final := by
  rw [List.foldlM_append] at run
  obtain ⟨state, first, run⟩ := bind_eq_ok.mp run
  rw [List.foldlM_cons] at run
  obtain ⟨next, here, last⟩ := bind_eq_ok.mp run
  exact ⟨state, next, first, here, last⟩

/-- A run that passes a check of every item is a run of what comes after the checks. -/
theorem foldlM_guarded {p : α → Prop} [DecidablePred p] {f : σ → α → Except ε σ} {error : α → ε}
    {items : List α} {start final : σ} :
    items.foldlM (fun state item => if p item then f state item else .error (error item)) start = .ok final ↔
      (∀ item ∈ items, p item) ∧ items.foldlM f start = .ok final := by
  induction items generalizing start with
  | nil => simp
  | cons item items ih =>
    rw [List.foldlM_cons, List.foldlM_cons, bind_eq_ok, bind_eq_ok, List.forall_mem_cons]
    by_cases passed : p item
    · simp only [if_pos passed, ih]
      constructor
      · rintro ⟨next, first, others, run⟩
        exact ⟨⟨passed, others⟩, next, first, run⟩
      · rintro ⟨⟨_, others⟩, next, first, run⟩
        exact ⟨next, first, others, run⟩
    · simp [passed]

/-- A run fails where its first failing step is. -/
theorem foldlM_eq_error {f : σ → α → Except ε σ} {items : List α} {start : σ} {error : ε} :
    items.foldlM f start = .error error ↔
      ∃ done item rest state, items = done ++ item :: rest ∧ done.foldlM f start = .ok state ∧ f state item = .error error := by
  constructor
  · intro run
    induction items generalizing start with
    | nil => cases run
    | cons item items ih =>
      rw [List.foldlM_cons] at run
      cases first : f start item with
      | error failure =>
        rw [first] at run
        cases run
        exact ⟨[], item, items, start, rfl, rfl, first⟩
      | ok next =>
        rw [first] at run
        obtain ⟨done, last, rest, state, rfl, before, failed⟩ := ih run
        refine ⟨item :: done, last, rest, state, rfl, ?_, failed⟩
        rw [List.foldlM_cons, first]
        exact before
  · intro ⟨done, item, rest, state, split, before, failed⟩
    rw [split, List.foldlM_append, before]
    change List.foldlM f state (item :: rest) = .error error
    rw [List.foldlM_cons, failed]
    rfl

/-- A run fails only if a step does. What is kept may mention the items that were taken in. -/
theorem exists_foldlM {f : σ → α → Except ε σ} {items : List α} {start : σ} (motive : List α → σ → Prop)
    (initial : motive [] start)
    (step : ∀ done item rest state, items = done ++ item :: rest → motive done state →
      ∃ next, f state item = .ok next ∧ motive (done ++ [item]) next) :
    ∃ final, items.foldlM f start = .ok final ∧ motive items final := by
  have general : ∀ rest done state, items = done ++ rest → motive done state →
      ∃ final, rest.foldlM f state = .ok final ∧ motive items final := by
    intro rest
    induction rest with
    | nil =>
      intro done state split holds
      rw [List.append_nil] at split
      exact ⟨state, rfl, split ▸ holds⟩
    | cons item rest ih =>
      intro done state split holds
      obtain ⟨next, first, kept⟩ := step done item rest state split holds
      obtain ⟨final, others, last⟩ := ih (done ++ [item]) next (by simpa using split) kept
      exact ⟨final, by rw [List.foldlM_cons, bind_eq_ok]; exact ⟨next, first, others⟩, last⟩
  exact general items [] start rfl initial

/-- What holds at the start and is kept by every step of a run holds at its end. The statement may
mention the items that were taken in, and a step may know those that are still to come. -/
theorem foldlM_invariant_of_split {f : σ → α → Except ε σ} {items : List α} {start final : σ}
    (motive : List α → σ → Prop) (initial : motive [] start)
    (step : ∀ done item rest state next, items = done ++ item :: rest → motive done state →
      f state item = .ok next → motive (done ++ [item]) next)
    (run : items.foldlM f start = .ok final) : motive items final := by
  have general : ∀ rest done state, items = done ++ rest → motive done state →
      rest.foldlM f state = .ok final → motive items final := by
    intro rest
    induction rest with
    | nil =>
      intro done state split holds finished
      cases finished
      rwa [split, List.append_nil]
    | cons item rest ih =>
      intro done state split holds run
      rw [List.foldlM_cons, bind_eq_ok] at run
      obtain ⟨next, first, others⟩ := run
      exact ih (done ++ [item]) next (by simpa using split) (step done item rest state next split holds first) others
  exact general items [] start rfl initial run

theorem foldlM_invariant {f : σ → α → Except ε σ} {items : List α} {start final : σ}
    (motive : List α → σ → Prop) (initial : motive [] start)
    (step : ∀ done item state next, item ∈ items → motive done state → f state item = .ok next →
      motive (done ++ [item]) next)
    (run : items.foldlM f start = .ok final) : motive items final := by
  refine foldlM_invariant_of_split motive initial (fun done item rest state next split holds first => ?_) run
  have member : item ∈ items := by
    rw [split]
    exact List.mem_append_right _ List.mem_cons_self
  exact step done item state next member holds first

/-- Two ways to take a step lead to one result if they agree on the states that are met. -/
theorem foldlM_congr_of_split {f g : σ → α → Except ε σ} {items : List α} {start : σ} (motive : List α → σ → Prop)
    (initial : motive [] start)
    (step : ∀ done item rest state, items = done ++ item :: rest → motive done state →
      f state item = g state item ∧ ∀ next, f state item = .ok next → motive (done ++ [item]) next) :
    items.foldlM f start = items.foldlM g start := by
  have general : ∀ rest done state, items = done ++ rest → motive done state → rest.foldlM f state = rest.foldlM g state := by
    intro rest
    induction rest with
    | nil => exact fun _ _ _ _ => rfl
    | cons item rest ih =>
      intro done state split holds
      obtain ⟨same, keeps⟩ := step done item rest state split holds
      rw [List.foldlM_cons, List.foldlM_cons, ← same]
      cases first : f state item with
      | error error => rfl
      | ok next => exact ih (done ++ [item]) next (by simpa using split) (keeps next first)
  exact general items [] start rfl initial

/-- A run that may fail, but not with such an error. -/
def Avoids (bad : ε → Prop) (run : Except ε α) : Prop := ∀ error, run = .error error → ¬ bad error

section

variable {bad : ε → Prop}

theorem avoids_ok (value : α) : Avoids bad (.ok value : Except ε α) := nofun

theorem avoids_error {error : ε} (good : ¬ bad error) : Avoids bad (.error error : Except ε α) := by
  rintro _ ⟨⟩
  exact good

theorem Avoids.bind {run : Except ε α} {next : α → Except ε β} (first : Avoids bad run)
    (later : ∀ value, run = .ok value → Avoids bad (next value)) : Avoids bad (run >>= next) := by
  cases outcome : run with
  | error error =>
    rintro _ ⟨⟩
    exact first error outcome
  | ok value => exact later value outcome

theorem Avoids.mapM {f : α → Except ε β} {items : List α} (each : ∀ item ∈ items, Avoids bad (f item)) :
    Avoids bad (items.mapM f) := by
  induction items with
  | nil => exact avoids_ok []
  | cons item items ih =>
    obtain ⟨here, others⟩ := List.forall_mem_cons.mp each
    rw [List.mapM_cons]
    exact here.bind fun _ _ => (ih others).bind fun _ _ => avoids_ok _

/-- What every step of a run avoids is avoided by the run. -/
theorem avoids_foldlM {f : σ → α → Except ε σ} {items : List α} {start : σ} (motive : List α → σ → Prop)
    (initial : motive [] start)
    (step : ∀ done item rest state, items = done ++ item :: rest → motive done state →
      Avoids bad (f state item) ∧ ∀ next, f state item = .ok next → motive (done ++ [item]) next) :
    Avoids bad (items.foldlM f start) := by
  have general : ∀ rest done state, items = done ++ rest → motive done state → Avoids bad (rest.foldlM f state) := by
    intro rest
    induction rest with
    | nil => exact fun _ state _ _ => avoids_ok state
    | cons item rest ih =>
      intro done state split holds
      obtain ⟨avoids, keeps⟩ := step done item rest state split holds
      rw [List.foldlM_cons]
      exact avoids.bind fun next first => ih (done ++ [item]) next (by simpa using split) (keeps next first)
  exact general items [] start rfl initial

theorem Avoids.foldlM {f : σ → α → Except ε σ} {items : List α}
    (each : ∀ item ∈ items, ∀ state, Avoids bad (f state item)) (start : σ) : Avoids bad (items.foldlM f start) := by
  refine avoids_foldlM (fun _ _ => True) trivial fun done item rest state split _ => ?_
  refine ⟨each item ?_ state, fun _ _ => trivial⟩
  rw [split]
  exact List.mem_append_right _ List.mem_cons_self

end

/-- Two runs whose results are related if both succeed. -/
def Agrees {γ : Type} (related : α → γ → Prop) (run : Except ε α) (other : Except ε γ) : Prop :=
  ∀ value otherValue, run = .ok value → other = .ok otherValue → related value otherValue

section

variable {γ δ τ : Type} {related : α → γ → Prop} {kept : σ → τ → Prop}

theorem Agrees.refl (run : Except ε α) : Agrees Eq run run :=
  fun _ _ first second => Except.ok.inj (first.symm.trans second)

theorem agrees_ok {value : α} {other : γ} (holds : related value other) :
    Agrees related (.ok value : Except ε α) (.ok other) := by
  rintro _ _ ⟨⟩ ⟨⟩
  exact holds

theorem agrees_of_error {error : ε} {other : Except ε γ} : Agrees related (.error error) other := nofun

theorem Agrees.bind {result : β → δ → Prop} {run : Except ε α} {other : Except ε γ} {next : α → Except ε β}
    {otherNext : γ → Except ε δ} (first : Agrees related run other)
    (later : ∀ value otherValue, related value otherValue → Agrees result (next value) (otherNext otherValue)) :
    Agrees result (run >>= next) (other >>= otherNext) := by
  intro value otherValue done otherDone
  obtain ⟨middle, here, rest⟩ := bind_eq_ok.mp done
  obtain ⟨otherMiddle, otherHere, otherRest⟩ := bind_eq_ok.mp otherDone
  exact later _ _ (first _ _ here otherHere) _ _ rest otherRest

/-- What both runs take in may differ item by item. -/
theorem Agrees.foldlM {alike : α → γ → Prop} {f : σ → α → Except ε σ} {g : τ → γ → Except ε τ} {items : List α}
    {others : List γ} (paired : List.Forall₂ alike items others)
    (step : ∀ item other, item ∈ items → alike item other → ∀ state otherState, kept state otherState →
      Agrees kept (f state item) (g otherState other)) {start : σ} {otherStart : τ} (initial : kept start otherStart) :
    Agrees kept (items.foldlM f start) (others.foldlM g otherStart) := by
  induction paired generalizing start otherStart with
  | nil => exact agrees_ok initial
  | cons pair _ ih =>
    rw [List.foldlM_cons, List.foldlM_cons]
    refine (step _ _ List.mem_cons_self pair _ _ initial).bind fun next otherNext holds => ?_
    refine ih (fun item other inside => ?_) holds
    exact step item other (List.mem_cons_of_mem _ inside)

end

/-- Errors need not be told apart. -/
def AnyError (_ _ : ε) : Prop := True

instance : Std.Refl (AnyError : ε → ε → Prop) := ⟨fun _ => trivial⟩

/-- Two runs that end alike: with related results if they succeed, and with errors that are told apart no more than is
wanted if they fail. -/
inductive Matches {γ : Type} (failing : ε → ε → Prop) (related : α → γ → Prop) : Except ε α → Except ε γ → Prop
  | ok {value : α} {other : γ} (holds : related value other) : Matches failing related (.ok value) (.ok other)
  | error {error other : ε} (holds : failing error other) : Matches failing related (.error error) (.error other)

namespace Matches

variable {γ δ τ : Type} {failing : ε → ε → Prop} {related : α → γ → Prop} {run : Except ε α} {other : Except ε γ}

theorem refl (failing : ε → ε → Prop) [Std.Refl failing] (run : Except ε α) : Matches failing Eq run run := by
  cases run with
  | error error => exact .error (Std.Refl.refl error)
  | ok value => exact .ok rfl

theorem eq {run other : Except ε α} (same : Matches Eq Eq run other) : run = other := by
  cases same with
  | ok holds => rw [holds]
  | error holds => rw [holds]

theorem ok_iff {run other : Except ε α} (both : Matches failing Eq run other) {value : α} :
    run = .ok value ↔ other = .ok value := by
  cases both with
  | ok holds => rw [holds]
  | error => exact iff_of_false nofun nofun

theorem agrees (both : Matches failing related run other) : Agrees related run other := by
  cases both with
  | ok holds => exact agrees_ok holds
  | error => exact agrees_of_error

theorem exists_related {value : α} {other : Except ε γ} (both : Matches failing related (.ok value) other) :
    ∃ another, other = .ok another ∧ related value another := by
  cases both with
  | ok holds => exact ⟨_, rfl, holds⟩

theorem mono {weaker : α → γ → Prop} (both : Matches failing related run other)
    (weaken : ∀ value other, related value other → weaker value other) : Matches failing weaker run other := by
  cases both with
  | ok holds => exact .ok (weaken _ _ holds)
  | error holds => exact .error holds

/-- The runs may be remembered. -/
theorem remember (both : Matches failing related run other) :
    Matches failing (fun value another => related value another ∧ run = .ok value ∧ other = .ok another) run other := by
  cases both with
  | ok holds => exact .ok ⟨holds, rfl, rfl⟩
  | error holds => exact .error holds

theorem bind {result : β → δ → Prop} {next : α → Except ε β} {otherNext : γ → Except ε δ}
    (first : Matches failing related run other)
    (later : ∀ value otherValue, related value otherValue → Matches failing result (next value) (otherNext otherValue)) :
    Matches failing result (run >>= next) (other >>= otherNext) := by
  cases first with
  | ok holds => exact later _ _ holds
  | error holds => exact .error holds

/-- A step that both runs take. -/
theorem bind_same [Std.Refl failing] {result : β → δ → Prop} (run : Except ε α) {next : α → Except ε β}
    {otherNext : α → Except ε δ} (later : ∀ value, Matches failing result (next value) (otherNext value)) :
    Matches failing result (run >>= next) (run >>= otherNext) :=
  (refl failing run).bind fun value _ same => same ▸ later value

/-- What both runs take in may differ item by item. -/
theorem foldlM_map {kept : σ → τ → Prop} {f : σ → α → Except ε σ} {g : τ → γ → Except ε τ} {items : List α}
    {change : α → γ}
    (step : ∀ item ∈ items, ∀ state otherState, kept state otherState →
      Matches failing kept (f state item) (g otherState (change item)))
    {start : σ} {otherStart : τ} (initial : kept start otherStart) :
    Matches failing kept (items.foldlM f start) ((items.map change).foldlM g otherStart) := by
  induction items generalizing start otherStart with
  | nil => exact .ok initial
  | cons item items ih =>
    obtain ⟨first, others⟩ := List.forall_mem_cons.mp step
    rw [List.map_cons, List.foldlM_cons, List.foldlM_cons]
    exact (first _ _ initial).bind fun _ _ holds => ih others holds

theorem foldlM {kept : σ → τ → Prop} {f : σ → α → Except ε σ} {g : τ → α → Except ε τ} {items : List α}
    (step : ∀ item ∈ items, ∀ state otherState, kept state otherState →
      Matches failing kept (f state item) (g otherState item))
    {start : σ} {otherStart : τ} (initial : kept start otherStart) :
    Matches failing kept (items.foldlM f start) (items.foldlM g otherStart) := by
  have both : Matches failing kept (items.foldlM f start) ((items.map id).foldlM g otherStart) := foldlM_map step initial
  rwa [List.map_id] at both

end Matches

end TypedTree.ListEffects
