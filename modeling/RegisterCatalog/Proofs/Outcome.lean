import Mathlib.Data.List.Forall2

/-! Computations that end with a result or with a fault. A result of a sequence of computations has a
result of each of them behind it. -/

namespace RegisterCatalog.Outcome

theorem bind_eq_ok {outcome : Except ε α} {next : α → Except ε β} {result : β} :
    outcome >>= next = .ok result ↔ ∃ value, outcome = .ok value ∧ next value = .ok result := by
  constructor
  · intro done
    cases outcome with
    | error fault => cases done
    | ok value => exact ⟨value, rfl, done⟩
  · intro computed
    obtain ⟨value, rfl, done⟩ := computed
    exact done

theorem bind_eq_error {outcome : Except ε α} {next : α → Except ε β} {fault : ε} :
    outcome >>= next = .error fault ↔
      outcome = .error fault ∨ ∃ value, outcome = .ok value ∧ next value = .error fault := by
  cases outcome with
  | error other =>
    change Except.error other = .error fault ↔ _
    simp
  | ok value =>
    change next value = .error fault ↔ _
    simp

theorem mapError_eq_ok {outcome : Except ε α} {locate : ε → ε'} {result : α}
    (done : outcome.mapError locate = .ok result) : outcome = .ok result := by
  cases outcome with
  | error fault => cases done
  | ok value => cases done; rfl

theorem toOption_eq_some {outcome : Except ε α} {result : α} :
    outcome.toOption = some result ↔ outcome = .ok result := by
  cases outcome <;> simp [Except.toOption]

/-- What every step keeps holds at the end of a run that reaches its end. -/
theorem foldlM_invariant {step : σ → α → Except ε σ} (invariant : σ → Prop)
    (kept : ∀ before item after, invariant before → step before item = .ok after → invariant after)
    {items : List α} {start final : σ} (valid : invariant start)
    (done : items.foldlM step start = .ok final) : invariant final := by
  induction items generalizing start with
  | nil =>
    cases done
    exact valid
  | cons item rest ih =>
    rw [List.foldlM_cons, bind_eq_ok] at done
    obtain ⟨middle, moved, done⟩ := done
    exact ih (kept _ _ _ valid moved) done

/-- A run that fails has reached the item at which it fails. -/
theorem foldlM_eq_error {step : σ → α → Except ε σ} {items : List α} {start : σ} {fault : ε}
    (failed : items.foldlM step start = .error fault) :
    ∃ before item after state, items = before ++ item :: after ∧ before.foldlM step start = .ok state ∧
      step state item = .error fault := by
  induction items generalizing start with
  | nil => cases failed
  | cons item rest ih =>
    rw [List.foldlM_cons, bind_eq_error] at failed
    rcases failed with here | ⟨next, moved, later⟩
    · exact ⟨[], item, rest, start, rfl, rfl, here⟩
    · obtain ⟨before, other, after, state, rfl, reached, stopped⟩ := ih later
      refine ⟨item :: before, other, after, state, rfl, ?_, stopped⟩
      rw [List.foldlM_cons, moved]
      exact reached

/-- A view of the states that every step respects is respected by the whole run. -/
theorem foldlM_view {step : σ → α → Except ε σ} {seen : τ → α → Except ε τ} {view : σ → τ}
    (respected : ∀ state item, seen (view state) item = (step state item).map view) (items : List α) (start : σ) :
    items.foldlM seen (view start) = (items.foldlM step start).map view := by
  induction items generalizing start with
  | nil => rfl
  | cons item rest ih =>
    rw [List.foldlM_cons, List.foldlM_cons, respected]
    cases step start item with
    | error fault => rfl
    | ok next => exact ih next

/-- Two steps with the same outcome in either order, as far as they succeed. -/
def Commuting (step : σ → α → Except ε σ) (first second : α) : Prop :=
  ∀ start final, step start first >>= (step · second) = .ok final ↔ step start second >>= (step · first) = .ok final

theorem foldlM_cons_eq_ok {step : σ → α → Except ε σ} {item : α} {rest : List α} {start final : σ} :
    (item :: rest).foldlM step start = .ok final ↔ ∃ next, step start item = .ok next ∧ rest.foldlM step next = .ok final := by
  rw [List.foldlM_cons, bind_eq_ok]

theorem foldlM_advance {step : σ → α → Except ε σ} {item : α} {before after : List α} {start final : σ}
    (commute : ∀ other ∈ before, Commuting step other item) :
    (before ++ item :: after).foldlM step start = .ok final ↔ (item :: (before ++ after)).foldlM step start = .ok final := by
  induction before generalizing start with
  | nil => rfl
  | cons other rest ih =>
    rw [List.forall_mem_cons] at commute
    calc (other :: rest ++ item :: after).foldlM step start = .ok final
      _ ↔ ∃ next, step start other = .ok next ∧ (item :: (rest ++ after)).foldlM step next = .ok final := by
        rw [List.cons_append, foldlM_cons_eq_ok]
        simp only [ih commute.2]
      _ ↔ ∃ later, step start other >>= (step · item) = .ok later ∧ (rest ++ after).foldlM step later = .ok final := by
        simp only [foldlM_cons_eq_ok, bind_eq_ok]
        grind
      _ ↔ ∃ later, step start item >>= (step · other) = .ok later ∧ (rest ++ after).foldlM step later = .ok final := by
        simp only [commute.1 start]
      _ ↔ (item :: (other :: rest ++ after)).foldlM step start = .ok final := by
        simp only [List.cons_append, foldlM_cons_eq_ok, bind_eq_ok]
        grind

/-- Steps of different kinds commute, so runs with the same steps of every kind end alike. -/
theorem foldlM_reorder [DecidableEq κ] {step : σ → α → Except ε σ} {kind : α → κ} {one two : List α} {start final : σ}
    (commute : ∀ first second, kind first ≠ kind second → Commuting step first second)
    (same : ∀ key, one.filter (kind · = key) = two.filter (kind · = key)) :
    one.foldlM step start = .ok final ↔ two.foldlM step start = .ok final := by
  induction one generalizing two start with
  | nil =>
    cases two with
    | nil => rfl
    | cons item rest =>
      have impossible := same (kind item)
      simp at impossible
  | cons item rest ih =>
    have own : two.filter (kind · = kind item) = item :: rest.filter (kind · = kind item) := by
      rw [← same]
      simp
    obtain ⟨before, after, rfl, others, _, later⟩ := List.filter_eq_cons_iff.mp own
    have remaining : ∀ key, rest.filter (kind · = key) = (before ++ after).filter (kind · = key) := by
      intro key
      by_cases here : kind item = key
      · subst here
        have none : before.filter (kind · = kind item) = [] := List.filter_eq_nil_iff.mpr others
        rw [List.filter_append, none, later, List.nil_append]
      · have whole := same key
        simp only [List.filter_append, List.filter_cons, here, decide_false, Bool.false_eq_true, if_false] at whole
        rw [whole, List.filter_append]
    have apart : ∀ other ∈ before, Commuting step other item := by
      intro other member
      exact commute other item (by simpa using others other member)
    rw [foldlM_advance apart, foldlM_cons_eq_ok, foldlM_cons_eq_ok]
    simp only [ih remaining]

theorem map_eq_map {one : Except ε α} {two : Except ε β} {f : α → γ} {g : β → γ} (same : one.map f = two.map g) :
    (∃ fault, one = .error fault ∧ two = .error fault) ∨
      ∃ first second, one = .ok first ∧ two = .ok second ∧ f first = g second := by
  cases one with
  | error fault =>
    cases two with
    | error other => exact .inl ⟨fault, rfl, by rw [Except.error.inj same]⟩
    | ok second => cases same
  | ok first =>
    cases two with
    | error other => cases same
    | ok second => exact .inr ⟨first, second, rfl, rfl, Except.ok.inj same⟩

/-- Every fault that the computation can end with is of a kind. -/
def Fails (kind : ε → Prop) (outcome : Except ε α) : Prop := ∀ fault, outcome = .error fault → kind fault

theorem fails_ok {kind : ε → Prop} (value : α) : Fails kind (.ok value : Except ε α) := by
  rintro fault ⟨⟩

theorem fails_error {kind : ε → Prop} {fault : ε} (allowed : kind fault) : Fails kind (.error fault : Except ε α) := by
  rintro other ⟨⟩
  exact allowed

theorem Fails.bind {kind : ε → Prop} {outcome : Except ε α} {next : α → Except ε β} (first : Fails kind outcome)
    (rest : ∀ value, Fails kind (next value)) : Fails kind (outcome >>= next) := by
  intro fault failed
  rcases bind_eq_error.mp failed with here | ⟨value, _, later⟩
  · exact first fault here
  · exact rest value fault later

theorem mapM_eq_ok {step : α → Except ε β} {items : List α} {results : List β} :
    items.mapM step = .ok results ↔ List.Forall₂ (fun item result => step item = .ok result) items results := by
  induction items generalizing results with
  | nil =>
    constructor
    · intro done
      cases done
      exact .nil
    · intro related
      cases related
      rfl
  | cons item rest ih =>
    rw [List.mapM_cons, bind_eq_ok]
    constructor
    · intro sequence
      obtain ⟨first, computed, done⟩ := sequence
      obtain ⟨others, later, done⟩ := bind_eq_ok.mp done
      cases done
      exact .cons computed (ih.mp later)
    · intro related
      cases related with
      | cons computed later => exact ⟨_, computed, bind_eq_ok.mpr ⟨_, ih.mpr later, rfl⟩⟩

theorem exists_item_of_mem {step : α → Except ε β} {items : List α} {results : List β}
    (computed : List.Forall₂ (fun item result => step item = .ok result) items results) {result : β}
    (member : result ∈ results) : ∃ item ∈ items, step item = .ok result := by
  induction computed with
  | nil => cases member
  | cons first _ ih =>
    rcases List.mem_cons.mp member with rfl | later
    · exact ⟨_, List.mem_cons_self, first⟩
    · obtain ⟨item, inside, made⟩ := ih later
      exact ⟨item, List.mem_cons_of_mem _ inside, made⟩

theorem exists_result_of_mem {step : α → Except ε β} {items : List α} {results : List β}
    (computed : List.Forall₂ (fun item result => step item = .ok result) items results) {item : α}
    (member : item ∈ items) : ∃ result ∈ results, step item = .ok result := by
  induction computed with
  | nil => cases member
  | cons first _ ih =>
    rcases List.mem_cons.mp member with rfl | later
    · exact ⟨_, List.mem_cons_self, first⟩
    · obtain ⟨result, inside, made⟩ := ih later
      exact ⟨result, List.mem_cons_of_mem _ inside, made⟩

/-- Whether some result is of a kind shows in the items already. -/
theorem exists_mapM_iff {step : α → Except ε β} {items : List α} {results : List β} {good : β → Prop}
    {promising : α → Prop} (done : items.mapM step = .ok results)
    (same : ∀ item result, step item = .ok result → (good result ↔ promising item)) :
    (∃ result ∈ results, good result) ↔ ∃ item ∈ items, promising item := by
  rw [mapM_eq_ok] at done
  induction done with
  | nil => simp
  | cons computed _ ih => simp only [List.exists_mem_cons_iff, same _ _ computed, ih]

end RegisterCatalog.Outcome
