import TypedRelations.Proofs.Lists

/-!
# Computations that succeed or fail

Every operation of the algebra is a chain of computations in `Except`. The lemmas here take a
successful chain apart into its successful links, and a failed one down to the link that failed, so
that no later proof looks at how `Except` threads an error.
-/

namespace TypedRelations

variable {ε α β : Type}

theorem bind_eq_ok {first : Except ε α} {next : α → Except ε β} {result : β} :
    (first >>= next) = .ok result ↔ ∃ value, first = .ok value ∧ next value = .ok result := by
  cases first with
  | error failure => simp [bind, Except.bind]
  | ok value => simp [bind, Except.bind]

/-- Two links in a row, the second of which may use the result of the first. -/
theorem bind_bind_eq_ok {γ : Type} {first : Except ε α} {second : α → Except ε β}
    {next : α → β → Except ε γ} {result : γ} :
    (first >>= fun value => second value >>= next value) = .ok result ↔
      ∃ value other, first = .ok value ∧ second value = .ok other ∧
        next value other = .ok result := by
  rw [bind_eq_ok]
  constructor
  · intro ⟨value, firstDone, later⟩
    rcases bind_eq_ok.mp later with ⟨other, secondDone, nextDone⟩
    exact ⟨value, other, firstDone, secondDone, nextDone⟩
  · intro ⟨value, other, firstDone, secondDone, nextDone⟩
    exact ⟨value, firstDone, bind_eq_ok.mpr ⟨other, secondDone, nextDone⟩⟩

theorem bind_eq_error {first : Except ε α} {next : α → Except ε β} {failure : ε} :
    (first >>= next) = .error failure ↔
      first = .error failure ∨ ∃ value, first = .ok value ∧ next value = .error failure := by
  cases first with
  | error failure => simp [bind, Except.bind]
  | ok value => simp [bind, Except.bind]

/-- A traversal succeeds with the results of its items, item by item. -/
theorem mapM_eq_ok {step : α → Except ε β} {items : List α} {results : List β} :
    items.mapM step = .ok results ↔
      List.Forall₂ (fun item result => step item = .ok result) items results := by
  induction items generalizing results with
  | nil =>
      rw [List.mapM_nil, List.forall₂_nil_left_iff]
      exact ⟨fun same => (Except.ok.inj same).symm, fun same => congrArg Except.ok same.symm⟩
  | cons item rest ih =>
      rw [List.mapM_cons, List.forall₂_cons_left_iff, bind_eq_ok]
      constructor
      · intro ⟨result, done, later⟩
        rcases bind_eq_ok.mp later with ⟨others, restDone, same⟩
        exact ⟨result, others, done, ih.mp restDone, (Except.ok.inj same).symm⟩
      · rintro ⟨result, others, done, restDone, rfl⟩
        exact ⟨result, done, bind_eq_ok.mpr ⟨others, ih.mpr restDone, rfl⟩⟩

theorem exists_mapM_eq_ok {step : α → Except ε β} {items : List α}
    (succeeds : ∀ item ∈ items, ∃ result, step item = .ok result) :
    ∃ results, items.mapM step = .ok results := by
  induction items with
  | nil => exact ⟨[], List.mapM_nil⟩
  | cons item rest ih =>
      rcases succeeds item List.mem_cons_self with ⟨result, done⟩
      rcases ih fun other member => succeeds other (List.mem_cons_of_mem _ member) with
        ⟨results, restDone⟩
      exact ⟨result :: results, mapM_eq_ok.mpr (.cons done (mapM_eq_ok.mp restDone))⟩

/-- A traversal whose items all succeed succeeds. -/
theorem mapM_eq_ok_map {step : α → Except ε β} {items : List α} {image : α → β}
    (succeeds : ∀ item ∈ items, step item = .ok (image item)) :
    items.mapM step = .ok (items.map image) := by
  rw [mapM_eq_ok, List.forall₂_map_right_iff, List.forall₂_same]
  exact succeeds

/-- A traversal that fails does so on one of its items. -/
theorem exists_of_mapM_eq_error {step : α → Except ε β} {items : List α} {failure : ε}
    (failed : items.mapM step = .error failure) : ∃ item ∈ items, step item = .error failure := by
  induction items with
  | nil => cases failed
  | cons item rest ih =>
      rw [List.mapM_cons, bind_eq_error] at failed
      rcases failed with failed | ⟨result, -, later⟩
      · exact ⟨item, List.mem_cons_self, failed⟩
      · rcases bind_eq_error.mp later with restFailed | ⟨results, -, same⟩
        · obtain ⟨other, member, otherFailed⟩ := ih restFailed
          exact ⟨other, List.mem_cons_of_mem _ member, otherFailed⟩
        · cases same

/-- Changing the results of all items changes the list of results. -/
theorem mapM_map {γ : Type} (step : α → Except ε β) (image : β → γ) (items : List α) :
    (items.mapM fun item => (step item).map image) = (items.mapM step).map (List.map image) := by
  induction items with
  | nil => rfl
  | cons item rest ih =>
      rw [List.mapM_cons, List.mapM_cons, ih]
      cases step item with
      | error error => rfl
      | ok result =>
          cases rest.mapM step with
          | error error => rfl
          | ok results => rfl

/-- If a computation fails, then with one of the allowed failures. -/
def FailsOnly (allowed : ε → Prop) (computation : Except ε α) : Prop :=
  ∀ failure, computation = .error failure → allowed failure

namespace FailsOnly

variable {allowed : ε → Prop}

theorem ok (value : α) : FailsOnly allowed (.ok value) := nofun

theorem error {failure : ε} (holds : allowed failure) :
    FailsOnly allowed (.error failure : Except ε α) :=
  fun _ same => Except.error.inj same ▸ holds

theorem bind {first : Except ε α} {next : α → Except ε β} (firstFails : FailsOnly allowed first)
    (nextFails : ∀ value, FailsOnly allowed (next value)) : FailsOnly allowed (first >>= next) := by
  intro failure failed
  rcases bind_eq_error.mp failed with firstFailed | ⟨value, -, nextFailed⟩
  · exact firstFails failure firstFailed
  · exact nextFails value failure nextFailed

theorem mapM {step : α → Except ε β} {items : List α}
    (stepFails : ∀ item ∈ items, FailsOnly allowed (step item)) :
    FailsOnly allowed (items.mapM step) := by
  intro failure failed
  obtain ⟨item, member, itemFailed⟩ := exists_of_mapM_eq_error failed
  exact stepFails item member failure itemFailed

end FailsOnly

end TypedRelations
