/-!
# Sequencing of outcomes

Simplification rules for computations that may end in an error: a value is
handed on, and the first error ends the whole.
-/

namespace Formula

variable {ε α β : Type}

@[simp] theorem ok_bind (value : α) (next : α → Except ε β) :
    (Except.ok value >>= next) = next value :=
  rfl

@[simp] theorem error_bind (error : ε) (next : α → Except ε β) :
    (Except.error error >>= next) = .error error :=
  rfl

@[simp] theorem pure_eq_ok (value : α) :
    (pure value : Except ε α) = .ok value :=
  rfl

@[simp] theorem throw_eq_error (error : ε) :
    (throw error : Except ε α) = .error error :=
  rfl

theorem map_eq_ok_iff {outcome : Except ε α} {next : α → β} {result : β} :
    outcome.map next = .ok result ↔
      ∃ value, outcome = .ok value ∧ next value = result := by
  constructor
  · intro mapped
    cases outcome with
    | error error => cases mapped
    | ok value =>
        cases mapped
        exact ⟨value, rfl, rfl⟩
  · rintro ⟨value, rfl, rfl⟩
    rfl

/-- A run over a list succeeds if its first step and the run from there do. -/
theorem foldlM_cons_eq_ok_iff {step : β → α → Except ε β} {start final : β}
    {item : α} {items : List α} :
    (item :: items).foldlM step start = .ok final ↔
      ∃ middle, step start item = .ok middle ∧
        items.foldlM step middle = .ok final := by
  rw [List.foldlM_cons]
  cases step start item with
  | error error => simp
  | ok middle => simp

/-- A run over a list fails at the first item at which a step fails. -/
theorem exists_of_foldlM_eq_error {step : β → α → Except ε β} {start : β}
    {items : List α} {error : ε}
    (failed : items.foldlM step start = .error error) :
    ∃ front item back middle, items = front ++ item :: back ∧
      front.foldlM step start = .ok middle ∧
        step middle item = .error error := by
  induction items generalizing start with
  | nil => cases failed
  | cons item items induction =>
      rw [List.foldlM_cons] at failed
      cases first : step start item with
      | error firstError =>
          rw [first, error_bind] at failed
          cases failed
          exact ⟨[], item, items, start, rfl, rfl, first⟩
      | ok second =>
          rw [first, ok_bind] at failed
          obtain ⟨front, last, back, middle, rfl, ran, stopped⟩ :=
            induction failed
          exact ⟨item :: front, last, back, middle, rfl,
            foldlM_cons_eq_ok_iff.mpr ⟨second, first, ran⟩, stopped⟩

end Formula
