import Mathlib.Data.List.TakeWhile

/-!
# Spans of a list

Where the longest part of a list that a test keeps ends.
-/

namespace Formula

variable {α : Type} {keeps : α → Bool} {front back : List α}

theorem takeWhile_append_stop (all : ∀ item ∈ front, keeps item = true)
    (stops : ∀ item ∈ back.head?, keeps item = false) :
    (front ++ back).takeWhile keeps = front := by
  rw [List.takeWhile_append_of_pos all]
  cases back with
  | nil => simp
  | cons item back => simp [stops item rfl]

theorem dropWhile_append_stop (all : ∀ item ∈ front, keeps item = true)
    (stops : ∀ item ∈ back.head?, keeps item = false) :
    (front ++ back).dropWhile keeps = back := by
  rw [List.dropWhile_append_of_pos all]
  cases back with
  | nil => rfl
  | cons item back => simp [stops item rfl]

/-- What stands behind an item that stops a span does not change the span. -/
theorem takeWhile_append_cons_stop {item : α} (stops : keeps item = false) :
    (front ++ item :: back).takeWhile keeps = front.takeWhile keeps := by
  induction front with
  | nil => simp [stops]
  | cons first front induction => simp [List.takeWhile_cons, induction]

theorem dropWhile_append_cons_stop {item : α} (stops : keeps item = false) :
    (front ++ item :: back).dropWhile keeps =
      front.dropWhile keeps ++ item :: back := by
  induction front with
  | nil => simp [stops]
  | cons first front induction =>
      cases kept : keeps first <;> simp [kept, induction]

theorem head?_dropWhile_stops (keeps : α → Bool) (list : List α) :
    ∀ item ∈ (list.dropWhile keeps).head?, keeps item = false := by
  intro item member
  have stops := List.head?_dropWhile_not keeps list
  rw [Option.mem_def.mp member] at stops
  exact stops

end Formula
