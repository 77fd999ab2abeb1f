import Mathlib.Data.List.Basic

/-! A list cut into successive pieces of one size, of which only the last may be
shorter. -/

namespace Chunks

universe u
variable {α : Type u}

def chunks (size : Nat) (items : List α) : List (List α) :=
  (List.range ((items.length + size - 1) / size)).map fun index => (items.drop (index * size)).take size

variable {size : Nat}

@[simp] theorem chunks_nil (positive : 0 < size) : chunks size ([] : List α) = [] := by
  have none : (0 + size - 1) / size = 0 := Nat.div_eq_of_lt (by omega)
  simp only [chunks, List.length_nil, none, List.range_zero, List.map_nil]

theorem chunks_cons (positive : 0 < size) {items : List α} (nonempty : items ≠ []) :
    chunks size items = items.take size :: chunks size (items.drop size) := by
  have stored : 0 < items.length := List.length_pos_of_ne_nil nonempty
  have count : (items.length + size - 1) / size = ((items.drop size).length + size - 1) / size + 1 := by
    rw [List.length_drop]
    by_cases shorter : items.length ≤ size
    · have none : items.length - size + size - 1 = size - 1 := by omega
      have one : items.length + size - 1 = (items.length - 1) + size := by omega
      rw [none, one, Nat.add_div_right _ positive, Nat.div_eq_of_lt (by omega), Nat.div_eq_of_lt (by omega)]
    · have more : items.length + size - 1 = (items.length - size + size - 1) + size := by omega
      rw [more, Nat.add_div_right _ positive]
  simp only [chunks, count, List.range_succ_eq_map, List.map_cons, List.map_map, Nat.zero_mul, List.drop_zero]
  congr 2
  funext index
  simp only [Function.comp_apply, List.drop_drop, Nat.succ_mul, Nat.add_comm]

/-- One piece is cut off after the other. -/
theorem chunks_induction {motive : List α → List (List α) → Prop} (positive : 0 < size) (nil : motive [] [])
    (cons : ∀ items, items ≠ [] → motive (items.drop size) (chunks size (items.drop size)) →
      motive items (items.take size :: chunks size (items.drop size)))
    (items : List α) : motive items (chunks size items) := by
  induction length : items.length using Nat.strongRecOn generalizing items with
  | _ length ih =>
    by_cases empty : items = []
    · subst empty
      rwa [chunks_nil positive]
    · have stored : 0 < items.length := List.length_pos_of_ne_nil empty
      rw [chunks_cons positive empty]
      apply cons items empty
      apply ih (items.drop size).length _ _ rfl
      rw [List.length_drop]
      omega

theorem chunks_flatten (positive : 0 < size) (items : List α) : (chunks size items).flatten = items := by
  apply chunks_induction (motive := fun items pieces => pieces.flatten = items) positive rfl
  intro items _ rest
  rw [List.flatten_cons, rest, List.take_append_drop]

theorem chunks_bounded (positive : 0 < size) (items : List α) :
    ∀ piece ∈ chunks size items, piece ≠ [] ∧ piece.length ≤ size := by
  apply chunks_induction (motive := fun _ pieces => ∀ piece ∈ pieces, piece ≠ [] ∧ piece.length ≤ size) positive
  · intro piece member
    cases member
  · intro items nonempty rest piece member
    rcases List.mem_cons.mp member with rfl | later
    · refine ⟨?_, List.length_take_le ..⟩
      rw [Ne, List.take_eq_nil_iff]
      rintro (none | empty)
      · omega
      · exact nonempty empty
    · exact rest piece later

end Chunks
