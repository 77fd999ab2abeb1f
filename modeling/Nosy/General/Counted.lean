import Mathlib.Data.Finset.Card

/-! A value kept by counted references and destroyed with the last of them. Whoever
has only a weak one gets another as long as one is left. -/

universe u v

structure Counted (α : Type u) where
  strong : Nat
  /-- `none` once it was destroyed. -/
  value : Option α

namespace Counted
variable {α : Type u} {η : Type v} {counted after : Counted α} {holders : Finset η} {holder : η}

def new (value : α) : Counted α := ⟨1, some value⟩

/-- `none` if no reference is left. -/
def upgrade (counted : Counted α) : Option (Counted α) :=
  if counted.strong = 0 then none else some { counted with strong := counted.strong + 1 }

/-- One reference is dropped. -/
def release (counted : Counted α) : Counted α where
  strong := counted.strong - 1
  value := if counted.strong ≤ 1 then none else counted.value

def put (value : α) (counted : Counted α) : Counted α := { counted with value := some value }

/-- Each holder has one reference, and there are no others. -/
structure Agrees (counted : Counted α) (holders : Finset η) : Prop where
  strong : counted.strong = holders.card
  kept : counted.value.isSome ↔ holders.Nonempty

theorem Agrees.new (value : α) : (Counted.new value).Agrees {holder} := by
  constructor <;> simp [Counted.new]

theorem Agrees.destroyed (agrees : counted.Agrees holders) : counted.value = none ↔ holders = ∅ := by
  rw [← Option.not_isSome_iff_eq_none, agrees.kept, Finset.not_nonempty_iff_eq_empty]

theorem Agrees.put {value : α} (agrees : counted.Agrees holders) (kept : counted.value.isSome) :
    (counted.put value).Agrees holders := by
  constructor
  · exact agrees.strong
  · simpa [Counted.put, agrees.kept] using kept

theorem Agrees.upgrade_none (agrees : counted.Agrees holders) : counted.upgrade = none ↔ holders = ∅ := by
  simp [Counted.upgrade, agrees.strong]

theorem upgrade_some (upgraded : counted.upgrade = some after) :
    counted.strong ≠ 0 ∧ after = { counted with strong := counted.strong + 1 } := by
  unfold upgrade at upgraded
  split at upgraded
  · cases upgraded
  next left =>
    cases upgraded
    exact ⟨left, rfl⟩

variable [DecidableEq η]

theorem Agrees.upgrade (agrees : counted.Agrees holders) (upgraded : counted.upgrade = some after)
    (fresh : holder ∉ holders) : after.Agrees (insert holder holders) := by
  obtain ⟨left, rfl⟩ := upgrade_some upgraded
  constructor
  · rw [Finset.card_insert_of_notMem fresh, agrees.strong]
  · have held : holders.Nonempty := by
      rw [← Finset.card_pos, ← agrees.strong]
      exact Nat.pos_of_ne_zero left
    simp [agrees.kept, held]

theorem Agrees.release (agrees : counted.Agrees holders) (member : holder ∈ holders) :
    counted.release.Agrees (holders.erase holder) := by
  have count := Finset.card_erase_of_mem member
  constructor
  · simp [Counted.release, count, agrees.strong]
  · rw [← Finset.card_pos, count, ← agrees.strong]
    simp only [Counted.release]
    split
    next last => simp [Nat.sub_eq_zero_of_le last]
    next more =>
      have held : holders.Nonempty := ⟨holder, member⟩
      simp [agrees.kept, held]
      omega

end Counted
