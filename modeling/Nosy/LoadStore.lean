/-! Containers a `Cell` keeps its value in. Each operation is one atomic access,
or runs under one lock. -/

namespace Nosy

/-- Rust's `Result<old, new>` is `Except new old`. The laws are the documented
contract of the trait, for any equality of the values. -/
class LoadStore (S : Type) (V : outParam Type) where
  new : V → S
  get : S → V
  replace : V → S → V × S
  replaceIfUnequal : V → S → Except V V × S
  get_new : ∀ value, get (new value) = value
  replace_old : ∀ value container, (replace value container).1 = get container
  replace_get : ∀ value container, get (replace value container).2 = value
  replaced : ∀ {value container old after}, replaceIfUnequal value container = (.ok old, after) →
    old = get container ∧ get after = value
  kept : ∀ {value container unused after}, replaceIfUnequal value container = (.error unused, after) →
    unused = value ∧ get after = get container

/-- `cell::Cell`, `RefCell`, `Mutex` and `RwLock`: compare, then replace. -/
structure Lock (V : Type) where
  value : V
deriving DecidableEq, Repr

def Lock.replaceIfUnequal {V : Type} [BEq V] (newValue : V) (lock : Lock V) : Except V V × Lock V :=
  if newValue == lock.value then (.error newValue, lock) else (.ok lock.value, ⟨newValue⟩)

/-- An equality that is not reflexive, or holds between different values, is no
obstacle: what compares equal is not stored. -/
instance {V : Type} [BEq V] : LoadStore (Lock V) V where
  new := .mk
  get := (·.value)
  replace newValue lock := (lock.value, ⟨newValue⟩)
  replaceIfUnequal := Lock.replaceIfUnequal
  get_new _ := rfl
  replace_old _ _ := rfl
  replace_get _ _ := rfl
  replaced result := by
    unfold Lock.replaceIfUnequal at result
    split at result
    · cases result
    · cases result
      exact ⟨rfl, rfl⟩
  kept result := by
    unfold Lock.replaceIfUnequal at result
    split at result
    · cases result
      exact ⟨rfl, rfl⟩
    · cases result

/-- The atomic types: swap, then compare. -/
structure Atomic (V : Type) where
  value : V
deriving DecidableEq, Repr

def Atomic.replaceIfUnequal {V : Type} [BEq V] (newValue : V) (atomic : Atomic V) : Except V V × Atomic V :=
  let (oldValue, after) := (atomic.value, Atomic.mk newValue)
  if oldValue == newValue then (.error newValue, after) else (.ok oldValue, after)

/-- The new value is stored in either case, so equality must mean sameness, as it
does for integers and booleans. -/
instance {V : Type} [BEq V] [LawfulBEq V] : LoadStore (Atomic V) V where
  new := .mk
  get := (·.value)
  replace newValue atomic := (atomic.value, ⟨newValue⟩)
  replaceIfUnequal := Atomic.replaceIfUnequal
  get_new _ := rfl
  replace_old _ _ := rfl
  replace_get _ _ := rfl
  replaced result := by
    simp only [Atomic.replaceIfUnequal] at result
    split at result
    · cases result
    · cases result
      exact ⟨rfl, rfl⟩
  kept result := by
    simp only [Atomic.replaceIfUnequal] at result
    split at result
    next same =>
      cases result
      exact ⟨rfl, (eq_of_beq same).symm⟩
    · cases result

end Nosy
