import Mathlib.Data.Finset.Basic
import Mathlib.Logic.Function.Basic

/-! A lock that several readers or one writer hold. A request that has to wait is
an acquisition that is not enabled yet. -/

/-- What a holder may do with the protected value. -/
inductive Access where
  | shared
  | exclusive
deriving DecidableEq, Repr

structure SharedLock (τ : Type) where
  readers : Finset τ
  writer : Option τ

namespace SharedLock
variable {τ : Type} {lock after : SharedLock τ} {holds : τ → Option Access} {holder other : τ}

def free : SharedLock τ := ⟨∅, none⟩

/-- The lock is held by exactly those whose position in the program says so, and a
writer holds it alone. -/
structure Agrees (lock : SharedLock τ) (holds : τ → Option Access) : Prop where
  readers : ∀ holder, holder ∈ lock.readers ↔ holds holder = some .shared
  writer : ∀ holder, lock.writer = some holder ↔ holds holder = some .exclusive
  alone : lock.writer ≠ none → lock.readers = ∅

theorem Agrees.free : (free : SharedLock τ).Agrees fun _ => none := by
  constructor <;> simp [SharedLock.free]

/-- Nobody reads while one writes. -/
theorem Agrees.excludes (agrees : lock.Agrees holds) (writing : holds holder = some .exclusive) :
    holds other ≠ some .shared := by
  intro reading
  have held := (agrees.writer holder).mpr writing
  have empty := agrees.alone (by simp [held])
  have member := (agrees.readers other).mpr reading
  simp [empty] at member

/-- While one writes, everyone else is outside. -/
theorem Agrees.others_outside (agrees : lock.Agrees holds) (writing : lock.writer = some holder)
    (different : other ≠ holder) : holds other = none := by
  cases held : holds other with
  | none => rfl
  | some access =>
    cases access with
    | shared => exact absurd held (agrees.excludes ((agrees.writer holder).mp writing))
    | exclusive =>
      have owner := (agrees.writer other).mpr held
      rw [writing] at owner
      exact absurd (Option.some.inj owner).symm different

theorem Agrees.no_writer (agrees : lock.Agrees holds) (reading : holds holder = some .shared) :
    lock.writer = none := by
  cases held : lock.writer with
  | none => rfl
  | some owner => exact absurd reading (agrees.excludes ((agrees.writer owner).mp held))

/-- A writer gets the lock only when everyone is outside. -/
theorem Agrees.outside (agrees : lock.Agrees holds) (nobody : lock.writer = none) (empty : lock.readers = ∅) :
    holds other = none := by
  cases held : holds other with
  | none => rfl
  | some access =>
    cases access with
    | shared => simpa [empty] using (agrees.readers other).mpr held
    | exclusive => simpa [nobody] using (agrees.writer other).mpr held

theorem Agrees.unheld (agrees : lock.Agrees holds) (outside : ∀ holder, holds holder = none) :
    lock = SharedLock.free := by
  have readers : lock.readers = ∅ := by
    apply Finset.eq_empty_of_forall_notMem
    intro holder member
    simpa [outside holder] using (agrees.readers holder).mp member
  have writer : lock.writer = none := by
    apply Option.eq_none_iff_forall_not_mem.mpr
    intro holder member
    simpa [outside holder] using (agrees.writer holder).mp member
  rw [show lock = ⟨lock.readers, lock.writer⟩ from rfl, readers, writer]
  rfl

variable [DecidableEq τ]

/-- The lock as `holder` has it; `none` while a writer holds it. -/
def read (holder : τ) (lock : SharedLock τ) : Option (SharedLock τ) :=
  match lock.writer with
  | none => some { lock with readers := insert holder lock.readers }
  | some _ => none

/-- `none` while anyone holds it. -/
def write (holder : τ) (lock : SharedLock τ) : Option (SharedLock τ) :=
  match lock.writer with
  | none => if lock.readers = ∅ then some { lock with writer := some holder } else none
  | some _ => none

/-- The end of the guard's life, by return or by unwinding. -/
def release (holder : τ) (lock : SharedLock τ) : SharedLock τ where
  readers := lock.readers.erase holder
  writer := if lock.writer = some holder then none else lock.writer

theorem read_some (acquired : lock.read holder = some after) :
    lock.writer = none ∧ after = { lock with readers := insert holder lock.readers } := by
  unfold read at acquired
  split at acquired
  next nobody =>
    cases acquired
    exact ⟨nobody, rfl⟩
  · cases acquired

theorem write_some (acquired : lock.write holder = some after) :
    lock.writer = none ∧ lock.readers = ∅ ∧ after = { lock with writer := some holder } := by
  unfold write at acquired
  split at acquired
  next nobody =>
    split at acquired
    next empty =>
      cases acquired
      exact ⟨nobody, empty, rfl⟩
    · cases acquired
  · cases acquired

/-- Whoever has to wait finds somebody inside. -/
theorem Agrees.occupied (agrees : lock.Agrees holds) (refused : lock.read holder = none ∨ lock.write holder = none) :
    ∃ other, holds other ≠ none := by
  by_contra empty
  push Not at empty
  rw [agrees.unheld empty] at refused
  rcases refused with refused | refused <;> cases refused

theorem Agrees.read (agrees : lock.Agrees holds) (acquired : lock.read holder = some after) :
    after.Agrees (Function.update holds holder (some .shared)) := by
  obtain ⟨nobody, rfl⟩ := read_some acquired
  constructor
  · intro other
    by_cases same : other = holder
    · simp [same]
    · simp [same, agrees.readers]
  · intro other
    by_cases same : other = holder
    · simp [same, nobody]
    · simp [same, agrees.writer]
  · intro held
    exact absurd nobody held

theorem Agrees.write (agrees : lock.Agrees holds) (acquired : lock.write holder = some after) :
    after.Agrees (Function.update holds holder (some .exclusive)) := by
  obtain ⟨nobody, empty, rfl⟩ := write_some acquired
  constructor
  · intro other
    by_cases same : other = holder
    · simp [same, empty]
    · simp [same, agrees.readers]
  · intro other
    by_cases same : other = holder
    · simp [same]
    · simp [same, Ne.symm same, agrees.outside nobody empty]
  · intro _
    exact empty

theorem Agrees.release (agrees : lock.Agrees holds) :
    (lock.release holder).Agrees (Function.update holds holder none) := by
  constructor
  · intro other
    by_cases same : other = holder
    · simp [SharedLock.release, same]
    · simp [SharedLock.release, same, agrees.readers]
  · intro other
    by_cases same : other = holder
    · simp only [SharedLock.release, same, Function.update_self]
      split <;> simp_all
    · simp only [SharedLock.release, Function.update_of_ne same, ← agrees.writer]
      split
      next held => simp [held, Ne.symm same]
      · exact Iff.rfl
  · intro held
    simp only [SharedLock.release] at held ⊢
    split at held
    · exact absurd rfl held
    · simp [agrees.alone held]

end SharedLock
