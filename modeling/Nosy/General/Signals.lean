import Mathlib.Data.List.Count
import Nosy.General.Transition

/-! A flag through which events are signalled. Any number of parties raise it and
one takes it; signals that come before it is taken are one. A history of such a
flag loses no signal and makes none up. -/

namespace Signals
open Transition

/-- What an event is to the flag. -/
inductive Kind where
  | raise
  | take
deriving DecidableEq, Repr

variable {ε : Type} (kind : ε → Option Kind)

/-- Only a raised flag is taken. -/
def step (event : ε) (flag : Bool) : Option Bool :=
  match kind event with
  | none => some flag
  | some .raise => some true
  | some .take => if flag then some false else none

variable {kind} {event : ε} {flag next first last : Bool} {before middle after log : List ε}

theorem step_raise (raised : kind event = some .raise) (stepped : step kind event flag = some next) : next = true := by
  simp only [step, raised, Option.some.injEq] at stepped
  exact stepped.symm

theorem step_take (taken : kind event = some .take) (stepped : step kind event flag = some next) :
    flag = true ∧ next = false := by
  cases flag with
  | false => simp [step, taken] at stepped
  | true =>
    simp only [step, taken, if_true, Option.some.injEq] at stepped
    exact ⟨rfl, stepped.symm⟩

theorem step_other (other : kind event = none) (stepped : step kind event flag = some next) : next = flag := by
  simp only [step, other, Option.some.injEq] at stepped
  exact stepped.symm

/-- A raised flag stays so until it is taken. -/
theorem waits (run : exec (step kind) log true = some last) :
    last = true ∨ ∃ taking ∈ log, kind taking = some .take := by
  induction log with
  | nil =>
    cases run
    exact .inl rfl
  | cons event rest ih =>
    obtain ⟨next, stepped, later⟩ := Option.bind_eq_some_iff.mp run
    cases what : kind event with
    | none =>
      obtain rfl := step_other what stepped
      exact (ih later).imp_right fun ⟨taking, member, taken⟩ => ⟨taking, List.mem_cons_of_mem _ member, taken⟩
    | some role =>
      cases role with
      | raise =>
        obtain rfl := step_raise what stepped
        exact (ih later).imp_right fun ⟨taking, member, taken⟩ => ⟨taking, List.mem_cons_of_mem _ member, taken⟩
      | take => exact .inr ⟨event, List.mem_cons_self, what⟩

/-- A flag that is not raised is taken only after somebody has raised it. -/
theorem waited (run : exec (step kind) log false = some true) : ∃ raising ∈ log, kind raising = some .raise := by
  induction log with
  | nil => cases run
  | cons event rest ih =>
    obtain ⟨next, stepped, later⟩ := Option.bind_eq_some_iff.mp run
    cases what : kind event with
    | none =>
      obtain rfl := step_other what stepped
      obtain ⟨raising, member, raised⟩ := ih later
      exact ⟨raising, List.mem_cons_of_mem _ member, raised⟩
    | some role =>
      cases role with
      | raise => exact ⟨event, List.mem_cons_self, what⟩
      | take => cases (step_take what stepped).1

/-- Every signal is still there, or was taken since. -/
theorem conserved (run : exec (step kind) (before ++ event :: after) first = some last)
    (raised : kind event = some .raise) : last = true ∨ ∃ taking ∈ after, kind taking = some .take := by
  obtain ⟨_, next, _, stepped, later⟩ := exec_split run
  obtain rfl := step_raise raised stepped
  exact waits later

/-- There is a signal between any two takes. -/
theorem separated {taken again : ε} (run : exec (step kind) (before ++ taken :: (middle ++ again :: after)) first = some last)
    (once : kind taken = some .take) (twice : kind again = some .take) :
    ∃ raising ∈ middle, kind raising = some .raise := by
  obtain ⟨_, cleared, _, stepped, run⟩ := exec_split run
  obtain ⟨ready, _, waiting, stepped', _⟩ := exec_split run
  obtain ⟨_, rfl⟩ := step_take once stepped
  obtain ⟨rfl, _⟩ := step_take twice stepped'
  exact waited waiting

/-- There are no more takes than signals, counting a flag that was raised from the start. -/
theorem accounted (run : exec (step kind) log first = some last) :
    log.countP (kind · = some .take) + last.toNat ≤ log.countP (kind · = some .raise) + first.toNat := by
  induction log generalizing first with
  | nil =>
    cases run
    simp
  | cons event rest ih =>
    obtain ⟨next, stepped, later⟩ := Option.bind_eq_some_iff.mp run
    have counted := ih later
    simp only [List.countP_cons]
    cases what : kind event with
    | none =>
      obtain rfl := step_other what stepped
      simpa using counted
    | some role =>
      cases role with
      | raise =>
        obtain rfl := step_raise what stepped
        have least := Bool.toNat_le first
        simp only [Bool.toNat_true] at counted
        simp
        omega
      | take =>
        obtain ⟨rfl, rfl⟩ := step_take what stepped
        simp only [Bool.toNat_false, Bool.toNat_true] at counted ⊢
        simp
        omega

end Signals
