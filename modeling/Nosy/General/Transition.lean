import Mathlib.Logic.Relation

/-! Runs of a system whose atomic step is an executable partial function. A
guard on the actions selects the runs a statement is about; `fun _ _ => True`
admits every interleaving. -/

namespace Transition

universe u v
variable {σ : Type u} {α : Type v}

/-- One step, taken by an action that was allowed in the state before it. -/
def Moves (step : α → σ → Option σ) (allowed : α → σ → Prop) (before after : σ) : Prop :=
  ∃ action, allowed action before ∧ step action before = some after

/-- `last` is reached from `first` by finitely many allowed steps. -/
abbrev Reaches (step : α → σ → Option σ) (allowed : α → σ → Prop) : σ → σ → Prop :=
  Relation.ReflTransGen (Moves step allowed)

/-- Every action of the system is admitted. -/
abbrev Free : α → σ → Prop := fun _ _ => True

/-- Execute a list of actions, stopping at the first one that is not enabled. -/
def exec (step : α → σ → Option σ) : List α → σ → Option σ
  | [], state => some state
  | action :: rest, state => (step action state).bind (exec step rest)

/-- The system that refuses what is not allowed. -/
def guarded (step : α → σ → Option σ) (allowed : α → σ → Prop) [∀ action state, Decidable (allowed action state)]
    (action : α) (state : σ) : Option σ := if allowed action state then step action state else none

variable {step : α → σ → Option σ} {allowed stricter : α → σ → Prop}

theorem Reaches.single {action : α} {before after : σ} (permitted : allowed action before)
    (stepped : step action before = some after) : Reaches step allowed before after :=
  Relation.ReflTransGen.single (r := Moves step allowed) ⟨action, permitted, stepped⟩

theorem Reaches.snoc {action : α} {first before after : σ} (run : Reaches step allowed first before)
    (permitted : allowed action before) (stepped : step action before = some after) :
    Reaches step allowed first after :=
  Relation.ReflTransGen.tail (r := Moves step allowed) run ⟨action, permitted, stepped⟩

/-- What every allowed step preserves holds in every state of a run. -/
theorem Reaches.invariant {property : σ → Prop} {first last : σ}
    (run : Reaches step allowed first last)
    (kept : ∀ action before after, allowed action before → step action before = some after →
      property before → property after)
    (initial : property first) : property last := by
  induction run with
  | refl => exact initial
  | tail _ move ih =>
    obtain ⟨action, permitted, stepped⟩ := move
    exact kept action _ _ permitted stepped ih

theorem Reaches.weaken {first last : σ} (run : Reaches step stricter first last)
    (implies : ∀ action state, stricter action state → allowed action state) :
    Reaches step allowed first last := by
  induction run with
  | refl => exact .refl
  | tail _ move ih =>
    obtain ⟨action, permitted, stepped⟩ := move
    exact ih.tail ⟨action, implies _ _ permitted, stepped⟩

theorem exec_append (first later : List α) (state : σ) :
    exec step (first ++ later) state = (exec step first state).bind (exec step later) := by
  induction first generalizing state with
  | nil => rfl
  | cons action rest ih =>
    simp only [List.cons_append, exec, Option.bind_assoc]
    congr 1
    funext middle
    exact ih middle

/-- What has happened up to one of the events of a history, and what comes of it. -/
theorem exec_split {first later : List α} {event : α} {start last : σ}
    (run : exec step (first ++ event :: later) start = some last) :
    ∃ before after, exec step first start = some before ∧ step event before = some after ∧
      exec step later after = some last := by
  rw [exec_append] at run
  obtain ⟨before, ran, run⟩ := Option.bind_eq_some_iff.mp run
  obtain ⟨after, stepped, run⟩ := Option.bind_eq_some_iff.mp run
  exact ⟨before, after, ran, stepped, run⟩

/-- An executed list of actions is a run of the unguarded system. -/
theorem exec_reaches {actions : List α} {first last : σ}
    (executed : exec step actions first = some last) : Reaches step Free first last := by
  induction actions generalizing first with
  | nil =>
    cases executed
    exact .refl
  | cons action rest ih =>
    obtain ⟨middle, stepped, later⟩ := Option.bind_eq_some_iff.mp executed
    exact .head ⟨action, trivial, stepped⟩ (ih later)

/-- A run of actions that are allowed in any state. -/
theorem exec_allowed {actions : List α} {first last : σ} (executed : exec step actions first = some last)
    (permitted : ∀ action ∈ actions, ∀ state, allowed action state) : Reaches step allowed first last := by
  induction actions generalizing first with
  | nil =>
    cases executed
    exact .refl
  | cons action rest ih =>
    obtain ⟨middle, stepped, later⟩ := Option.bind_eq_some_iff.mp executed
    have onward := ih later fun other member => permitted other (List.mem_cons_of_mem _ member)
    exact .head ⟨action, permitted action List.mem_cons_self first, stepped⟩ onward

theorem guarded_reaches [∀ action state, Decidable (allowed action state)] {actions : List α} {first last : σ}
    (executed : exec (guarded step allowed) actions first = some last) : Reaches step allowed first last := by
  induction actions generalizing first with
  | nil =>
    cases executed
    exact .refl
  | cons action rest ih =>
    obtain ⟨middle, stepped, later⟩ := Option.bind_eq_some_iff.mp executed
    unfold guarded at stepped
    split at stepped
    next permitted => exact .head ⟨action, permitted, stepped⟩ (ih later)
    · cases stepped

end Transition
