import Mathlib.Data.List.Basic

/-! Runs of a labelled transition relation, read off a list of labels, and what
becomes of a run when its states are changed throughout. -/

universe u v

/-- The labels lead from `first` to `last`, one after the other. -/
inductive Sequenced {α : Type u} {σ : Type v} (R : α → σ → σ → Prop) : σ → List α → σ → Prop
  | nil {state : σ} : Sequenced R state [] state
  | cons {label : α} {rest : List α} {first middle last : σ} :
      R label first middle → Sequenced R middle rest last → Sequenced R first (label :: rest) last

namespace Sequenced
variable {α : Type u} {σ : Type v} {R S : α → σ → σ → Prop} {first middle last : σ} {earlier later labels : List α}

theorem append (run : Sequenced R first earlier middle) (rest : Sequenced R middle later last) :
    Sequenced R first (earlier ++ later) last := by
  induction run with
  | nil => exact rest
  | cons step _ ih => exact .cons step (ih rest)

theorem snoc {label : α} (run : Sequenced R first labels middle) (step : R label middle last) :
    Sequenced R first (labels ++ [label]) last :=
  run.append (.cons step .nil)

theorem split (run : Sequenced R first (earlier ++ later) last) :
    ∃ middle, Sequenced R first earlier middle ∧ Sequenced R middle later last := by
  induction earlier generalizing first with
  | nil => exact ⟨first, .nil, run⟩
  | cons label rest ih =>
    cases run with
    | cons step run =>
      obtain ⟨middle, before, after⟩ := ih run
      exact ⟨middle, .cons step before, after⟩

/-- What comes before a label, the label's own step, and what comes after it. -/
theorem split_cons {label : α} (run : Sequenced R first (earlier ++ label :: later) last) :
    ∃ before after, Sequenced R first earlier before ∧ R label before after ∧ Sequenced R after later last := by
  obtain ⟨before, early, rest⟩ := run.split
  cases rest with
  | cons step late => exact ⟨before, _, early, step, late⟩

theorem mono (run : Sequenced R first labels last)
    (implies : ∀ label ∈ labels, ∀ before after, R label before after → S label before after) :
    Sequenced S first labels last := by
  induction run with
  | nil => exact .nil
  | cons step _ ih =>
    apply Sequenced.cons (implies _ (by simp) _ _ step)
    apply ih
    intro label member
    exact implies label (by simp [member])

/-- States that every step of a run keeps together with a change of the state. -/
theorem shift (change : σ → σ) (run : Sequenced R first labels last)
    (commutes : ∀ label ∈ labels, ∀ before after, R label before after → S label (change before) (change after)) :
    Sequenced S (change first) labels (change last) := by
  induction run with
  | nil => exact .nil
  | cons step _ ih =>
    apply Sequenced.cons (commutes _ (by simp) _ _ step)
    apply ih
    intro label member
    exact commutes label (by simp [member])

/-- What each step keeps, knowing the labels so far, holds at the end of a run. -/
theorem invariant (property : List α → σ → Prop) (run : Sequenced R first labels last) (initial : property [] first)
    (kept : ∀ earlier label later before after, labels = earlier ++ label :: later → R label before after →
      property earlier before → property (earlier ++ [label]) after) : property labels last := by
  induction run generalizing property with
  | nil => exact initial
  | @cons label rest first middle last step _ ih =>
    apply ih (fun earlier => property (label :: earlier))
    · exact kept [] label rest first middle rfl step initial
    · intro earlier next later before after split moved held
      exact kept (label :: earlier) next later before after (by simp [split]) moved held

end Sequenced
