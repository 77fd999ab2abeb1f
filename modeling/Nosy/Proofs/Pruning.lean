import Nosy.Proofs.NotifierTable
import Nosy.Pruning

/-! The table of a notifier is never larger than twice the most entries that a
pruning pass has left in it. It grows only when a pass has just found it full of
entries that all survive. -/

namespace Nosy.Pruning
open RawNotifier RetainSwap Transition
open EStateM (Result)

variable {M L W : Type} {receive : Receive M L W}

section Tables
variable [VecGrowth] {raw : RawNotifier L} {peak : Nat}

/-- `len ≤ capacity`, and the capacity was last raised for at most `peak` survivors. -/
structure Bounded (raw : RawNotifier L) (peak : Nat) : Prop where
  fits : raw.listeners.length ≤ raw.capacity
  grown : raw.capacity = 0 ∨ VecGrowth.minCap ≤ raw.capacity
  bounded : raw.capacity ≤ max VecGrowth.minCap (2 * peak)

theorem Bounded.new : Bounded (.new : RawNotifier L) 0 :=
  ⟨Nat.le_refl _, .inl rfl, Nat.zero_le _⟩

theorem Bounded.shrink {after : RawNotifier L} {later : Nat} (bounded : Bounded raw peak)
    (fewer : after.listeners.length ≤ raw.listeners.length) (same : after.capacity = raw.capacity)
    (more : peak ≤ later) : Bounded after later := by
  obtain ⟨fits, grown, bounded⟩ := bounded
  refine ⟨?_, ?_, ?_⟩
  · rw [same]
    exact Nat.le_trans fewer fits
  · rwa [same]
  · rw [same]
    omega

/-- The table doubles only when the pass before has left it full. -/
theorem Bounded.push (bounded : Bounded raw peak) (entry : NotifierEntry L)
    (counted : raw.listeners.length = raw.capacity → raw.capacity ≤ peak) : Bounded (raw.push entry) peak := by
  obtain ⟨fits, grown, bounded⟩ := bounded
  have positive := VecGrowth.positive
  by_cases full : raw.listeners.length = raw.capacity
  · have enough := counted full
    refine ⟨?_, .inr ?_, ?_⟩
    all_goals simp only [RawNotifier.push, if_pos full, List.length_append, List.length_singleton]
    all_goals omega
  · refine ⟨?_, ?_, ?_⟩
    all_goals simp only [RawNotifier.push, if_neg full, List.length_append, List.length_singleton]
    · omega
    · exact grown
    · exact bounded

theorem notifyMany_bounded (bounded : Bounded raw peak) (messages : List M) (world : W) :
    Bounded (raw.notifyMany receive messages world).1 peak := by
  have names : ((deliver receive messages raw.listeners world).1.map (·.listener)).length =
      (raw.listeners.map (·.listener)).length := congrArg List.length (deliver_listeners raw.listeners world)
  simp only [List.length_map] at names
  exact bounded.shrink (Nat.le_of_eq names) rfl (Nat.le_refl _)

theorem dropDeadListeners_bounded (bounded : Bounded raw peak) (world : W) :
    Bounded (raw.dropDeadListeners receive world).1 peak :=
  bounded.shrink (retain_subperm ..).length_le rfl (Nat.le_refl _)

theorem register_bounded (bounded : Bounded raw peak) (listener : L) (world : W) :
    Bounded (raw.register receive listener world).1 (max peak ((listenPass receive listener raw world).getD 0)) := by
  unfold RawNotifier.register listenPass
  cases asked : receive listener [] world with
  | error failure after => exact bounded.shrink (Nat.le_refl _) rfl (Nat.le_max_left ..)
  | ok alive after =>
    cases alive with
    | false => exact bounded.shrink (Nat.le_refl _) rfl (Nat.le_max_left ..)
    | true =>
      unfold dropDeadIfFull
      by_cases full : raw.listeners.length ≥ raw.capacity
      · have kept : Bounded (raw.dropDeadListeners receive after).1 peak := dropDeadListeners_bounded bounded after
        simp only [if_pos full, survivors]
        cases pruned : raw.dropDeadListeners receive after with
        | mk table outcome =>
          rw [pruned] at kept
          cases outcome with
          | error failure stopped => exact kept.shrink (Nat.le_refl _) rfl (Nat.le_max_left ..)
          | ok _ last =>
            have recorded : Bounded table (max peak table.listeners.length) :=
              kept.shrink (Nat.le_refl _) rfl (Nat.le_max_left ..)
            apply recorded.push _
            intro same
            rw [← same]
            exact Nat.le_max_right ..
      · simp only [if_neg full]
        have recorded : Bounded raw (max peak 0) := bounded.shrink (Nat.le_refl _) rfl (Nat.le_max_left ..)
        apply recorded.push _
        intro same
        omega

omit [VecGrowth] in
theorem count_opened (world : W) :
    (Notifier.count receive (.opened raw) world).1 = .opened (raw.dropDeadListeners receive world).1 := by
  cases pruned : raw.dropDeadListeners receive world with
  | mk table outcome => cases outcome <;> simp only [Notifier.count, Notifier.dropDeadListeners, pruned]

/-- The same for a notifier used directly and one behind its lock. -/
def Within (handle : Handle L) (peak : Nat) : Prop :=
  match handle with
  | .raw raw | .shared (.opened raw) => Bounded raw peak
  | .shared .closed => True

private theorem Within.entries {handle : Handle L} (within : Within handle peak) :
    handle.entries.length ≤ capacity handle ∧ capacity handle ≤ max VecGrowth.minCap (2 * peak) := by
  rcases handle with raw | (raw | _)
  · exact ⟨within.fits, within.bounded⟩
  · exact ⟨within.fits, within.bounded⟩
  · exact ⟨Nat.le_refl _, Nat.zero_le _⟩

private theorem Within.mono {handle : Handle L} {later : Nat} (within : Within handle peak) (more : peak ≤ later) :
    Within handle later := by
  rcases handle with raw | (raw | _)
  · exact Bounded.shrink within (Nat.le_refl _) rfl more
  · exact Bounded.shrink within (Nat.le_refl _) rfl more
  · trivial

theorem notifyMany_within {handle : Handle L} (within : Within handle peak) (messages : List M) (world : W) :
    Within (handle.notifyMany receive messages world).1 peak := by
  rcases handle with raw | (raw | _)
  · exact notifyMany_bounded within messages world
  · exact notifyMany_bounded within messages world
  · trivial

theorem step_within {op : Op M L W} {system after : System L W} (within : Within system.handle system.peak)
    (stepped : step receive op system = some after) : Within after.handle after.peak := by
  cases stepped
  obtain ⟨handle, world, peak⟩ := system
  cases op with
  | listen listener | listenRaw listener =>
    rcases handle with raw | (raw | _)
    · exact register_bounded within listener world
    · exact register_bounded within listener world
    · trivial
  | notify message => exact (notifyMany_within within [message] world).mono (Nat.le_max_left ..)
  | notifyMany messages => exact (notifyMany_within within messages world).mono (Nat.le_max_left ..)
  | count =>
    rcases handle with raw | (raw | _)
    · exact Within.mono within (Nat.le_max_left ..)
    · have kept : Bounded (raw.dropDeadListeners receive world).1 peak := dropDeadListeners_bounded within world
      simp only [Handle.count, count_opened]
      exact kept.shrink (Nat.le_refl _) rfl (Nat.le_max_left ..)
    · trivial
  | evolve next => exact within.mono (Nat.le_max_left ..)

end Tables

/-- Four listeners fill the first table and die; the fifth finds room without growth. -/
def replaced : List (Op Nat Nat (Nat → Bool)) :=
  [.listen 0, .listen 1, .listenRaw 2, .listen 3, .notify 7, .evolve (· == 4), .listen 4]

end Nosy.Pruning
