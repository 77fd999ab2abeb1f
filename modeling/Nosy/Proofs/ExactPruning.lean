import Nosy.AliveFlag
import Nosy.Proofs.BroadcastRefinement

/-! Pruning as an exact filter, for listeners that may answer anything, and the
two counts that agree with it once the listeners keep the trait's contract. -/

namespace Nosy.AliveFlag
open RetainSwap RawNotifier
open EStateM (Result)

variable {L ι M W : Type}

/-- The calls that a pass with one batch of messages makes. -/
def made (messages : List M) (asked : List (NotifierEntry L × Bool)) : List (Call L M) :=
  asked.map fun (entry, answer) => ⟨entry.listener, messages, answer⟩

theorem respond_total (machine : L → List M → W → Bool × W) : Total (respond machine) :=
  fun _ _ _ => ⟨_, _, rfl⟩

theorem pass_calls {machine : L → List M → W → Bool × W} {messages : List M}
    {asked : List (NotifierEntry L × Bool)} {first last : Recorded L M W}
    (pass : Pass (fun entry => respond machine entry.listener messages) asked first last) :
    last.calls = first.calls ++ made messages asked := by
  induction pass with
  | done => exact (List.append_nil _).symm
  | ask called _ ih =>
    cases called
    rw [ih, List.append_assoc]
    rfl

private theorem counts_agree [DecidableEq ι] (lawful : ι → LawfulMachine M) (states : (i : ι) → (lawful i).State)
    (raw : RawNotifier (Registration ι)) :
    ∃ pruned last counted,
      raw.dropDeadListeners (Broadcast.call (Broadcast.machines lawful)) ⟨states, []⟩ = (pruned, .ok () last) ∧
      raw.count (Broadcast.call (Broadcast.machines lawful)) ⟨states, []⟩ =
        .ok pruned.listeners.length counted ∧
      Notifier.count (Broadcast.call (Broadcast.machines lawful)) (.opened raw) ⟨states, []⟩ =
        (.opened pruned, .ok pruned.listeners.length last) := by
  have queried : Broadcast.Queried states (⟨states, []⟩ : Broadcast.World (Broadcast.machines lawful)) :=
    ⟨rfl, by simp⟩
  obtain ⟨pruned, last, dropped⟩ := dropDeadListeners_total (Broadcast.call_total lawful) raw ⟨states, []⟩
  obtain ⟨total, after, counted⟩ := count_total (Broadcast.call_total lawful) raw ⟨states, []⟩
  have left := (dropDeadListeners_ok (Broadcast.call_answers states) queried dropped).1
  have same := (count_ok (Broadcast.call_answers states) queried counted).1
  rw [← left.length_eq] at same
  subst total
  refine ⟨pruned, last, after, dropped, counted, ?_⟩
  simp only [Notifier.count, Notifier.dropDeadListeners, dropped]
  rfl

/-- Whatever the listeners answer, the loop of `drop_dead_listeners` ends, has asked
each entry with a set flag exactly once and no other, and leaves those that
answered true. Listeners that keep the contract make both counts equal to what it
leaves, in every table. -/
theorem pruning_exact :
    (∀ (machine : L → List M → W → Bool × W) (raw : RawNotifier L) (record : Recorded L M W),
      ∃ (pruned : RawNotifier L) (last : Recorded L M W) (asked : List (NotifierEntry L × Bool)),
        raw.dropDeadListeners (respond machine) record = (pruned, .ok () last) ∧
        (∀ ended, Loop (stillAlive (respond machine)) 0 raw.listeners record ended ↔
          ended = (pruned.listeners, .ok () last)) ∧
        (asked.map (·.1)).Perm (raw.listeners.filter (·.wasAlive)) ∧
        last.calls = record.calls ++ asked.map (fun (entry, answer) => ⟨entry.listener, [], answer⟩) ∧
        pruned.listeners.Perm ((asked.filter (·.2)).map (·.1))) ∧
    ∀ [DecidableEq ι] (lawful : ι → LawfulMachine M) (states : (i : ι) → (lawful i).State)
      (raw : RawNotifier (Registration ι)), ∃ pruned last counted,
        raw.dropDeadListeners (Broadcast.call (Broadcast.machines lawful)) ⟨states, []⟩ = (pruned, .ok () last) ∧
        raw.count (Broadcast.call (Broadcast.machines lawful)) ⟨states, []⟩ =
          .ok pruned.listeners.length counted ∧
        Notifier.count (Broadcast.call (Broadcast.machines lawful)) (.opened raw) ⟨states, []⟩ =
          (.opened pruned, .ok pruned.listeners.length last) := by
  constructor
  · intro machine raw record
    obtain ⟨pruned, last, dropped⟩ := dropDeadListeners_total (respond_total machine) raw record
    obtain ⟨asked, same, pass, left, _⟩ := dropDeadListeners_asks dropped
    refine ⟨pruned, last, asked, dropped, ?_, same, pass_calls pass, by rw [left]⟩
    have looped : retain (stillAlive (respond machine)) raw.listeners.length 0 raw.listeners record =
        (pruned.listeners, .ok () last) := by
      simp only [dropDeadListeners, Prod.mk.injEq] at dropped
      rw [← dropped.1, ← dropped.2]
    intro ended
    rw [← looped]
    exact loop_iff (Nat.sub_le _ _)
  · intro _ lawful states raw
    exact counts_agree lawful states raw

end Nosy.AliveFlag
