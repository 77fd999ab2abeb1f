import Nosy.Notifier

/-! What each operation of a notifier does to its table of listeners and to the
world they share, for the calls that return normally. Callers use these facts
and never unfold the loops. -/

namespace Nosy.RawNotifier
open RetainSwap
open EStateM (Result)

variable {M L W : Type} {receive : Receive M L W} {messages : List M}

@[simp] theorem fetchAnd_listener (entry : NotifierEntry L) (alive : Bool) :
    (entry.fetchAnd alive).listener = entry.listener := rfl

theorem deliver_cons_ok {entry : NotifierEntry L} {rest updated : List (NotifierEntry L)} {world last : W} :
    deliver receive messages (entry :: rest) world = (updated, .ok () last) ↔
      ∃ alive middle tail, receive entry.listener messages world = .ok alive middle ∧
        deliver receive messages rest middle = (tail, .ok () last) ∧ updated = entry.fetchAnd alive :: tail := by
  cases called : receive entry.listener messages world with
  | error failure after => simp [deliver, called]
  | ok alive middle =>
    cases later : deliver receive messages rest middle with
    | mk tail outcome =>
      simp only [deliver, called, later, Prod.mk.injEq, Result.ok.injEq]
      constructor
      · rintro ⟨rfl, rfl⟩
        exact ⟨alive, middle, tail, ⟨rfl, rfl⟩, later, rfl⟩
      · rintro ⟨_, _, _, ⟨rfl, rfl⟩, delivered, rfl⟩
        rw [later] at delivered
        cases delivered
        exact ⟨rfl, rfl⟩

/-- Delivery never adds, removes or reorders listeners, even when one panics. -/
theorem deliver_listeners (entries : List (NotifierEntry L)) (world : W) :
    (deliver receive messages entries world).1.map (·.listener) = entries.map (·.listener) := by
  induction entries generalizing world with
  | nil => rfl
  | cons entry rest ih =>
    simp only [deliver]
    cases receive entry.listener messages world with
    | error failure after => rfl
    | ok alive middle => simpa using ih middle

section Passes
variable {raw after : RawNotifier L} {first last : W}

theorem deliver_asks {entries updated : List (NotifierEntry L)}
    (delivered : deliver receive messages entries first = (updated, .ok () last)) :
    ∃ asked : List (NotifierEntry L × Bool), asked.map (·.1) = entries ∧
      Pass (fun entry => receive entry.listener messages) asked first last ∧
      updated = asked.map fun (entry, alive) => entry.fetchAnd alive := by
  induction entries generalizing first updated with
  | nil =>
    cases delivered
    exact ⟨[], rfl, .done, rfl⟩
  | cons entry rest ih =>
    obtain ⟨alive, middle, tail, called, later, rfl⟩ := deliver_cons_ok.mp delivered
    obtain ⟨asked, rfl, pass, rfl⟩ := ih later
    exact ⟨(entry, alive) :: asked, rfl, .ask called pass, rfl⟩

private theorem stillAlive_pass {asked : List (NotifierEntry L × Bool)}
    (pass : Pass (stillAlive receive) asked first last) :
    Pass (fun entry => receive entry.listener []) (asked.filter (·.1.wasAlive)) first last ∧
      asked.filter (·.2) = (asked.filter (·.1.wasAlive)).filter (·.2) := by
  induction pass with
  | done => exact ⟨.done, rfl⟩
  | @ask entry answer asked first middle last called _ ih =>
    obtain ⟨pass, kept⟩ := ih
    cases flag : entry.wasAlive with
    | false =>
      simp only [stillAlive, flag, Bool.false_eq_true, if_false] at called
      cases called
      rw [List.filter_cons_of_neg (by simp [flag]), List.filter_cons_of_neg (by simp)]
      exact ⟨pass, kept⟩
    | true =>
      simp only [stillAlive, flag, if_true] at called
      rw [List.filter_cons_of_pos (by simp [flag]), List.filter_cons, List.filter_cons, kept]
      exact ⟨.ask called pass, rfl⟩

/-- Pruning asks the entries with a set flag, in the order `swap_remove` gives, and
keeps those that answer true. -/
theorem dropDeadListeners_asks (pruned : raw.dropDeadListeners receive first = (after, .ok () last)) :
    ∃ asked : List (NotifierEntry L × Bool), (asked.map (·.1)).Perm (raw.listeners.filter (·.wasAlive)) ∧
      Pass (fun entry => receive entry.listener []) asked first last ∧
      after.listeners = (asked.filter (·.2)).map (·.1) ∧ after.capacity = raw.capacity := by
  simp only [dropDeadListeners] at pruned
  cases looped : retain (stillAlive receive) raw.listeners.length 0 raw.listeners first with
  | mk kept outcome =>
    simp only [looped, Prod.mk.injEq] at pruned
    obtain ⟨rfl, rfl⟩ := pruned
    obtain ⟨asked, same, pass, rfl⟩ := retain_pass (Nat.le_refl _) looped
    obtain ⟨pass, kept⟩ := stillAlive_pass pass
    refine ⟨_, ?_, pass, by rw [kept], rfl⟩
    have filtered := same.filter (·.wasAlive)
    rwa [List.filter_map] at filtered

theorem count_asks {total : Nat} (counted : raw.count receive first = .ok total last) :
    ∃ asked : List (NotifierEntry L × Bool), asked.map (·.1) = raw.listeners.filter (·.wasAlive) ∧
      Pass (fun entry => receive entry.listener []) asked first last ∧ total = asked.countP (·.2) := by
  unfold count at counted
  simp only [Functor.map, EStateM.map] at counted
  cases selected : select (stillAlive receive) raw.listeners first with
  | error failure stopped => simp [selected] at counted
  | ok kept ended =>
    simp only [selected] at counted
    cases counted
    obtain ⟨asked, same, pass, rfl⟩ := select_pass selected
    obtain ⟨pass, kept⟩ := stillAlive_pass pass
    refine ⟨_, ?_, pass, ?_⟩
    · rw [← same, List.filter_map]
      rfl
    · rw [List.length_map, kept, List.countP_eq_length_filter]

end Passes

section Rules
variable {R : W → W → Prop} {entries updated : List (NotifierEntry L)} {first last : W}

/-- A reflexive and transitive relation that every call respects is respected by
the whole delivery. -/
theorem deliver_respects (refl : ∀ world, R world world)
    (trans : ∀ {before middle after}, R before middle → R middle after → R before after)
    (each : ∀ entry ∈ entries, ∀ before alive after, R first before →
      receive entry.listener messages before = .ok alive after → R before after)
    (delivered : deliver receive messages entries first = (updated, .ok () last)) : R first last := by
  induction entries generalizing first updated with
  | nil =>
    cases delivered
    exact refl _
  | cons entry rest ih =>
    obtain ⟨alive, middle, tail, called, later, rfl⟩ := deliver_cons_ok.mp delivered
    have head := each entry (by simp) first alive middle (refl first) called
    refine trans head (ih ?_ later)
    intro other member before answer after reached
    exact each other (by simp [member]) before answer after (trans head reached)

/-- Every listener of the table is called exactly where the loop reaches it. -/
theorem deliver_calls (refl : ∀ world, R world world)
    (trans : ∀ {before middle after}, R before middle → R middle after → R before after)
    (each : ∀ entry ∈ entries, ∀ before alive after, R first before →
      receive entry.listener messages before = .ok alive after → R before after)
    (delivered : deliver receive messages entries first = (updated, .ok () last))
    {entry : NotifierEntry L} (member : entry ∈ entries) :
    ∃ before alive after, R first before ∧ receive entry.listener messages before = .ok alive after ∧
      R after last := by
  induction entries generalizing first updated with
  | nil => simp at member
  | cons head rest ih =>
    obtain ⟨alive, middle, tail, called, later, rfl⟩ := deliver_cons_ok.mp delivered
    have step := each head (by simp) first alive middle (refl first) called
    have remaining : ∀ other ∈ rest, ∀ before answer after, R middle before →
        receive other.listener messages before = .ok answer after → R before after :=
      fun other inside before answer after reached =>
        each other (by simp [inside]) before answer after (trans step reached)
    rcases List.mem_cons.mp member with rfl | member
    · exact ⟨first, alive, middle, refl first, called, deliver_respects refl trans remaining later⟩
    · obtain ⟨before, answer, after, reached, asked, ended⟩ := ih remaining later member
      exact ⟨before, answer, after, trans step reached, asked, ended⟩

theorem deliver_flags {invariant : W → Prop} {answer : L → Bool}
    (each : ∀ entry ∈ entries, ∀ before alive after, invariant before →
      receive entry.listener messages before = .ok alive after → alive = answer entry.listener ∧ invariant after)
    (initial : invariant first)
    (delivered : deliver receive messages entries first = (updated, .ok () last)) :
    updated = entries.map (fun entry => entry.fetchAnd (answer entry.listener)) ∧ invariant last := by
  obtain ⟨asked, rfl, pass, rfl⟩ := deliver_asks delivered
  obtain ⟨same, ended⟩ := pass.answers invariant (fun entry => answer entry.listener)
    (fun item member => each item.1 (List.mem_map.mpr ⟨item, member, rfl⟩)) initial
  refine ⟨?_, ended⟩
  rw [List.map_map]
  apply List.map_congr_left
  intro item member
  dsimp only [Function.comp_apply]
  rw [same item member]

/-- If every call of a chosen listener adds the same amount and no other call adds
anything, the delivery adds that amount for each entry with a chosen listener. -/
theorem deliver_adds (measure : W → Nat) (chosen : L → Bool) {invariant : W → Prop} {amount : Nat}
    (each : ∀ entry ∈ entries, ∀ before alive after, invariant before →
      receive entry.listener messages before = .ok alive after →
      invariant after ∧ measure after = measure before + if chosen entry.listener then amount else 0)
    (initial : invariant first)
    (delivered : deliver receive messages entries first = (updated, .ok () last)) :
    measure last = measure first + amount * (entries.map (·.listener)).countP chosen := by
  induction entries generalizing first updated with
  | nil =>
    cases delivered
    rfl
  | cons entry rest ih =>
    obtain ⟨alive, middle, tail, called, later, rfl⟩ := deliver_cons_ok.mp delivered
    obtain ⟨still, added⟩ := each entry (by simp) first alive middle initial called
    have remaining := ih (fun other member => each other (by simp [member])) still later
    rw [remaining, added, List.map_cons, List.countP_cons, Nat.mul_add]
    split
    · rw [Nat.mul_one]
      omega
    · omega

end Rules

/-- While `invariant` holds, asking a listener whether it is alive answers
`answer` and keeps the invariant. -/
def Answers (receive : Receive M L W) (invariant : W → Prop) (answer : L → Bool) : Prop :=
  ∀ listener before alive after, invariant before → receive listener [] before = .ok alive after →
    alive = answer listener ∧ invariant after

variable {invariant : W → Prop} {answer : L → Bool}

private theorem Answers.pass {asked : List (NotifierEntry L × Bool)} {first last : W}
    (asks : Answers receive invariant answer) (initial : invariant first)
    (pass : Pass (fun entry => receive entry.listener []) asked first last) :
    (asked.filter (·.2)).map (·.1) = (asked.map (·.1)).filter (fun entry => answer entry.listener) ∧ invariant last := by
  obtain ⟨same, ended⟩ := pass.answers invariant (fun entry => answer entry.listener)
    (fun item _ => asks item.1.listener) initial
  exact ⟨kept_filter same, ended⟩

variable {raw after : RawNotifier L} {first last : W}

theorem dropDeadListeners_ok (asks : Answers receive invariant answer) (initial : invariant first)
    (pruned : raw.dropDeadListeners receive first = (after, .ok () last)) :
    after.listeners.Perm (raw.listeners.filter fun entry => entry.wasAlive && answer entry.listener) ∧
      after.capacity = raw.capacity ∧ invariant last := by
  obtain ⟨asked, same, pass, left, capacity⟩ := dropDeadListeners_asks pruned
  obtain ⟨kept, ended⟩ := asks.pass initial pass
  refine ⟨?_, capacity, ended⟩
  rw [left, kept]
  simpa [Bool.and_comm] using same.filter fun entry => answer entry.listener

/-- The entries a call of `listen` keeps: all of them while there is room, else
those that are still alive. -/
def survives (raw : RawNotifier L) (answer : L → Bool) (entry : NotifierEntry L) : Bool :=
  raw.listeners.length < raw.capacity || (entry.wasAlive && answer entry.listener)

/-- `after` keeps every live entry of `before` and invents none. -/
def Prunes (answer : L → Bool) (before after : List (NotifierEntry L)) : Prop :=
  ∃ keep : NotifierEntry L → Bool,
    (∀ entry, entry.wasAlive = true → answer entry.listener = true → keep entry = true) ∧
      after.Perm (before.filter keep)

theorem Prunes.refl (answer : L → Bool) (table : List (NotifierEntry L)) : Prunes answer table table :=
  ⟨fun _ => true, fun _ _ _ => rfl, by rw [List.filter_eq_self.mpr (fun _ _ => rfl)]⟩

theorem Prunes.keeps {before after : List (NotifierEntry L)} (prunes : Prunes answer before after)
    {entry : NotifierEntry L} (member : entry ∈ before) (flag : entry.wasAlive = true)
    (alive : answer entry.listener = true) : entry ∈ after := by
  obtain ⟨keep, live, same⟩ := prunes
  exact same.mem_iff.mpr (List.mem_filter.mpr ⟨member, live entry flag alive⟩)

theorem Prunes.subset {before after : List (NotifierEntry L)} (prunes : Prunes answer before after)
    {entry : NotifierEntry L} (member : entry ∈ after) : entry ∈ before := by
  obtain ⟨keep, _, same⟩ := prunes
  exact (List.mem_filter.mp (same.mem_iff.mp member)).1

theorem Prunes.nodup {before after : List (NotifierEntry L)} (prunes : Prunes answer before after)
    (distinct : (before.map (·.listener)).Nodup) : (after.map (·.listener)).Nodup := by
  obtain ⟨keep, _, same⟩ := prunes
  exact (same.map (·.listener)).nodup_iff.mpr (distinct.sublist (List.filter_sublist.map _))

private theorem survives_prunes {kept : List (NotifierEntry L)}
    (same : kept.Perm (raw.listeners.filter (raw.survives answer))) : Prunes answer raw.listeners kept :=
  ⟨raw.survives answer, fun entry flag alive => by simp [survives, flag, alive], same⟩

private theorem dropDeadIfFull_ok (asks : Answers receive invariant answer) (initial : invariant first)
    (pruned : raw.dropDeadIfFull receive first = (after, .ok () last)) :
    after.listeners.Perm (raw.listeners.filter (raw.survives answer)) ∧
      after.capacity = raw.capacity ∧ invariant last := by
  unfold dropDeadIfFull at pruned
  split at pruned
  next full =>
    have room : ¬ raw.listeners.length < raw.capacity := by omega
    have same : raw.survives answer = fun entry => entry.wasAlive && answer entry.listener := by
      funext entry
      simp [survives, room]
    rw [same]
    exact dropDeadListeners_ok asks initial pruned
  next spare =>
    have room : raw.listeners.length < raw.capacity := by omega
    cases pruned
    refine ⟨?_, rfl, initial⟩
    rw [List.filter_eq_self.mpr (by simp [survives, room])]

/-- `listen` stores a listener that is alive behind the survivors, and does
nothing for one that is dead. -/
theorem register_ok [VecGrowth] {listener : L} (asks : Answers receive invariant answer)
    (initial : invariant first)
    (registered : raw.register receive listener first = (after, .ok () last)) :
    invariant last ∧ (answer listener = false ∧ after = raw ∨
      answer listener = true ∧ ∃ kept : List (NotifierEntry L),
        kept.Perm (raw.listeners.filter (raw.survives answer)) ∧
        after.listeners = kept ++ [⟨listener, true⟩]) := by
  unfold register at registered
  cases asked : receive listener [] first with
  | error failure stopped => simp [asked] at registered
  | ok alive middle =>
    obtain ⟨same, still⟩ := asks listener first alive middle initial asked
    simp only [asked] at registered
    cases alive with
    | false =>
      cases registered
      exact ⟨still, .inl ⟨same.symm, rfl⟩⟩
    | true =>
      cases pruned : raw.dropDeadIfFull receive middle with
      | mk table outcome =>
        simp only [pruned] at registered
        cases outcome with
        | error failure stopped => simp at registered
        | ok _ ended =>
          cases registered
          obtain ⟨permuted, _, kept⟩ := dropDeadIfFull_ok asks still pruned
          exact ⟨kept, .inr ⟨same.symm, table.listeners, permuted, rfl⟩⟩

/-- `after` has every live entry of `before`, the listener if that is alive, and
nothing else. -/
structure Registers (answer : L → Bool) (listener : L) (before after : List (NotifierEntry L)) : Prop where
  keeps : ∀ entry ∈ before, entry.wasAlive = true → answer entry.listener = true → entry ∈ after
  added : answer listener = true → ⟨listener, true⟩ ∈ after
  origin : ∀ entry ∈ after, entry ∈ before ∨ entry = ⟨listener, true⟩
  listeners : (after.map (·.listener)).Subperm (before.map (·.listener) ++ [listener])

theorem register_registers [VecGrowth] {listener : L} (asks : Answers receive invariant answer)
    (initial : invariant first) (registered : raw.register receive listener first = (after, .ok () last)) :
    invariant last ∧ Registers answer listener raw.listeners after.listeners := by
  obtain ⟨still, ⟨dead, rfl⟩ | ⟨_, kept, same, shape⟩⟩ := register_ok asks initial registered
  · refine ⟨still, fun _ member _ _ => member, fun alive => ?_, fun _ member => .inl member,
      (List.sublist_append_left _ _).subperm⟩
    rw [dead] at alive
    cases alive
  · have prunes := survives_prunes same
    rw [shape]
    refine ⟨still, fun _ member flag alive => ?_, fun _ => by simp, fun _ member => ?_, ?_⟩
    · exact List.mem_append_left _ (prunes.keeps member flag alive)
    · exact (List.mem_append.mp member).imp prunes.subset List.mem_singleton.mp
    · rw [List.map_append]
      apply (List.subperm_append_right _).mpr
      exact ((same.map _).subperm).trans (List.filter_sublist.map _).subperm

theorem Registers.nodup {listener : L} {before after : List (NotifierEntry L)}
    (registers : Registers answer listener before after) (distinct : (before.map (·.listener)).Nodup)
    (new : listener ∉ before.map (·.listener)) : (after.map (·.listener)).Nodup := by
  obtain ⟨listeners, same, sublist⟩ := registers.listeners
  refine same.nodup_iff.mp (List.Nodup.sublist sublist ?_)
  rw [List.nodup_append]
  refine ⟨distinct, by simp, fun old member added single => ?_⟩
  rw [List.mem_singleton.mp single]
  rintro rfl
  exact new member

def Total (receive : Receive M L W) : Prop :=
  ∀ listener messages world, ∃ alive after, receive listener messages world = .ok alive after

theorem deliver_total (messages : List M) (total : Total receive) (entries : List (NotifierEntry L)) (world : W) :
    ∃ updated last, deliver receive messages entries world = (updated, .ok () last) := by
  induction entries generalizing world with
  | nil => exact ⟨[], world, rfl⟩
  | cons entry rest ih =>
    obtain ⟨alive, middle, called⟩ := total entry.listener messages world
    obtain ⟨tail, last, later⟩ := ih middle
    exact ⟨_, last, deliver_cons_ok.mpr ⟨alive, middle, tail, called, later, rfl⟩⟩

private theorem select_total (total : Total receive) (entries : List (NotifierEntry L)) (world : W) :
    ∃ kept last, select (stillAlive receive) entries world = .ok kept last := by
  induction entries generalizing world with
  | nil => exact ⟨[], world, rfl⟩
  | cons entry rest ih =>
    have asked : ∃ alive after, stillAlive receive entry world = .ok alive after := by
      unfold stillAlive
      split
      · exact total entry.listener [] world
      · exact ⟨false, world, rfl⟩
    obtain ⟨alive, middle, asked⟩ := asked
    obtain ⟨kept, last, later⟩ := ih middle
    exact ⟨_, last, by simp only [select, asked, later]; rfl⟩

/-- Pruning ends as one selection over some order of the table does. -/
theorem dropDeadListeners_outcome (raw : RawNotifier L) (world : W) :
    ∃ order : List (NotifierEntry L), order.Perm raw.listeners ∧
      match select (stillAlive receive) order world with
      | .ok _ last => (raw.dropDeadListeners receive world).2 = .ok () last
      | .error failure last => (raw.dropDeadListeners receive world).2 = .error failure last := by
  obtain ⟨order, same, agrees⟩ :=
    retain_agrees (stillAlive receive) raw.listeners.length [] raw.listeners world (Nat.le_refl _)
  simp only [List.length_nil, List.nil_append] at agrees
  refine ⟨order, same, ?_⟩
  cases selected : select (stillAlive receive) order world with
  | ok kept last =>
    simp only [selected, Agrees] at agrees
    simp only [dropDeadListeners, agrees]
  | error failure last =>
    simp only [selected, Agrees] at agrees
    simp only [dropDeadListeners, agrees]

theorem dropDeadListeners_total (total : Total receive) (raw : RawNotifier L) (world : W) :
    ∃ after last, raw.dropDeadListeners receive world = (after, .ok () last) := by
  obtain ⟨order, _, ends⟩ := dropDeadListeners_outcome raw world
  obtain ⟨kept, last, selected⟩ := select_total total order world
  rw [selected] at ends
  exact ⟨_, last, Prod.ext rfl ends⟩

theorem register_total [VecGrowth] (total : Total receive) (listener : L) (raw : RawNotifier L) (world : W) :
    ∃ after last, raw.register receive listener world = (after, .ok () last) := by
  obtain ⟨alive, middle, asked⟩ := total listener [] world
  cases alive with
  | false => exact ⟨raw, middle, by simp only [register, asked]⟩
  | true =>
    have pruned : ∃ table last, raw.dropDeadIfFull receive middle = (table, .ok () last) := by
      unfold dropDeadIfFull
      split
      · exact dropDeadListeners_total total raw middle
      · exact ⟨raw, middle, rfl⟩
    obtain ⟨table, last, pruned⟩ := pruned
    exact ⟨table.push ⟨listener, true⟩, last, by simp only [register, asked, pruned]⟩

theorem count_total (total : Total receive) (raw : RawNotifier L) (world : W) :
    ∃ counted last, raw.count receive world = .ok counted last := by
  obtain ⟨kept, last, selected⟩ := select_total total raw.listeners world
  exact ⟨kept.length, last, by simp only [count, Functor.map, EStateM.map, selected]⟩

theorem count_ok {total : Nat} (asks : Answers receive invariant answer) (initial : invariant first)
    (counted : raw.count receive first = .ok total last) :
    total = (raw.listeners.filter fun entry => entry.wasAlive && answer entry.listener).length ∧
      invariant last := by
  obtain ⟨asked, same, pass, rfl⟩ := count_asks counted
  obtain ⟨kept, ended⟩ := asks.pass initial pass
  refine ⟨?_, ended⟩
  rw [List.countP_eq_length_filter, ← List.length_map (·.1), kept, same, List.filter_filter]
  simp [Bool.and_comm]

/-- `result` is that failure if `bad`, and otherwise a return that ensures the rest. -/
def Settles {α : Type} (bad : Prop) (failure : Failure) (ensures : α → W → Prop) : Result Failure W α → Prop
  | .ok value after => ¬ bad ∧ ensures value after
  | .error reason _ => bad ∧ reason = failure

theorem Settles.returns {α : Type} {bad : Prop} {failure : Failure} {ensures : α → W → Prop}
    {result : Result Failure W α} (settled : Settles bad failure ensures result) :
    (∃ value after, result = .ok value after) ↔ ¬ bad := by
  cases result with
  | ok value after => simp [settled.1]
  | error reason after => simp [settled.1]

theorem Settles.mono {α : Type} {bad : Prop} {failure : Failure} {ensures weaker : α → W → Prop}
    {result : Result Failure W α} (settled : Settles bad failure ensures result)
    (implies : ∀ value after, ensures value after → weaker value after) : Settles bad failure weaker result := by
  cases result with
  | ok value after => exact ⟨settled.1, implies value after settled.2⟩
  | error reason after => exact settled

private theorem Settles.ensured {α : Type} {bad : Prop} {failure : Failure} {ensures : α → W → Prop}
    {result : Result Failure W α} (settled : Settles bad failure ensures result) (good : ¬ bad) :
    ∃ value after, result = .ok value after ∧ ensures value after := by
  cases result with
  | ok value after => exact ⟨value, after, rfl, settled.2⟩
  | error reason after => exact absurd settled.1 good

section Settles
variable {bad : L → Prop} {failure : Failure} {keeps : W → Prop} {entries : List (NotifierEntry L)} {world : W}

theorem deliver_settles
    (each : ∀ entry ∈ entries, ∀ before, keeps before →
      Settles (bad entry.listener) failure (fun _ => keeps) (receive entry.listener messages before))
    (initial : keeps world) :
    Settles (∃ entry ∈ entries, bad entry.listener) failure (fun _ => keeps)
      (deliver receive messages entries world).2 := by
  induction entries generalizing world with
  | nil => exact ⟨by simp, initial⟩
  | cons entry rest ih =>
    have head := each entry (by simp) world initial
    simp only [deliver]
    cases called : receive entry.listener messages world with
    | error reason after =>
      rw [called] at head
      exact ⟨⟨entry, by simp, head.1⟩, head.2⟩
    | ok alive middle =>
      rw [called] at head
      have tail := ih (fun other member => each other (by simp [member])) head.2
      cases outcome : (deliver receive messages rest middle).2 with
      | error reason after =>
        rw [outcome] at tail
        obtain ⟨⟨other, member, panics⟩, reason⟩ := tail
        exact ⟨⟨other, by simp [member], panics⟩, reason⟩
      | ok _ after =>
        rw [outcome] at tail
        refine ⟨?_, tail.2⟩
        rintro ⟨other, member, panics⟩
        rcases List.mem_cons.mp member with rfl | member
        · exact head.1 panics
        · exact tail.1 ⟨other, member, panics⟩

private theorem stillAlive_settles {entry : NotifierEntry L}
    (asked : Settles (bad entry.listener) failure (fun _ => keeps) (receive entry.listener [] world))
    (initial : keeps world) :
    Settles (entry.wasAlive = true ∧ bad entry.listener) failure (fun _ => keeps)
      (stillAlive receive entry world) := by
  unfold stillAlive
  cases flag : entry.wasAlive with
  | false => exact ⟨by simp, initial⟩
  | true =>
    cases called : receive entry.listener [] world with
    | ok alive after =>
      rw [called] at asked
      simpa [called, Settles] using asked
    | error reason after =>
      rw [called] at asked
      simpa [called, Settles] using asked

private theorem select_settles
    (each : ∀ entry ∈ entries, ∀ before, keeps before →
      Settles (bad entry.listener) failure (fun _ => keeps) (receive entry.listener [] before))
    (initial : keeps world) :
    Settles (∃ entry ∈ entries, entry.wasAlive = true ∧ bad entry.listener) failure (fun _ => keeps)
      (select (stillAlive receive) entries world) := by
  induction entries generalizing world with
  | nil => exact ⟨by simp, initial⟩
  | cons entry rest ih =>
    have head := stillAlive_settles (each entry (by simp) world initial) initial
    simp only [select]
    cases asked : stillAlive receive entry world with
    | error reason after =>
      rw [asked] at head
      exact ⟨⟨entry, by simp, head.1⟩, head.2⟩
    | ok alive middle =>
      rw [asked] at head
      have tail := ih (fun other member => each other (by simp [member])) head.2
      cases selected : select (stillAlive receive) rest middle with
      | error reason after =>
        rw [selected] at tail
        simp only [selected]
        obtain ⟨⟨other, member, panics⟩, reason⟩ := tail
        exact ⟨⟨other, by simp [member], panics⟩, reason⟩
      | ok kept after =>
        rw [selected] at tail
        simp only [selected]
        refine ⟨?_, tail.2⟩
        rintro ⟨other, member, panics⟩
        rcases List.mem_cons.mp member with rfl | member
        · exact head.1 panics
        · exact tail.1 ⟨other, member, panics⟩

theorem dropDeadListeners_settles {raw : RawNotifier L}
    (each : ∀ entry ∈ raw.listeners, ∀ before, keeps before →
      Settles (bad entry.listener) failure (fun _ => keeps) (receive entry.listener [] before))
    (initial : keeps world) :
    Settles (∃ entry ∈ raw.listeners, entry.wasAlive = true ∧ bad entry.listener) failure (fun _ => keeps)
      (raw.dropDeadListeners receive world).2 := by
  obtain ⟨order, same, ends⟩ := dropDeadListeners_outcome raw world
  have selected := select_settles (fun entry member => each entry (same.mem_iff.mp member)) initial
  simp only [same.mem_iff] at selected
  cases outcome : select (stillAlive receive) order world with
  | error reason after =>
    rw [outcome] at selected ends
    rw [ends]
    exact selected
  | ok kept after =>
    rw [outcome] at selected ends
    rw [ends]
    exact selected

/-- Besides the new listener, `listen` asks the flagged entries of a full table. -/
theorem register_settles [VecGrowth] {listener : L} {raw : RawNotifier L} {alive : Bool}
    (new : Settles (bad listener) failure (fun reply after => reply = alive ∧ keeps after)
      (receive listener [] world))
    (each : ∀ entry ∈ raw.listeners, ∀ before, keeps before →
      Settles (bad entry.listener) failure (fun _ => keeps) (receive entry.listener [] before)) :
    Settles (bad listener ∨ alive = true ∧ raw.capacity ≤ raw.listeners.length ∧
        ∃ entry ∈ raw.listeners, entry.wasAlive = true ∧ bad entry.listener) failure (fun _ => keeps)
      (raw.register receive listener world).2 := by
  unfold register
  cases asked : receive listener [] world with
  | error reason after =>
    rw [asked] at new
    exact ⟨.inl new.1, new.2⟩
  | ok reply middle =>
    rw [asked] at new
    obtain ⟨good, rfl, kept⟩ := new
    cases reply with
    | false => exact ⟨by simp [good], kept⟩
    | true =>
      by_cases full : raw.capacity ≤ raw.listeners.length
      · have pruned := dropDeadListeners_settles each kept
        simp only [dropDeadIfFull, ge_iff_le, if_pos full]
        cases outcome : raw.dropDeadListeners receive middle with
        | mk table result =>
          rw [outcome] at pruned
          cases result with
          | error reason after => exact ⟨.inr ⟨trivial, full, pruned.1⟩, pruned.2⟩
          | ok _ after => exact ⟨by simp [good, pruned.1], pruned.2⟩
      · simp only [dropDeadIfFull, ge_iff_le, if_neg full]
        exact ⟨by simp [good, full], kept⟩

end Settles

section Returns
variable {keeps : W → Prop} {world : W}

private theorem Settles.of_returns {α : Type} {bad : Prop} {result : Result Failure W α}
    (returned : ∃ value after, result = .ok value after ∧ keeps after) (good : ¬ bad) :
    Settles bad .illTyped (fun _ => keeps) result := by
  obtain ⟨value, after, rfl, kept⟩ := returned
  exact ⟨good, kept⟩

theorem deliver_returns {entries : List (NotifierEntry L)}
    (each : ∀ entry ∈ entries, ∀ before, keeps before →
      ∃ alive after, receive entry.listener messages before = .ok alive after ∧ keeps after)
    (initial : keeps world) :
    ∃ updated last, deliver receive messages entries world = (updated, .ok () last) ∧ keeps last := by
  have settled : Settles (∃ entry ∈ entries, False) .illTyped (fun _ => keeps)
      (deliver receive messages entries world).2 :=
    @deliver_settles _ _ _ _ _ (fun _ => False) _ _ _ _
      (fun entry member before kept => .of_returns (each entry member before kept) id) initial
  cases outcome : deliver receive messages entries world with
  | mk updated result =>
    obtain ⟨_, last, ended, kept⟩ := settled.ensured (by simp)
    rw [outcome] at ended
    cases ended
    exact ⟨updated, last, rfl, kept⟩

theorem register_returns [VecGrowth] {listener : L} {raw : RawNotifier L}
    (new : ∃ alive after, receive listener [] world = .ok alive after ∧ keeps after)
    (each : ∀ entry ∈ raw.listeners, ∀ before, keeps before →
      ∃ alive after, receive entry.listener [] before = .ok alive after ∧ keeps after) :
    ∃ updated last, raw.register receive listener world = (updated, .ok () last) ∧ keeps last := by
  obtain ⟨alive, after, asked, kept⟩ := new
  have first : Settles False .illTyped (fun reply after => reply = alive ∧ keeps after) (receive listener [] world) := by
    rw [asked]
    exact ⟨id, rfl, kept⟩
  have settled := @register_settles _ _ _ _ (fun _ => False) _ _ _ _ listener raw alive first
    fun entry member before kept => .of_returns (each entry member before kept) id
  cases outcome : raw.register receive listener world with
  | mk updated result =>
    obtain ⟨_, last, ended, kept⟩ := settled.ensured (by simp)
    rw [outcome] at ended
    cases ended
    exact ⟨updated, last, rfl, kept⟩

end Returns
end Nosy.RawNotifier
