import Nosy.Proofs.FlattenedTables

/-! How many messages a change delivers, and how many listeners a registration
leaves. Both are exact as long as the flags of living users are not cleared. -/

namespace Nosy.Sources
open RawNotifier
open EStateM (Result)

variable {V : Type}

/-- No user that is alive has an entry that counts as dead. -/
def World.Flagged (world : World V) : Prop :=
  ∀ place raw, world.notifierAt place = some (.opened raw) → ∀ entry ∈ raw.listeners,
    ∀ user, entry.listener = .user user → (world.users user).alive = true → entry.wasAlive = true

section Flagged
variable {before after : World V}

theorem World.Flagged.same (flagged : before.Flagged) (notifiers : ∀ place, after.notifierAt place = before.notifierAt place)
    (alive : ∀ user, (after.users user).alive = true → (before.users user).alive = true) : after.Flagged := by
  intro place raw found entry member user named living
  rw [notifiers] at found
  exact flagged place raw found entry member user named (alive user living)

private theorem World.Flagged.setNotifier (flagged : after.Flagged) {place : Place} {notifier : Notifier Listener}
    (table : ∀ raw, notifier = .opened raw → ∀ entry ∈ raw.listeners, ∀ user, entry.listener = .user user →
      (after.users user).alive = true → entry.wasAlive = true) : (after.setNotifier place notifier).Flagged := by
  intro other raw found entry member user named living
  rw [setNotifier_users] at living
  by_cases equal : other = place
  · subst other
    cases present : after.notifierAt place with
    | some old =>
      rw [setNotifier_self notifier present] at found
      exact table raw (Option.some.inj found) entry member user named living
    | none =>
      cases place with
      | cell id => cases present
      | flatten id =>
        have missing : after.flattens id = none := Option.map_eq_none_iff.mp present
        simp [World.setNotifier, World.notifierAt, setInner_flattens, missing] at found
  · rw [setNotifier_other after place notifier equal] at found
    exact flagged other raw found entry member user named living

theorem receive_flagged {notifyMany : Nat → List Unit → EStateM Failure (World V) Unit} {listener : Listener}
    {messages : List Unit} {alive : Bool}
    (sends : ∀ id messages before after, before.Flagged → notifyMany id messages before = .ok () after → after.Flagged)
    (flagged : before.Flagged) (returned : listener.receive notifyMany messages before = .ok alive after) :
    after.Flagged := by
  cases receive_cases returned with
  | @told id _ _ =>
    have steady := Steady.tell before id messages.length
    refine flagged.same (fun _ => rfl) fun user living => ?_
    rwa [steady.alive] at living
  | @counted id _ _ called =>
    apply sends id [()] _ _ _ called
    exact flagged.same (fun place => setInner_notifierAt before place id fun _ => rfl) fun _ living => living
  | passed _ called => exact sends _ messages _ _ flagged called
  | asked | dead | uncounted | stopped => exact flagged

private theorem operate_flagged {receive : Receive Unit Listener (World V)} {place : Place} {messages : List Unit}
    (each : ∀ listener before alive after, receive listener messages before = .ok alive after →
      Received messages listener before alive after)
    (keeps : ∀ listener before alive after, before.Flagged → receive listener messages before = .ok alive after →
      after.Flagged)
    (flagged : before.Flagged) (sent : World.operate place (Notifier.notifyMany receive messages) before = .ok () after) :
    after.Flagged := by
  obtain ⟨raw, updated, last, found, delivered, rfl⟩ := operate_delivered sent
  have answers : ∀ entry ∈ raw.listeners, ∀ start alive stop, Steady before start ∧ start.Flagged →
      receive entry.listener messages start = .ok alive stop →
      alive = entry.listener.alive before ∧ Steady before stop ∧ stop.Flagged := by
    intro entry _ start alive stop kept called
    obtain ⟨steady, flagged⟩ := kept
    obtain ⟨answer, sent⟩ := each _ _ _ _ called
    refine ⟨?_, steady.trans sent.moves.steady, keeps _ _ _ _ flagged called⟩
    rw [answer, steady.listener_alive]
  obtain ⟨flags, steady, still⟩ := deliver_flags answers ⟨.refl before, flagged⟩ delivered
  apply still.setNotifier
  intro table same entry member user named living
  cases same
  simp only [flags] at member
  obtain ⟨old, inside, rfl⟩ := List.mem_map.mp member
  rw [steady.alive] at living
  have kept := flagged place raw found old inside user named living
  have answered : old.listener.alive before = true := by
    rw [fetchAnd_listener] at named
    rw [named]
    exact living
  simp [NotifierEntry.fetchAnd, kept, answered]

theorem notifyMany_flagged {fuel id : Nat} {messages : List Unit} (flagged : before.Flagged)
    (sent : World.notifyMany fuel id messages before = .ok () after) : after.Flagged := by
  induction fuel generalizing id messages before after with
  | zero => cases sent
  | succ fuel ih =>
    apply operate_flagged _ _ flagged sent
    · intro listener before alive after called
      exact receive_ok (fun _ _ _ _ => notifyMany_ok) called
    · intro listener before alive after flagged called
      exact receive_flagged (fun _ _ _ _ => ih) flagged called

theorem World.receive_flagged {fuel : Nat} {listener : Listener} {messages : List Unit} {alive : Bool}
    (flagged : before.Flagged) (returned : World.receive fuel listener messages before = .ok alive after) :
    after.Flagged :=
  Nosy.Sources.receive_flagged (fun _ _ _ _ => notifyMany_flagged) flagged returned

theorem notify_flagged {fuel : Nat} {place : Place} (flagged : before.Flagged)
    (notified : World.notify fuel place before = .ok () after) : after.Flagged :=
  operate_flagged (fun _ _ _ _ => World.receive_ok) (fun _ _ _ _ => World.receive_flagged) flagged notified

end Flagged

section Messages
variable {fuel id : Nat} {before after : World V} {listeners own : List Listener} {user : Nat}

theorem notifyMany_tells {messages : List Unit} (listed : before.listenersAt (.flatten id) = some listeners)
    (users : ∀ listener ∈ listeners, ∃ user, listener = .user user) (living : (before.users user).alive = true)
    (sent : World.notifyMany fuel id messages before = .ok () after) :
    (after.users user).received = (before.users user).received + messages.length * listeners.count (.user user) := by
  cases fuel with
  | zero => cases sent
  | succ fuel =>
    obtain ⟨raw, updated, last, found, delivered, rfl⟩ := operate_delivered sent
    obtain ⟨_, present, rfl⟩ := listenersAt_some listed
    rw [found] at present
    cases present
    have tells : ∀ entry ∈ raw.listeners, ∀ (middle : World V) alive next, (middle.users user).alive = true →
        Listener.receive (World.notifyMany fuel) entry.listener messages middle = .ok alive next →
        (next.users user).alive = true ∧ (next.users user).received =
          (middle.users user).received + if entry.listener == .user user then messages.length else 0 := by
      intro entry member middle alive next still called
      obtain ⟨other, named⟩ := users entry.listener (List.mem_map_of_mem (f := (·.listener)) member)
      rw [named] at called ⊢
      by_cases equal : other = user
      · subst other
        cases receive_cases called with
        | told _ _ => simp [World.tell, still]
        | asked _ none => simp [none, still]
        | dead dying =>
          rw [still] at dying
          cases dying
      · have different : (Listener.user other == .user user) = false := by simp [equal]
        rw [different]
        cases receive_cases called with
        | told _ _ => simp [World.tell, Function.update_of_ne (Ne.symm equal), still]
        | asked | dead => exact ⟨still, rfl⟩
    rw [setNotifier_users]
    exact deliver_adds (fun world : World V => (world.users user).received) (· == Listener.user user) tells living delivered

/-- A notification of a cell is passed on once by each living listener that forwards. -/
theorem notify_tells (flat : Flat before) (listed : before.listenersAt (.cell id) = some listeners)
    (forwards : ∀ listener ∈ listeners, ∀ other, listener ≠ .user other)
    (listens : before.listenersAt (.flatten 0) = some own) (living : (before.users user).alive = true)
    (notified : World.notify fuel (.cell id) before = .ok () after) :
    (after.users user).received =
      (before.users user).received + own.count (.user user) * listeners.countP (Listener.alive before) := by
  obtain ⟨raw, updated, last, found, delivered, rfl⟩ := operate_delivered notified
  obtain ⟨_, present, rfl⟩ := listenersAt_some listed
  rw [found] at present
  cases present
  have users := flat.users listens
  obtain ⟨feeds, _⟩ := flat.cell listed
  have passes : ∀ entry ∈ raw.listeners, ∀ middle alive next, Steady before middle →
      World.receive fuel entry.listener [()] middle = .ok alive next →
      Steady before next ∧ (next.users user).received = (middle.users user).received +
        if entry.listener.alive before then own.count (.user user) else 0 := by
    intro entry member middle alive next steady called
    have inside : entry.listener ∈ raw.listeners.map (·.listener) := List.mem_map_of_mem member
    refine ⟨steady.trans (World.receive_ok called).2.moves.steady, ?_⟩
    have table := (steady.listeners (.flatten 0)).trans listens
    have lives : (middle.users user).alive = true := (steady.alive user).trans living
    have fed := feeds _ inside
    cases named : entry.listener with
    | user other => exact absurd named (forwards _ inside other)
    | outer flatten =>
      rw [named] at fed called
      cases fed
      cases receive_cases called with
      | counted _ sent =>
        have advanced := (Steady.advance middle 0).listeners (.flatten 0)
        have told := notifyMany_tells (advanced.trans table) users lives sent
        simpa [Listener.alive, World.advance, World.setInner] using told
      | uncounted none => cases none
    | inner flatten gate =>
      rw [named] at fed called
      cases fed
      cases receive_cases called with
      | passed isOpen sent =>
        have told := notifyMany_tells table users lives sent
        rw [steady.gates] at isOpen
        simpa [Listener.alive, isOpen] using told
      | stopped shut =>
        rw [steady.gates] at shut
        simp [Listener.alive, shut]
  rw [setNotifier_users]
  exact deliver_adds (fun world : World V => (world.users user).received) (Listener.alive before) passes
    (.refl before) delivered

end Messages

section Registrations
variable [VecGrowth] {fuel : Nat} {place : Place} {listener : Listener} {before after : World V}

omit [VecGrowth] in
private theorem asks_flagged (before : World V) :
    Answers (World.receive fuel) (fun world => Silent before world ∧ world.Flagged) (Listener.alive before) := by
  intro other start alive stop kept asked
  obtain ⟨silent, flagged⟩ := kept
  obtain ⟨answer, still⟩ := receive_asks before other start alive stop silent asked
  exact ⟨answer, still, World.receive_flagged flagged asked⟩

theorem listen_flagged (flagged : before.Flagged)
    (listened : World.operate place (Notifier.listen (World.receive fuel) listener) before = .ok () after) :
    after.Flagged := by
  obtain ⟨_, rfl⟩ | ⟨raw, table, last, found, registered, rfl⟩ := operate_registered listened
  · exact flagged.setNotifier nofun
  · obtain ⟨⟨silent, still⟩, registers⟩ := register_registers (asks_flagged before) ⟨.refl before, flagged⟩ registered
    apply still.setNotifier
    intro stored same entry member user named living
    cases same
    rw [silent.users] at living
    rcases registers.origin entry member with old | rfl
    · exact flagged place raw found entry old user named living
    · rfl

/-- A registration changes nothing about the other entries of a living user. -/
theorem listen_counts (flagged : before.Flagged)
    (listened : World.operate place (Notifier.listen (World.receive fuel) listener) before = .ok () after)
    {old : List Listener} (listed : before.listenersAt place = some old) {user : Nat}
    (living : (before.users user).alive = true) :
    ∃ new, after.listenersAt place = some new ∧
      new.count (.user user) = old.count (.user user) + if listener = .user user then 1 else 0 := by
  obtain ⟨raw, found, rfl⟩ := listenersAt_some listed
  obtain ⟨closed, _⟩ | ⟨_, table, last, same, registered, rfl⟩ := operate_registered listened
  · rw [found] at closed
    cases closed
  rw [found] at same
  cases same
  obtain ⟨⟨silent, _⟩, outcome⟩ := register_ok (asks_flagged before) ⟨.refl before, flagged⟩ registered
  have present : last.listenersAt place = some (raw.listeners.map (·.listener)) := by
    rw [silent.steady.listeners, listed]
  obtain ⟨_, present, _⟩ := listenersAt_some present
  refine ⟨table.listeners.map (·.listener), by simp only [World.listenersAt, setNotifier_self _ present], ?_⟩
  rcases outcome with ⟨dead, rfl⟩ | ⟨_, kept, permuted, shape⟩
  · have other : listener ≠ .user user := by
      intro same
      rw [same, Listener.alive, living] at dead
      cases dead
    rw [if_neg other, Nat.add_zero]
  · have survivors : (kept.map (·.listener)).count (.user user) = (raw.listeners.map (·.listener)).count (.user user) := by
      rw [(permuted.map _).count_eq, List.count_eq_countP, List.count_eq_countP, List.countP_map, List.countP_map,
        List.countP_filter]
      apply List.countP_congr
      intro entry member
      simp only [Function.comp_apply, Bool.and_eq_true, beq_iff_eq, and_iff_left_iff_imp]
      intro named
      have flag := flagged place raw found entry member user named living
      simp [survives, flag, named, Listener.alive, living]
    rw [shape, List.map_append, List.count_append, survivors]
    by_cases equal : listener = .user user <;> simp [equal]

end Registrations
end Nosy.Sources
