import Nosy.Proofs.ListenerContract

/-! A listener that has answered false is dead for good: drops and closings only
take away, and deliveries touch nothing that liveness depends on. -/

namespace Nosy
open RawNotifier Listener
open EStateM (Result)

variable {M C : Type}

theorem receive_dead {stores : Nat → Store M C} {notifyMany : Nat → List M → EStateM Failure (World M C) Unit}
    {listener : Listener M} {world : World M C} (dead : listener.alive world = false) (messages : List M) :
    listener.receive stores notifyMany messages world = .ok false world := by
  induction listener generalizing messages with
  | flag id => simp [Listener.receive, show (world.flags id).alive = false from dead]
  | storeLock id | weak id => simp [Listener.receive, show (world.stores id).alive = false from dead]
  | null => rfl
  | filter function zeroSized batch positive target ih =>
    have each := ih dead
    simp only [Listener.receive, Filter.receive]
    split
    · exact each _
    · generalize ([] : List M) = buffer
      induction messages generalizing buffer with
      | nil => exact each buffer
      | cons message rest later =>
        simp only [Filter.buffered]
        split
        · exact later buffer
        · split
          · simp only [each]
          · exact later _
  | gate id target ih =>
    simp only [Listener.receive]
    split
    next isOpen => exact ih (by simpa [alive, isOpen] using dead) messages
    · rfl
  | pair first second left right =>
    obtain ⟨one, two⟩ := Bool.or_eq_false_iff.mp dead
    simp only [Listener.receive, left one, right two, Bool.or_self]
  | forward id => simp [Listener.receive, show (world.notifiers id).owned = false from dead]

/-- Nothing comes back to life. -/
structure Ages (before after : World M C) : Prop where
  flags : ∀ id, (after.flags id).alive = true → (before.flags id).alive = true
  stores : ∀ id, (after.stores id).alive = true → (before.stores id).alive = true
  gates : ∀ id, after.gates id = true → before.gates id = true
  owned : ∀ id, (after.notifiers id).owned = true → (before.notifiers id).owned = true

namespace Ages
variable {before middle after : World M C}

private theorem refl (world : World M C) : Ages world world := ⟨fun _ => id, fun _ => id, fun _ => id, fun _ => id⟩

private theorem trans (first : Ages before middle) (second : Ages middle after) : Ages before after :=
  ⟨fun id => first.flags id ∘ second.flags id, fun id => first.stores id ∘ second.stores id,
    fun id => first.gates id ∘ second.gates id, fun id => first.owned id ∘ second.owned id⟩

private theorem of_same (same : Same before after) : Ages before after :=
  ⟨fun id => by rw [same.flags]; exact fun alive => alive, fun id => by rw [same.stores]; exact fun alive => alive,
    fun id => by rw [same.gates]; exact fun alive => alive, fun id => by rw [same.owned]; exact fun alive => alive⟩

private theorem setNotifier (world : World M C) (id : Nat) (notifier : Notifier (Listener M)) :
    Ages world (world.setNotifier id notifier) := by
  refine ⟨fun _ alive => alive, fun _ alive => alive, fun _ isOpen => isOpen, fun other owned => ?_⟩
  by_cases equal : other = id
  · subst other
    simpa [World.setNotifier] using owned
  · simpa [World.setNotifier, Function.update_of_ne equal] using owned

private theorem alive {listener : Listener M} (ages : Ages before after) (living : listener.alive after = true) :
    listener.alive before = true := by
  induction listener with
  | flag id => exact ages.flags id living
  | storeLock id | weak id => exact ages.stores id living
  | null => exact living
  | filter function zeroSized batch positive target ih => exact ih living
  | gate id target ih =>
    obtain ⟨isOpen, target⟩ := Bool.and_eq_true_iff.mp living
    exact Bool.and_eq_true_iff.mpr ⟨ages.gates id isOpen, ih target⟩
  | pair first second left right =>
    rcases Bool.or_eq_true_iff.mp living with one | two
    · exact Bool.or_eq_true_iff.mpr (.inl (left one))
    · exact Bool.or_eq_true_iff.mpr (.inr (right two))
  | forward id => exact ages.owned id living

end Ages

/-- The state a call leaves behind, also when it panics. -/
def leftBehind {W α : Type} : Result Failure W α → W
  | .ok _ after | .error _ after => after

private theorem buffered_ages {function : M → Option M} {batch : Nat}
    {target : List M → EStateM Failure (World M C) Bool}
    (each : ∀ messages before, Ages before (leftBehind (target messages before)))
    (messages buffer : List M) (before : World M C) :
    Ages before (leftBehind (Filter.buffered function batch target messages buffer before)) := by
  induction messages generalizing buffer before with
  | nil => exact each buffer before
  | cons message rest ih =>
    simp only [Filter.buffered]
    split
    · exact ih buffer before
    · split
      · have flushed := each buffer before
        cases called : target buffer before with
        | error failure after => simpa only [called] using flushed
        | ok reply after =>
          rw [called] at flushed
          cases reply with
          | false => exact flushed
          | true => exact flushed.trans (ih _ after)
      · exact ih _ before

theorem receive_ages {stores : Nat → Store M C} {notifyMany : Nat → List M → EStateM Failure (World M C) Unit}
    (sends : ∀ id messages before, Ages before (leftBehind (notifyMany id messages before)))
    (listener : Listener M) (messages : List M) (before : World M C) :
    Ages before (leftBehind (listener.receive stores notifyMany messages before)) := by
  induction listener generalizing messages before with
  | flag id =>
    simp only [Listener.receive]
    split
    · simp only [leftBehind]
      split
      · exact .refl before
      · exact .of_same (.setFlag before id)
    · exact .refl before
  | storeLock id =>
    simp only [Listener.receive]
    split
    · simp only [leftBehind]
      split
      · exact .refl before
      · exact .of_same (.record before (stores id) id messages)
    · exact .refl before
  | weak id =>
    simp only [Listener.receive]
    split
    · exact .refl before
    · split
      · exact .of_same (.record before (stores id) id messages)
      · exact .refl before
  | null => exact .refl before
  | filter function zeroSized batch positive target ih =>
    simp only [Listener.receive, Filter.receive]
    split
    · exact ih _ before
    · exact buffered_ages ih messages [] before
  | gate id target ih =>
    simp only [Listener.receive]
    split
    · exact ih messages before
    · exact .refl before
  | pair first second left right =>
    have head := left messages before
    simp only [Listener.receive]
    cases called : first.receive stores notifyMany messages before with
    | error failure after => simpa only [called] using head
    | ok reply middle =>
      have tail := right messages middle
      rw [called] at head
      cases answered : second.receive stores notifyMany messages middle with
      | error failure after =>
        rw [answered] at tail
        simp only [answered]
        exact head.trans tail
      | ok answer after =>
        rw [answered] at tail
        simp only [answered]
        exact head.trans tail
  | forward id =>
    have sent := sends id messages before
    simp only [Listener.receive]
    split
    · cases called : notifyMany id messages before with
      | error failure after =>
        rw [called] at sent
        exact sent
      | ok _ after =>
        rw [called] at sent
        exact sent
    · exact .refl before

private theorem deliver_ages {receive : Receive M (Listener M) (World M C)} {messages : List M}
    (each : ∀ listener before, Ages before (leftBehind (receive listener messages before)))
    (entries : List (NotifierEntry (Listener M))) (before : World M C) :
    Ages before (leftBehind (deliver receive messages entries before).2) := by
  induction entries generalizing before with
  | nil => exact .refl before
  | cons entry rest ih =>
    have head := each entry.listener before
    simp only [deliver]
    cases called : receive entry.listener messages before with
    | error failure after =>
      rw [called] at head
      exact head
    | ok alive middle =>
      rw [called] at head
      exact head.trans (ih middle)

theorem notifyMany_ages (stores : Nat → Store M C) (fuel id : Nat) (messages : List M) (before : World M C) :
    Ages before (leftBehind (World.notifyMany stores fuel id messages before)) := by
  induction fuel generalizing id messages before with
  | zero => exact .refl before
  | succ fuel ih =>
    have received (listener : Listener M) (before : World M C) :
        Ages before (leftBehind (listener.receive stores (World.notifyMany stores fuel) messages before)) :=
      receive_ages ih listener messages before
    simp only [World.notifyMany, World.operate]
    cases found : (before.notifiers id).notifier with
    | closed => exact .setNotifier before id _
    | opened raw =>
      have delivered := deliver_ages received raw.listeners before
      simp only [Notifier.notifyMany, RawNotifier.notifyMany]
      cases outcome : deliver (Listener.receive stores (World.notifyMany stores fuel)) messages raw.listeners before with
      | mk updated result =>
        rw [outcome] at delivered
        cases result <;> exact delivered.trans (.setNotifier _ id _)

inductive Event (M : Type) where
  | dropFlag (id : Nat)
  | dropStore (id : Nat)
  | dropGate (id : Nat)
  | dropNotifier (id : Nat)
  | close (id : Nat)
  | deliver (fuel : Nat) (listener : Listener M) (messages : List M)
  | notify (fuel : Nat) (id : Nat) (messages : List M)

def Event.happen (stores : Nat → Store M C) (world : World M C) : Event M → World M C
  | .dropFlag id => { world with flags := Function.update world.flags id { world.flags id with alive := false } }
  | .dropStore id => { world with stores := Function.update world.stores id { world.stores id with alive := false } }
  | .dropGate id => { world with gates := Function.update world.gates id false }
  | .dropNotifier id =>
    { world with notifiers := Function.update world.notifiers id { world.notifiers id with owned := false } }
  | .close id => world.close id
  | .deliver fuel listener messages => leftBehind (World.receive stores fuel listener messages world)
  | .notify fuel id messages => leftBehind (World.notifyMany stores fuel id messages world)

private theorem dropped_alive {table : Nat → Destination C} {id other : Nat}
    (living : (Function.update table id { table id with alive := false } other).alive = true) :
    (table other).alive = true := by
  by_cases equal : other = id
  · subst other
    simp at living
  · simpa [Function.update_of_ne equal] using living

private theorem dropped_gate {gates : Nat → Bool} {id other : Nat}
    (isOpen : Function.update gates id false other = true) : gates other = true := by
  by_cases equal : other = id
  · subst other
    simp at isOpen
  · simpa [Function.update_of_ne equal] using isOpen

private theorem dropped_owned {nodes : Nat → Node M} {id other : Nat}
    (owned : (Function.update nodes id { nodes id with owned := false } other).owned = true) :
    (nodes other).owned = true := by
  by_cases equal : other = id
  · subst other
    simp at owned
  · simpa [Function.update_of_ne equal] using owned

private theorem Event.happen_ages (stores : Nat → Store M C) (world : World M C) (event : Event M) :
    Ages world (event.happen stores world) := by
  have same := Ages.refl world
  cases event with
  | dropFlag id => exact ⟨fun _ => dropped_alive, same.stores, same.gates, same.owned⟩
  | dropStore id => exact ⟨same.flags, fun _ => dropped_alive, same.gates, same.owned⟩
  | dropGate id => exact ⟨same.flags, same.stores, fun _ => dropped_gate, same.owned⟩
  | dropNotifier id => exact ⟨same.flags, same.stores, same.gates, fun _ => dropped_owned⟩
  | close id => exact .setNotifier world id _
  | deliver fuel listener messages => exact receive_ages (notifyMany_ages stores fuel) listener messages world
  | notify fuel id messages => exact notifyMany_ages stores fuel id messages world

theorem run_ages (stores : Nat → Store M C) (events : List (Event M)) (world : World M C) :
    Ages world (events.foldl (Event.happen stores) world) := by
  induction events generalizing world with
  | nil => exact .refl world
  | cons event rest ih => exact (event.happen_ages stores world).trans (ih _)

private theorem false_is_final {stores : Nat → Store M C} {listener : Listener M} {world : World M C}
    (dead : listener.alive world = false) (events : List (Event M)) (fuel : Nat) (messages : List M) :
    World.receive stores fuel listener messages (events.foldl (Event.happen stores) world) =
      .ok false (events.foldl (Event.happen stores) world) := by
  refine receive_dead ?_ messages
  apply Bool.eq_false_iff.mpr
  intro living
  rw [(run_ages stores events world).alive living] at dead
  cases dead

/-- The contract, with enough fuel for the forwarding chains: an empty batch
changes no destination; two batches give each route the messages of one, and the
same answer; and false is final. -/
theorem receive_contract (stores : Nat → Store M C) (world : World M C) (acyclic : Acyclic world)
    (listener : Listener M) (unblocked : ¬ ReachesClosed world listener) :
    ∃ bound, ∀ fuel, bound ≤ fuel →
      (∃ alive after, World.receive stores fuel listener [] world = .ok alive after ∧
        after.destinations = world.destinations) ∧
      (∀ first second, ∃ alive whole middle last,
        World.receive stores fuel listener (first ++ second) world = .ok alive whole ∧
        World.receive stores fuel listener first world = .ok alive middle ∧
        World.receive stores fuel listener second middle = .ok alive last ∧
        whole.destinations = performAll stores (world.deliveries fuel listener (first ++ second)) world.destinations ∧
        middle.destinations = performAll stores (world.deliveries fuel listener first) world.destinations ∧
        last.destinations = performAll stores (middle.deliveries fuel listener second) middle.destinations ∧
        ∀ route, along route (world.deliveries fuel listener (first ++ second)) =
          along route (world.deliveries fuel listener first) ++ along route (middle.deliveries fuel listener second)) ∧
      (∀ messages after, World.receive stores fuel listener messages world = .ok false after →
        ∀ (events : List (Event M)) more later, World.receive stores later listener more (events.foldl (Event.happen stores) after) =
          .ok false (events.foldl (Event.happen stores) after)) := by
  obtain ⟨rank, ranks⟩ := acyclic
  obtain ⟨bound, sufficient⟩ := listener.exists_within rank
  refine ⟨bound, fun fuel enough => ?_⟩
  have within := sufficient fuel enough
  have additive : Additive (world.deliveries fuel listener) :=
    deliveries_additive (forwarded_additive world fuel) listener
  have performs (messages : List M) : Performs stores world (listener.alive world)
      (world.deliveries fuel listener messages) world (World.receive stores fuel listener messages world) :=
    World.receive_performs ranks within unblocked messages
  refine ⟨?_, fun first second => ?_, fun messages after returned events more later => ?_⟩
  · obtain ⟨after, returned, _, performed⟩ := performs []
    refine ⟨_, after, returned, ?_⟩
    rw [performed, additive.empty]
    rfl
  · obtain ⟨whole, atOnce, _, wholly⟩ := performs (first ++ second)
    obtain ⟨middle, begun, same, halfway⟩ := performs first
    have still : ¬ ReachesClosed middle listener := fun reaches => unblocked ((reachesClosed_same same).mp reaches)
    have performs : Performs stores middle (listener.alive middle) (middle.deliveries fuel listener second) middle
        (World.receive stores fuel listener second middle) :=
      World.receive_performs (ranks.same same) within still second
    obtain ⟨last, ended, _, completed⟩ := performs
    refine ⟨_, whole, middle, last, atOnce, begun, by rw [ended, alive_same same], wholly, halfway, completed, ?_⟩
    intro route
    have unchanged : middle.deliveries fuel listener second = world.deliveries fuel listener second := by
      simp only [World.deliveries, forwarded_same same, deliveries_same same]
    rw [unchanged]
    exact additive.append route first second
  · obtain ⟨_, answered, same, _⟩ := performs messages
    rw [answered] at returned
    injection returned with dead identical
    subst identical
    exact false_is_final ((alive_same same listener).trans dead) events later more

/-- Notifier 0 has one listener, which records its messages. -/
def diamond : World Nat (List Nat) :=
  match @World.listen _ _ logs .usual 1 0 (.storeLock 0) fresh with
  | .ok _ after | .error _ after => after

/-- Two forwarders to it. -/
def twice : Listener Nat := .pair (.forward 0) (.forward 0)

private theorem diamond_acyclic : Acyclic diamond := by
  refine ⟨fun _ => 0, fun id listeners table listener member target inside => ?_⟩
  match id with
  | 0 =>
    cases table
    cases List.mem_singleton.mp member
    cases inside
  | _ + 1 =>
    cases table
    cases member

private theorem diamond_unblocked : ¬ ReachesClosed diamond twice := by
  have forward : ¬ ReachesClosed diamond (.forward 0) := by
    rintro (_ | _ | _ | _ | ⟨_, closed⟩ | ⟨_, table, member, reaches⟩)
    · cases closed
    · cases table
      cases List.mem_singleton.mp member
      cases reaches
  intro reaches
  cases reaches with
  | first reaches => exact forward reaches
  | second reaches => exact forward reaches

theorem receive_contract_diamond : ∃ fuel alive whole middle last,
    World.receive logs fuel twice ([1, 2] ++ [3]) diamond = .ok alive whole ∧
    World.receive logs fuel twice [1, 2] diamond = .ok alive middle ∧
    World.receive logs fuel twice [3] middle = .ok alive last ∧
    ∀ route, along route (diamond.deliveries fuel twice ([1, 2] ++ [3])) =
      along route (diamond.deliveries fuel twice [1, 2]) ++ along route (middle.deliveries fuel twice [3]) := by
  obtain ⟨bound, contract⟩ := receive_contract logs diamond diamond_acyclic twice diamond_unblocked
  obtain ⟨_, batches, _⟩ := contract bound (Nat.le_refl _)
  obtain ⟨alive, whole, middle, last, atOnce, begun, ended, _, _, _, routes⟩ := batches [1, 2] [3]
  exact ⟨bound, alive, whole, middle, last, atOnce, begun, ended, routes⟩

/-- The only listener of the notifier gets 1, 2, 1, 2 from one batch, and
1, 1, 2, 2 from two. -/
theorem batches_reorder : ¬ ∀ (world : World Nat (List Nat)) (listener : Listener Nat), Acyclic world →
    ¬ ReachesClosed world listener → ∃ bound, ∀ fuel, bound ≤ fuel → ∀ first second alive reply answer whole middle last,
      World.receive logs fuel listener (first ++ second) world = .ok alive whole →
      World.receive logs fuel listener first world = .ok reply middle →
      World.receive logs fuel listener second middle = .ok answer last →
      ∀ id, (whole.stores id).contents = (last.stores id).contents := by
  intro claimed
  obtain ⟨bound, equal⟩ := claimed diamond twice diamond_acyclic diamond_unblocked
  have different := equal (bound + 1) (Nat.le_succ bound) [1] [2] true true true _ _ _ rfl rfl rfl 0
  exact absurd different (by decide)

end Nosy
