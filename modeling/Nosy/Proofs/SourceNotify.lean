import Nosy.Proofs.NotifierTable
import Nosy.Source

/-! What sending does to cells and sources. A notification moves generations and
reaches listeners; who is registered, with whom and about what stays as it is. -/

namespace Nosy.Sources
open RawNotifier
open EStateM (Result)

variable {V : Type}

def World.listenersAt (world : World V) (place : Place) : Option (List Listener) :=
  match world.notifierAt place with
  | some (.opened raw) => some (raw.listeners.map (·.listener))
  | _ => none

/-- The listener is registered and has never answered false. -/
def World.Stores (world : World V) (place : Place) (listener : Listener) : Prop :=
  ∃ raw, world.notifierAt place = some (.opened raw) ∧ ⟨listener, true⟩ ∈ raw.listeners

def World.generation (world : World V) (id : Nat) : Option UInt32 :=
  (world.flattens id).map (·.generationFromListening)

/-- What a flattened source is built on and what it has cached. -/
def World.core (world : World V) (id : Nat) : Option (Source V × Option (State V)) :=
  (world.flattens id).map fun inner => (inner.sourceOfSource, inner.state)

def Listener.alive (world : World V) : Listener → Bool
  | .user id => (world.users id).alive
  | .outer _ => true
  | .inner _ gate => world.gates gate

section Parts
variable (world : World V) (place : Place) (notifier : Notifier Listener) (id : Nat)

@[simp] theorem setNotifier_users : (world.setNotifier place notifier).users = world.users := by
  cases place <;> rfl

@[simp] theorem setNotifier_gates : (world.setNotifier place notifier).gates = world.gates := by
  cases place <;> rfl

@[simp] theorem setNotifier_nextGate : (world.setNotifier place notifier).nextGate = world.nextGate := by
  cases place <;> rfl

@[simp] theorem setNotifier_value : ((world.setNotifier place notifier).cells id).value = (world.cells id).value := by
  cases place with
  | cell other => by_cases equal : id = other <;> simp [World.setNotifier, equal]
  | flatten other => rfl

@[simp] theorem setNotifier_alive (listener : Listener) :
    listener.alive (world.setNotifier place notifier) = listener.alive world := by
  cases listener <;> simp [Listener.alive]

theorem setInner_flattens (change : Inner V → Inner V) (other : Nat) :
    (world.setInner id change).flattens other =
      if other = id then (world.flattens id).map change else world.flattens other := by
  simp [World.setInner, Function.update_apply]

@[simp] theorem setNotifier_core : (world.setNotifier place notifier).core id = world.core id := by
  cases place with
  | cell other => rfl
  | flatten other =>
    by_cases equal : id = other
    · subst other
      cases found : world.flattens id <;> simp [World.core, World.setNotifier, setInner_flattens, found]
    · simp [World.core, World.setNotifier, setInner_flattens, equal]

@[simp] theorem setNotifier_generation :
    (world.setNotifier place notifier).generation id = world.generation id := by
  cases place with
  | cell other => rfl
  | flatten other =>
    by_cases equal : id = other
    · subst other
      cases found : world.flattens id <;> simp [World.generation, World.setNotifier, setInner_flattens, found]
    · simp [World.generation, World.setNotifier, setInner_flattens, equal]

variable {world place} in
theorem setNotifier_self {old : Notifier Listener} (found : world.notifierAt place = some old) :
    (world.setNotifier place notifier).notifierAt place = some notifier := by
  cases place with
  | cell other => simp [World.setNotifier, World.notifierAt]
  | flatten other =>
    obtain ⟨inner, found, _⟩ := Option.map_eq_some_iff.mp found
    simp [World.setNotifier, World.notifierAt, setInner_flattens, found]

theorem setNotifier_other {other : Place} (different : other ≠ place) :
    (world.setNotifier place notifier).notifierAt other = world.notifierAt other := by
  cases place with
  | cell id =>
    cases other with
    | cell next =>
      have distinct : next ≠ id := fun same => different (by rw [same])
      simp [World.setNotifier, World.notifierAt, Function.update_of_ne distinct]
    | flatten next => rfl
  | flatten id =>
    cases other with
    | cell next => rfl
    | flatten next =>
      have distinct : next ≠ id := fun same => different (by rw [same])
      simp [World.setNotifier, World.notifierAt, setInner_flattens, distinct]

/-- A change of a flattened source that leaves its notifier leaves all notifiers. -/
theorem setInner_notifierAt {change : Inner V → Inner V} (kept : ∀ inner, (change inner).notifier = inner.notifier) :
    (world.setInner id change).notifierAt place = world.notifierAt place := by
  cases place with
  | cell next => rfl
  | flatten next =>
    by_cases equal : next = id
    · subst next
      cases found : world.flattens id <;> simp [World.notifierAt, setInner_flattens, found, kept]
    · simp [World.notifierAt, setInner_flattens, equal]

end Parts

structure Steady (before after : World V) : Prop where
  values : ∀ id, (after.cells id).value = (before.cells id).value
  core : ∀ id, after.core id = before.core id
  listeners : ∀ place, after.listenersAt place = before.listenersAt place
  stores : ∀ place listener, listener.alive before = true → before.Stores place listener → after.Stores place listener
  gates : after.gates = before.gates
  nextGate : after.nextGate = before.nextGate
  alive : ∀ user, (after.users user).alive = (before.users user).alive
  received : ∀ user, (before.users user).received ≤ (after.users user).received

namespace Steady
variable {before middle after : World V}

theorem listener_alive (steady : Steady before after) (listener : Listener) :
    listener.alive after = listener.alive before := by
  cases listener with
  | user id => exact steady.alive id
  | outer id => rfl
  | inner id gate => simp only [Listener.alive, steady.gates]

theorem refl (world : World V) : Steady world world :=
  ⟨fun _ => rfl, fun _ => rfl, fun _ => rfl, fun _ _ _ stored => stored, rfl, rfl, fun _ => rfl, fun _ => Nat.le_refl _⟩

theorem trans (first : Steady before middle) (second : Steady middle after) : Steady before after where
  values id := (second.values id).trans (first.values id)
  core id := (second.core id).trans (first.core id)
  listeners place := (second.listeners place).trans (first.listeners place)
  stores place listener living stored :=
    second.stores place listener ((first.listener_alive listener).trans living) (first.stores place listener living stored)
  gates := second.gates.trans first.gates
  nextGate := second.nextGate.trans first.nextGate
  alive user := (second.alive user).trans (first.alive user)
  received user := Nat.le_trans (first.received user) (second.received user)

theorem advance (world : World V) (id : Nat) : Steady world (world.advance id) := by
  have notifiers (place : Place) : (world.advance id).notifierAt place = world.notifierAt place :=
    setInner_notifierAt world place id fun _ => rfl
  refine ⟨fun _ => rfl, fun other => ?_, fun place => ?_, fun place listener _ stored => ?_, rfl, rfl,
    fun _ => rfl, fun _ => Nat.le_refl _⟩
  · by_cases equal : other = id
    · subst other
      cases found : world.flattens id <;> simp [World.core, World.advance, setInner_flattens, found]
    · simp [World.core, World.advance, setInner_flattens, equal]
  · simp only [World.listenersAt, notifiers]
  · simpa only [World.Stores, notifiers] using stored

theorem tell (world : World V) (id messages : Nat) : Steady world (world.tell id messages) := by
  refine ⟨fun _ => rfl, fun _ => rfl, fun _ => rfl, fun _ _ _ stored => stored, rfl, rfl, fun user => ?_, fun user => ?_⟩
  · by_cases equal : user = id <;> simp [World.tell, equal]
  · by_cases equal : user = id <;> simp [World.tell, equal]

private theorem setNotifier {place : Place} {raw updated : RawNotifier Listener} (steady : Steady before after)
    (found : before.notifierAt place = some (.opened raw))
    (flags : updated.listeners = raw.listeners.map fun entry => entry.fetchAnd (entry.listener.alive before)) :
    Steady before (after.setNotifier place (.opened updated)) := by
  have names : updated.listeners.map (·.listener) = raw.listeners.map (·.listener) := by simp [flags, Function.comp_def]
  have present : ∃ old, after.notifierAt place = some old := by
    cases missing : after.notifierAt place with
    | some old => exact ⟨old, rfl⟩
    | none =>
      have same := steady.listeners place
      simp [World.listenersAt, found, missing] at same
  obtain ⟨old, present⟩ := present
  refine ⟨by simpa using steady.values, by simpa using steady.core, fun other => ?_, fun other listener living stored => ?_,
    by simpa using steady.gates, by simpa using steady.nextGate, by simpa using steady.alive,
    by simpa using steady.received⟩
  · by_cases equal : other = place
    · subst other
      simp only [World.listenersAt, setNotifier_self _ present, found, names]
    · simpa only [World.listenersAt, setNotifier_other after place _ equal] using steady.listeners other
  · by_cases equal : other = place
    · subst other
      obtain ⟨table, same, member⟩ := stored
      rw [found] at same
      cases same
      refine ⟨updated, setNotifier_self _ present, ?_⟩
      rw [flags]
      exact List.mem_map.mpr ⟨_, member, by simp [NotifierEntry.fetchAnd, living]⟩
    · simpa only [World.Stores, setNotifier_other after place _ equal] using steady.stores other listener living stored

end Steady

/-- The listener was called with a message, given which notifiers were rung. -/
def HeardBy (rung : Nat → Prop) (before after : World V) : Listener → Prop
  | .user id => (before.users id).alive = true → (before.users id).received < (after.users id).received
  | .outer id => rung id
  | .inner id gate => before.gates gate = true → rung id

def Closed (rung : Nat → Prop) (before after : World V) : Prop :=
  ∀ id, rung id → ∀ listeners, before.listenersAt (.flatten id) = some listeners →
    ∀ listener ∈ listeners, HeardBy rung before after listener

/-- The greatest consistent set of rung notifiers. -/
def Rung (before after : World V) (id : Nat) : Prop := ∃ rung, Closed rung before after ∧ rung id

def Heard (before after : World V) (listener : Listener) : Prop := HeardBy (Rung before after) before after listener

private theorem HeardBy.mono {rung wider : Nat → Prop} {before after : World V} {listener : Listener}
    (heard : HeardBy rung before after listener) (implies : ∀ id, rung id → wider id) :
    HeardBy wider before after listener := by
  cases listener with
  | user id => exact heard
  | outer id => exact implies id heard
  | inner id gate => exact fun isOpen => implies id (heard isOpen)

theorem Rung.heard {before after : World V} {id : Nat} (rung : Rung before after id) {listeners : List Listener}
    (table : before.listenersAt (.flatten id) = some listeners) {listener : Listener} (member : listener ∈ listeners) :
    Heard before after listener := by
  obtain ⟨all, closed, inside⟩ := rung
  exact (closed id inside listeners table listener member).mono fun other inside => ⟨all, closed, inside⟩

private theorem Rung.intro {before after : World V} {id : Nat}
    (heard : ∀ listeners, before.listenersAt (.flatten id) = some listeners →
      ∀ listener ∈ listeners, Heard before after listener) : Rung before after id := by
  refine ⟨fun other => other = id ∨ Rung before after other, fun other inside listeners table listener member => ?_, .inl rfl⟩
  rcases inside with rfl | rung
  · exact (heard listeners table listener member).mono fun _ => .inr
  · exact (rung.heard table member).mono fun _ => .inr

private theorem Heard.extend {first before after last : World V} (started : Steady first before)
    (ended : ∀ user, (after.users user).received ≤ (last.users user).received) {listener : Listener} (heard : Heard before after listener) : Heard first last listener := by
  have widened (rung : Nat → Prop) (listener : Listener) (heard : HeardBy rung before after listener) :
      HeardBy rung first last listener := by
    cases listener with
    | user id =>
      intro living
      have more := heard ((started.alive id).trans living)
      exact Nat.lt_of_le_of_lt (started.received id) (Nat.lt_of_lt_of_le more (ended id))
    | outer id => exact heard
    | inner id gate =>
      intro isOpen
      exact heard (by rw [started.gates]; exact isOpen)
  apply (widened _ listener heard).mono
  rintro id ⟨rung, closed, inside⟩
  refine ⟨rung, fun other inside listeners table listener member => ?_, inside⟩
  exact widened rung listener (closed other inside listeners ((started.listeners _).trans table) listener member)

private theorem Rung.extend {first before after last : World V} (started : Steady first before)
    (ended : ∀ user, (after.users user).received ≤ (last.users user).received) {id : Nat}
    (rung : Rung before after id) : Rung first last id :=
  @Heard.extend _ _ _ _ _ started ended (.outer id) rung

/-- Only the generations of sources whose notifiers were rung have moved. -/
structure Moves (before after : World V) : Prop where
  steady : Steady before after
  generations : ∀ id, after.generation id ≠ before.generation id → Rung before after id

private theorem Moves.refl (world : World V) : Moves world world := ⟨.refl world, fun _ changed => absurd rfl changed⟩

private theorem Moves.trans {before middle after : World V} (first : Moves before middle)
    (second : Moves middle after) :
    Moves before after := by
  refine ⟨first.steady.trans second.steady, fun id changed => ?_⟩
  by_cases same : middle.generation id = before.generation id
  · exact (second.generations id (same ▸ changed)).extend first.steady fun _ => Nat.le_refl _
  · exact (first.generations id same).extend (.refl _) second.steady.received

/-- Asking for liveness reaches nobody. -/
structure Silent (before after : World V) : Prop where
  steady : Steady before after
  generations : ∀ id, after.generation id = before.generation id
  users : after.users = before.users

theorem Silent.refl (world : World V) : Silent world world := ⟨.refl world, fun _ => rfl, rfl⟩

theorem Silent.trans {before middle after : World V} (first : Silent before middle) (second : Silent middle after) :
    Silent before after :=
  ⟨first.steady.trans second.steady, fun id => (second.generations id).trans (first.generations id),
    second.users.trans first.users⟩

theorem Silent.moves {before after : World V} (silent : Silent before after) : Moves before after :=
  ⟨silent.steady, fun id changed => absurd (silent.generations id) changed⟩

/-- A batch was sent: it reached what it had to if there was a message in it. -/
structure Sent (messages : List Unit) (reached : Prop) (before after : World V) : Prop where
  moves : Moves before after
  reached : messages ≠ [] → reached
  silent : messages = [] → Silent before after

/-- The specification of `receive` for one listener. -/
def Received (messages : List Unit) (listener : Listener) (before : World V) (alive : Bool) (after : World V) : Prop :=
  alive = listener.alive before ∧ Sent messages (Heard before after listener) before after

section Sending
variable {messages : List Unit}

/-- What a call of a listener can do, and when. -/
inductive Receives (notifyMany : Nat → List Unit → EStateM Failure (World V) Unit) (messages : List Unit)
    (before : World V) : Listener → Bool → World V → Prop
  | told {id : Nat} : (before.users id).alive = true → messages ≠ [] →
      Receives notifyMany messages before (.user id) true (before.tell id messages.length)
  | asked {id : Nat} : (before.users id).alive = true → messages = [] →
      Receives notifyMany messages before (.user id) true before
  | dead {id : Nat} : (before.users id).alive = false → Receives notifyMany messages before (.user id) false before
  | counted {id : Nat} {after : World V} : messages ≠ [] → notifyMany id [()] (before.advance id) = .ok () after →
      Receives notifyMany messages before (.outer id) true after
  | uncounted {id : Nat} : messages = [] → Receives notifyMany messages before (.outer id) true before
  | passed {id gate : Nat} {after : World V} : before.gates gate = true → notifyMany id messages before = .ok () after →
      Receives notifyMany messages before (.inner id gate) true after
  | stopped {id gate : Nat} : before.gates gate = false → Receives notifyMany messages before (.inner id gate) false before

theorem receive_cases {notifyMany : Nat → List Unit → EStateM Failure (World V) Unit} {listener : Listener}
    {before after : World V} {alive : Bool} (returned : listener.receive notifyMany messages before = .ok alive after) :
    Receives notifyMany messages before listener alive after := by
  cases listener with
  | user id =>
    simp only [Listener.receive] at returned
    split at returned
    next living =>
      cases returned
      split
      next empty => exact .asked living (List.isEmpty_iff.mp empty)
      next full => exact .told living (mt List.isEmpty_iff.mpr full)
    next dying =>
      cases returned
      exact .dead (Bool.not_eq_true _ ▸ dying)
  | outer id =>
    simp only [Listener.receive] at returned
    split at returned
    next empty =>
      cases returned
      exact .uncounted (List.isEmpty_iff.mp empty)
    next full =>
      cases called : notifyMany id [()] (before.advance id) with
      | error failure stopped => simp [called] at returned
      | ok _ last =>
        simp only [called] at returned
        cases returned
        exact .counted (mt List.isEmpty_iff.mpr full) called
  | inner id gate =>
    simp only [Listener.receive] at returned
    split at returned
    next isOpen =>
      cases called : notifyMany id messages before with
      | error failure stopped => simp [called] at returned
      | ok _ last =>
        simp only [called] at returned
        cases returned
        exact .passed isOpen called
    next shut =>
      cases returned
      exact .stopped (Bool.not_eq_true _ ▸ shut)

theorem receive_ok {notifyMany : Nat → List Unit → EStateM Failure (World V) Unit} {listener : Listener}
    {before after : World V} {alive : Bool}
    (sends : ∀ id messages before after, notifyMany id messages before = .ok () after →
      Sent messages (Rung before after id) before after)
    (returned : listener.receive notifyMany messages before = .ok alive after) :
    Received messages listener before alive after := by
  cases receive_cases returned with
  | @told id living some =>
    have moves : Moves before (before.tell id messages.length) := ⟨.tell before id _, fun _ changed => absurd rfl changed⟩
    refine ⟨living.symm, moves, fun _ _ => ?_, fun none => absurd none some⟩
    simpa [World.tell] using List.length_pos_iff.mpr some
  | asked living none => exact ⟨living.symm, .refl _, fun some => absurd none some, fun _ => .refl _⟩
  | dead dying =>
    refine ⟨dying.symm, .refl _, fun _ living => ?_, fun _ => .refl _⟩
    rw [dying] at living
    cases living
  | @counted id _ some called =>
    have sent := sends id [()] _ _ called
    have rung : Rung before after id := (sent.reached (by simp)).extend (.advance before id) fun _ => Nat.le_refl _
    refine ⟨rfl, ⟨(Steady.advance before id).trans sent.moves.steady, fun other changed => ?_⟩, fun _ => rung,
      fun none => absurd none some⟩
    by_cases same : other = id
    · exact same ▸ rung
    · refine (sent.moves.generations other ?_).extend (.advance before id) fun _ => Nat.le_refl _
      simpa [World.generation, World.advance, setInner_flattens, same] using changed
  | uncounted none => exact ⟨rfl, .refl _, fun some => absurd none some, fun _ => .refl _⟩
  | passed isOpen called =>
    have sent := sends _ messages _ _ called
    exact ⟨isOpen.symm, sent.moves, fun some _ => sent.reached some, sent.silent⟩
  | stopped shut =>
    refine ⟨shut.symm, .refl _, fun _ isOpen => ?_, fun _ => .refl _⟩
    rw [shut] at isOpen
    cases isOpen

/-- Sending through a notifier is a delivery to its table, which is then written back. -/
theorem operate_delivered {receive : Receive Unit Listener (World V)} {place : Place} {before after : World V}
    (sent : World.operate place (Notifier.notifyMany receive messages) before = .ok () after) :
    ∃ raw updated last, before.notifierAt place = some (.opened raw) ∧
      deliver receive messages raw.listeners before = (updated, .ok () last) ∧
      after = last.setNotifier place (.opened { raw with listeners := updated }) := by
  cases found : before.notifierAt place with
  | none => simp [World.operate, found] at sent
  | some notifier =>
    cases notifier with
    | closed => simp [World.operate, found, Notifier.notifyMany] at sent
    | opened raw =>
      simp only [World.operate, found, Notifier.notifyMany, RawNotifier.notifyMany] at sent
      cases delivered : deliver receive messages raw.listeners before with
      | mk updated outcome =>
        cases outcome with
        | error failure stopped => simp [delivered] at sent
        | ok _ last =>
          simp only [delivered] at sent
          cases sent
          exact ⟨raw, updated, last, rfl, delivered, rfl⟩

private theorem operate_sent {receive : Receive Unit Listener (World V)} {place : Place} {before after : World V}
    (each : ∀ listener before alive after, receive listener messages before = .ok alive after →
      Received messages listener before alive after)
    (sent : World.operate place (Notifier.notifyMany receive messages) before = .ok () after) :
    ∃ listeners, before.listenersAt place = some listeners ∧
      Sent messages (∀ listener ∈ listeners, Heard before after listener) before after := by
  obtain ⟨raw, updated, last, found, delivered, rfl⟩ := operate_delivered sent
  have listed : before.listenersAt place = some (raw.listeners.map (·.listener)) := by
    simp only [World.listenersAt, found]
  have flags := (deliver_flags (fun entry _ start alive stop steady called => by
    have received := each _ _ _ _ called
    refine ⟨?_, steady.trans received.2.moves.steady⟩
    rw [received.1, steady.listener_alive]) (Steady.refl before) delivered).1
  have written (steady : Steady before last) :
      Steady before (last.setNotifier place (.opened { raw with listeners := updated })) :=
    steady.setNotifier found flags
  have told (user : Nat) : (last.users user).received ≤
      ((last.setNotifier place (.opened { raw with listeners := updated })).users user).received := by simp
  have moves := deliver_respects Moves.refl Moves.trans
    (fun entry _ start alive stop _ called => (each _ _ _ _ called).2.moves) delivered
  refine ⟨_, listed, ⟨written moves.steady, fun id changed => ?_⟩, fun some listener member => ?_, fun none => ?_⟩
  · exact (moves.generations id (by simpa using changed)).extend (.refl _) told
  · obtain ⟨entry, inside, rfl⟩ := List.mem_map.mp member
    obtain ⟨start, alive, stop, started, called, ended⟩ := deliver_calls Moves.refl Moves.trans
      (fun entry _ start alive stop _ called => (each _ _ _ _ called).2.moves) delivered inside
    apply ((each _ _ _ _ called).2.reached some).extend started.steady
    intro user
    exact Nat.le_trans (ended.steady.received user) (told user)
  · have silent := deliver_respects Silent.refl Silent.trans
      (fun entry _ start alive stop _ called => (each _ _ _ _ called).2.silent none) delivered
    exact ⟨written silent.steady, by simpa using silent.generations, by simpa using silent.users⟩

theorem notifyMany_ok {fuel id : Nat} {messages : List Unit} {before after : World V}
    (sent : World.notifyMany fuel id messages before = .ok () after) :
    Sent messages (Rung before after id) before after := by
  induction fuel generalizing id messages before after with
  | zero => cases sent
  | succ fuel ih =>
    obtain ⟨listeners, listed, sent⟩ := operate_sent (fun _ _ _ _ called => receive_ok (fun _ _ _ _ => ih) called) sent
    refine ⟨sent.moves, fun some => .intro fun table same => ?_, sent.silent⟩
    rw [listed] at same
    cases same
    exact sent.reached some

theorem World.receive_ok {fuel : Nat} {listener : Listener} {before after : World V} {alive : Bool}
    (returned : World.receive fuel listener messages before = .ok alive after) :
    Received messages listener before alive after :=
  Nosy.Sources.receive_ok (fun _ _ _ _ => notifyMany_ok) returned

/-- Every listener of the notifier hears of it, and through it the listeners of
every source that depends on it. -/
theorem notify_ok {fuel : Nat} {place : Place} {before after : World V}
    (notified : World.notify fuel place before = .ok () after) :
    Moves before after ∧ ∃ listeners, before.listenersAt place = some listeners ∧
      ∀ listener ∈ listeners, Heard before after listener := by
  obtain ⟨listeners, listed, sent⟩ := operate_sent (fun _ _ _ _ => World.receive_ok) notified
  exact ⟨sent.moves, listeners, listed, sent.reached (by simp)⟩

end Sending

end Nosy.Sources
