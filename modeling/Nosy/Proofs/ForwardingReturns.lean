import Nosy.Proofs.ListenerSkeleton

/-! When operations on notifiers return normally. The one thing that makes a
listener of the library panic is a forwarder to a notifier that was closed while
somebody still owns it. -/

namespace Nosy
open RawNotifier Listener
open EStateM (Result)

variable {M C : Type}

/-- The panic of `notify_many` after `close`. -/
def closedPanic : Failure := .panicked "cannot send messages after Notifier::close()"

/-- Sending through this notifier panics. -/
def Blocked (world : World M C) (id : Nat) : Prop :=
  ∀ listeners, world.table id = some listeners → ∃ listener ∈ listeners, ReachesClosed world listener

theorem reachesClosed_forward {world : World M C} {id : Nat} :
    ReachesClosed world (.forward id) ↔ (world.notifiers id).owned = true ∧ Blocked world id := by
  constructor
  · rintro (_ | _ | _ | _ | ⟨owned, closed⟩ | ⟨owned, table, member, reaches⟩)
    · refine ⟨owned, fun listeners table => ?_⟩
      rw [closed] at table
      cases table
    · refine ⟨owned, fun listeners same => ?_⟩
      rw [table] at same
      cases same
      exact ⟨_, member, reaches⟩
  · rintro ⟨owned, blocked⟩
    cases table : world.table id with
    | none => exact .closed owned table
    | some listeners =>
      obtain ⟨listener, member, reaches⟩ := blocked listeners table
      exact .through owned table member reaches

section Settling
variable {world : World M C}

/-- The call panics exactly if a closed notifier is in its way; otherwise it
answers the listener's liveness and changes nothing of the skeleton. -/
abbrev Delivers (world : World M C) (listener : Listener M) : Result Failure (World M C) Bool → Prop :=
  Settles (ReachesClosed world listener) closedPanic fun reply after =>
    reply = listener.alive world ∧ Same world after

abbrev Sends (world : World M C) (id : Nat) : Result Failure (World M C) Unit → Prop :=
  Settles (Blocked world id) closedPanic fun _ => Same world

private theorem Filter.buffered_settles {function : M → Option M} {batch : Nat} {bad : Prop} {alive : Bool}
    {target : List M → EStateM Failure (World M C) Bool}
    (each : ∀ messages before, Same world before →
      Settles bad closedPanic (fun reply after => reply = alive ∧ Same world after) (target messages before))
    (messages buffer : List M) {before : World M C} (same : Same world before) :
    Settles bad closedPanic (fun reply after => reply = alive ∧ Same world after)
      (Filter.buffered function batch target messages buffer before) := by
  induction messages generalizing buffer before with
  | nil => exact each buffer before same
  | cons message rest ih =>
    simp only [Filter.buffered]
    split
    · exact ih buffer same
    · split
      · have flushed := each buffer before same
        cases called : target buffer before with
        | error reason after =>
          rw [called] at flushed
          exact flushed
        | ok reply after =>
          rw [called] at flushed
          cases reply with
          | false => exact flushed
          | true => exact ih _ flushed.2.2
      · exact ih _ same

private theorem pair_delivers {stores : Nat → Store M C} {notifyMany : Nat → List M → EStateM Failure (World M C) Unit}
    {first second : Listener M} {messages : List M} {before : World M C}
    (head : Delivers world first (first.receive stores notifyMany messages before))
    (tail : ∀ middle, Same world middle → Delivers world second (second.receive stores notifyMany messages middle)) :
    Delivers world (.pair first second) ((Listener.pair first second).receive stores notifyMany messages before) := by
  simp only [Listener.receive]
  cases called : first.receive stores notifyMany messages before with
  | error reason after =>
    rw [called] at head
    exact ⟨.first head.1, head.2⟩
  | ok reply middle =>
    rw [called] at head
    have later := tail middle head.2.2
    cases outcome : second.receive stores notifyMany messages middle with
    | error reason after =>
      rw [outcome] at later
      simp only [outcome]
      exact ⟨.second later.1, later.2⟩
    | ok answer after =>
      rw [outcome] at later
      simp only [outcome]
      refine ⟨?_, ?_, later.2.2⟩
      · intro reaches
        cases reaches with
        | first reaches => exact head.1 reaches
        | second reaches => exact later.1 reaches
      · rw [head.2.1, later.2.1, Listener.alive]

theorem receive_delivers {stores : Nat → Store M C} {notifyMany : Nat → List M → EStateM Failure (World M C) Unit}
    {listener : Listener M}
    (sends : ∀ id ∈ listener.targets, ∀ messages before, Same world before →
      Sends world id (notifyMany id messages before))
    (messages : List M) {before : World M C} (same : Same world before) :
    Delivers world listener (listener.receive stores notifyMany messages before) := by
  induction listener generalizing messages before with
  | flag id =>
    have unreached : ¬ ReachesClosed world (.flag id) := by
      intro reaches
      cases reaches
    simp only [Listener.receive, same.flags]
    split
    next alive =>
      refine ⟨unreached, alive.symm, ?_⟩
      split
      · exact same
      · exact same.trans (.setFlag before id)
    next dead => exact ⟨unreached, by simp [alive, dead], same⟩
  | storeLock id =>
    have unreached : ¬ ReachesClosed world (.storeLock id) := by
      intro reaches
      cases reaches
    simp only [Listener.receive, same.stores]
    split
    next alive =>
      refine ⟨unreached, alive.symm, ?_⟩
      split
      · exact same
      · exact same.trans (.record before (stores id) id messages)
    next dead => exact ⟨unreached, by simp [alive, dead], same⟩
  | weak id =>
    have unreached : ¬ ReachesClosed world (.weak id) := by
      intro reaches
      cases reaches
    simp only [Listener.receive, same.stores]
    split
    · exact ⟨unreached, rfl, same⟩
    · split
      next alive => exact ⟨unreached, alive.symm, same.trans (.record before (stores id) id messages)⟩
      next dead => exact ⟨unreached, by simp [alive, dead], same⟩
  | null =>
    refine ⟨?_, rfl, same⟩
    intro reaches
    cases reaches
  | filter function zeroSized batch positive target ih =>
    have bad : ReachesClosed world (.filter function zeroSized batch positive target) ↔ ReachesClosed world target :=
      ⟨fun reaches => by cases reaches; assumption, .filter⟩
    simp only [Listener.receive, Filter.receive, Delivers, bad]
    split
    · exact ih sends _ same
    · exact Filter.buffered_settles (fun messages before same => ih sends messages same) messages [] same
  | gate id target ih =>
    simp only [Listener.receive, same.gates]
    split
    next isOpen =>
      have bad : ReachesClosed world (.gate id target) ↔ ReachesClosed world target :=
        ⟨fun reaches => by cases reaches; assumption, .gate isOpen⟩
      simpa only [Delivers, bad, alive, isOpen, Bool.true_and] using ih sends messages same
    next shut =>
      refine ⟨?_, by simp [alive, shut], same⟩
      rintro (_ | ⟨isOpen, _⟩)
      exact shut isOpen
  | pair first second left right =>
    apply pair_delivers
    · exact left (fun id member => sends id (List.mem_append_left _ member)) messages same
    · intro middle still
      exact right (fun id member => sends id (List.mem_append_right _ member)) messages still
  | forward id =>
    simp only [Listener.receive, same.owned]
    split
    next owned =>
      have sent := sends id (by simp [targets]) messages before same
      simp only [Delivers, reachesClosed_forward, owned, true_and]
      cases called : notifyMany id messages before with
      | error reason after =>
        rw [called] at sent
        exact sent
      | ok _ after =>
        rw [called] at sent
        exact ⟨sent.1, owned.symm, sent.2⟩
    next dropped =>
      refine ⟨?_, by simp [alive, dropped], same⟩
      rw [reachesClosed_forward]
      exact fun reaches => dropped reaches.1

private theorem operate_sends {receive : Receive M (Listener M) (World M C)} {id : Nat}
    (each : ∀ listeners, world.table id = some listeners → ∀ listener ∈ listeners, ∀ messages before,
      Same world before → Delivers world listener (receive listener messages before))
    (messages : List M) {before : World M C} (same : Same world before) :
    Sends world id (World.operate id (Notifier.notifyMany receive messages) before) := by
  cases found : (before.notifiers id).notifier with
  | closed =>
    simp only [World.operate, found, Notifier.notifyMany]
    have closed : world.table id = none := by
      rw [← same.table, World.table, found]
    refine ⟨fun listeners table => ?_, rfl⟩
    rw [closed] at table
    cases table
  | opened raw =>
    have table : world.table id = some (raw.listeners.map (·.listener)) :=
      (same.table id).symm.trans (World.table_opened found)
    have asked : ∀ entry ∈ raw.listeners, ∀ before, Same world before →
        Settles (ReachesClosed world entry.listener) closedPanic (fun _ => Same world)
          (receive entry.listener messages before) := by
      intro entry member before same
      have delivered := each _ table entry.listener (List.mem_map_of_mem member) messages before same
      exact delivered.mono fun _ _ ensured => ensured.2
    have settled := deliver_settles asked same
    have blocked : Blocked world id ↔ ∃ entry ∈ raw.listeners, ReachesClosed world entry.listener := by
      simp [Blocked, table]
    have kept : (deliver receive messages raw.listeners before).1.map (·.listener) =
        raw.listeners.map (·.listener) := deliver_listeners raw.listeners before
    simp only [World.operate, found, Notifier.notifyMany, RawNotifier.notifyMany]
    cases outcome : deliver receive messages raw.listeners before with
    | mk updated result =>
      rw [outcome] at settled kept
      cases result with
      | error reason after => exact ⟨blocked.mpr settled.1, settled.2⟩
      | ok _ after =>
        refine ⟨fun bad => settled.1 (blocked.mp bad), settled.2.trans ?_⟩
        exact @Same.setNotifier _ _ _ _ raw _ ((settled.2.table id).trans table) kept

/-- A send that asks further notifiers goes down, and each of them may be sent through. -/
private theorem sends_down {stores : Nat → Store M C} {rank : Nat → Nat} (ranks : Ranks rank world)
    {permitted : Nat → Prop}
    {send : Nat → Nat → List M → EStateM Failure (World M C) Unit}
    (goes : ∀ fuel id messages, permitted id → send (fuel + 1) id messages =
      World.operate id (Notifier.notifyMany (Listener.receive stores (send fuel)) messages))
    (below : ∀ id target, permitted id → rank target < rank id → permitted target) {fuel id : Nat}
    (enough : rank id < fuel) (permits : permitted id) (messages : List M) {before : World M C}
    (same : Same world before) : Sends world id (send fuel id messages before) := by
  induction fuel generalizing id messages before with
  | zero => omega
  | succ fuel ih =>
    rw [goes fuel id messages permits]
    apply operate_sends _ messages same
    intro listeners table listener member messages before same
    apply receive_delivers _ messages same
    intro target inside messages before same
    have smaller := ranks id listeners table listener member target inside
    exact ih (by omega) (below id target permits smaller) messages same

theorem notifyMany_sends {stores : Nat → Store M C} {rank : Nat → Nat} (ranks : Ranks rank world) {fuel id : Nat}
    (enough : rank id < fuel) (messages : List M) {before : World M C} (same : Same world before) :
    Sends world id (World.notifyMany stores fuel id messages before) := by
  have goes : ∀ fuel id messages, True → World.notifyMany stores (fuel + 1) id messages =
      World.operate id (Notifier.notifyMany (Listener.receive stores (World.notifyMany stores fuel)) messages) := by
    intros
    rfl
  exact sends_down ranks goes (fun _ _ _ _ => trivial) enough trivial messages same

/-- Whoever sends down from the notifier that is held does not come back to it. -/
private theorem notifyManyUnder_sends {stores : Nat → Store M C} {rank : Nat → Nat} (ranks : Ranks rank world)
    {fuel held id : Nat}
    (enough : rank id < fuel) (apart : rank id < rank held) (messages : List M) {before : World M C}
    (same : Same world before) : Sends world id (World.notifyManyUnder stores held fuel id messages before) := by
  have goes : ∀ fuel id messages, rank id < rank held → World.notifyManyUnder stores held (fuel + 1) id messages =
      World.operate id (Notifier.notifyMany (Listener.receive stores (World.notifyManyUnder stores held fuel)) messages) := by
    intro fuel id messages apart
    have other : id ≠ held := by
      rintro rfl
      exact Nat.lt_irrefl _ apart
    funext before
    rw [World.notifyManyUnder, if_neg other]
  exact sends_down ranks goes (fun _ _ apart smaller => Nat.lt_trans smaller apart) enough apart messages same

theorem receive_settles {stores : Nat → Store M C} {rank : Nat → Nat} (ranks : Ranks rank world) {fuel : Nat}
    {listener : Listener M} (within : listener.Within rank fuel) (messages : List M) {before : World M C}
    (same : Same world before) : Delivers world listener (World.receive stores fuel listener messages before) :=
  receive_delivers (fun id member messages _ same => notifyMany_sends ranks (within id member) messages same)
    messages same

end Settling

/-- The call returns normally. -/
def Returns {W α : Type} (result : Result Failure W α) : Prop := ∃ value after, result = .ok value after

section Operations
variable {stores : Nat → Store M C} {world : World M C} {rank : Nat → Nat} {fuel id : Nat}
  {raw : RawNotifier (Listener M)}

private theorem operate_returns {α : Type} {operation : Notifier (Listener M) → World M C →
      Notifier (Listener M) × Result Failure (World M C) α} :
    Returns (World.operate id operation world) ↔ Returns (operation (world.notifiers id).notifier world).2 := by
  unfold World.operate Returns
  cases called : operation (world.notifiers id).notifier world with
  | mk notifier outcome => cases outcome <;> simp

private theorem blocked_opened (opened : (world.notifiers id).notifier = .opened raw) :
    Blocked world id ↔ ∃ entry ∈ raw.listeners, ReachesClosed world entry.listener := by
  simp [Blocked, World.table_opened opened]

theorem notifyMany_returns (ranks : Ranks rank world) (enough : rank id < fuel)
    (opened : (world.notifiers id).notifier = .opened raw) (messages : List M) :
    Returns (World.notifyMany stores fuel id messages world) ↔
      ∀ entry ∈ raw.listeners, ¬ ReachesClosed world entry.listener := by
  have settled : Sends world id (World.notifyMany stores fuel id messages world) :=
    notifyMany_sends ranks enough messages (.refl world)
  rw [Returns, settled.returns, blocked_opened opened]
  simp

theorem notify_returns (ranks : Ranks rank world) (enough : rank id ≤ fuel)
    (opened : (world.notifiers id).notifier = .opened raw) (message : M) :
    Returns (World.notify stores fuel id message world) ↔
      ∀ entry ∈ raw.listeners, ¬ ReachesClosed world entry.listener := by
  have settled : Sends world id (World.notify stores fuel id message world) := by
    refine operate_sends (fun listeners table listener member messages before same => ?_) [message] (.refl world)
    refine receive_settles ranks (fun target inside => ?_) messages same
    have smaller := ranks id listeners table listener member target inside
    omega
  rw [Returns, settled.returns, blocked_opened opened]
  simp

/-- What an operation asks while it holds the lock is all below its notifier. -/
private theorem under_settles {listener : Listener M} (ranks : Ranks rank world) (enough : rank id ≤ fuel)
    (below : ∀ target ∈ listener.targets, rank target < rank id) {before : World M C} (same : Same world before) :
    Delivers world listener (World.receiveUnder stores id fuel listener [] before) := by
  refine receive_delivers (fun target member messages before same => ?_) [] same
  have smaller := below target member
  exact notifyManyUnder_sends ranks (by omega) smaller messages same

private theorem asked_settles (ranks : Ranks rank world) (enough : rank id ≤ fuel)
    (opened : (world.notifiers id).notifier = .opened raw) :
    ∀ entry ∈ raw.listeners, ∀ before, Same world before →
      Settles (ReachesClosed world entry.listener) closedPanic (fun _ => Same world)
        (World.receiveUnder stores id fuel entry.listener [] before) := by
  intro entry member before same
  have delivered : Delivers world entry.listener (World.receiveUnder stores id fuel entry.listener [] before) :=
    under_settles ranks enough (ranks id _ (World.table_opened opened) _ (List.mem_map_of_mem member)) same
  exact delivered.mono fun _ _ ensured => ensured.2

theorem listen_returns [VecGrowth] {listener : Listener M} (ranks : Ranks rank world) (enough : rank id ≤ fuel)
    (below : ∀ target ∈ listener.targets, rank target < rank id) (opened : (world.notifiers id).notifier = .opened raw) :
    Returns (World.listen stores fuel id listener world) ↔ ¬ ReachesClosed world listener ∧
      (listener.alive world = true → raw.capacity ≤ raw.listeners.length →
        ∀ entry ∈ raw.listeners, entry.wasAlive = true → ¬ ReachesClosed world entry.listener) := by
  have new : Delivers world listener (World.receiveUnder stores id fuel listener [] world) :=
    under_settles ranks enough below (.refl world)
  have settled := register_settles new (asked_settles ranks enough opened)
  rw [World.listen, operate_returns, opened]
  simp only [Notifier.listen, RawNotifier.listen]
  rw [Returns, settled.returns]
  simp

theorem count_returns (ranks : Ranks rank world) (enough : rank id ≤ fuel)
    (opened : (world.notifiers id).notifier = .opened raw) :
    Returns (World.count stores fuel id world) ↔
      ∀ entry ∈ raw.listeners, entry.wasAlive = true → ¬ ReachesClosed world entry.listener := by
  have asked : ∀ entry ∈ raw.listeners, ∀ before, Same world before →
      Settles (ReachesClosed world entry.listener) closedPanic (fun _ => Same world)
        (World.receiveUnder stores id fuel entry.listener [] before) := asked_settles ranks enough opened
  have settled := (dropDeadListeners_settles asked (.refl world)).returns
  rw [World.count, operate_returns, opened]
  simp only [Notifier.count, Notifier.dropDeadListeners]
  cases pruned : raw.dropDeadListeners (World.receiveUnder stores id fuel) world with
  | mk table outcome =>
    rw [pruned] at settled
    cases outcome <;> simpa [Returns] using settled

end Operations

/-- With enough fuel for the forwarding chains, which are finite in an acyclic
graph, every operation on the open notifier `id` returns exactly if no closed
notifier that is still owned can be reached from the listeners it asks. A listener
that is registered must not lead back to `id`, which is locked meanwhile. -/
theorem operations_return_iff [VecGrowth] (stores : Nat → Store M C) (world : World M C) (acyclic : Acyclic world)
    (listener : Listener M) (id : Nat) (raw : RawNotifier (Listener M))
    (opened : (world.notifiers id).notifier = .opened raw) :
    ∃ bound, ∀ fuel, bound ≤ fuel →
      (∀ messages, Returns (World.receive stores fuel listener messages world) ↔ ¬ ReachesClosed world listener) ∧
      (∀ messages, Returns (World.notifyMany stores fuel id messages world) ↔
        ∀ entry ∈ raw.listeners, ¬ ReachesClosed world entry.listener) ∧
      (∀ message, Returns (World.notify stores fuel id message world) ↔
        ∀ entry ∈ raw.listeners, ¬ ReachesClosed world entry.listener) ∧
      (AcyclicWith world id listener → (Returns (World.listen stores fuel id listener world) ↔
        ¬ ReachesClosed world listener ∧ (listener.alive world = true → raw.capacity ≤ raw.listeners.length →
          ∀ entry ∈ raw.listeners, entry.wasAlive = true → ¬ ReachesClosed world entry.listener))) ∧
      (Returns (World.count stores fuel id world) ↔
        ∀ entry ∈ raw.listeners, entry.wasAlive = true → ¬ ReachesClosed world entry.listener) := by
  have listens : ∃ least, ∀ fuel, least ≤ fuel → AcyclicWith world id listener →
      (Returns (World.listen stores fuel id listener world) ↔ ¬ ReachesClosed world listener ∧
        (listener.alive world = true → raw.capacity ≤ raw.listeners.length →
          ∀ entry ∈ raw.listeners, entry.wasAlive = true → ¬ ReachesClosed world entry.listener)) := by
    by_cases joined : AcyclicWith world id listener
    · obtain ⟨rank, ranks, below⟩ := joined
      exact ⟨rank id, fun fuel enough _ => listen_returns ranks enough below opened⟩
    · exact ⟨0, fun fuel _ impossible => absurd impossible joined⟩
  obtain ⟨least, listens⟩ := listens
  obtain ⟨rank, ranks⟩ := acyclic
  obtain ⟨bound, sufficient⟩ := listener.exists_within rank
  refine ⟨max least (max bound (rank id + 1)), fun fuel enough => ?_⟩
  have within := sufficient fuel (by omega)
  refine ⟨fun messages => ?_, fun messages => ?_, fun message => ?_, listens fuel (by omega), ?_⟩
  · have delivered : Delivers world listener (World.receive stores fuel listener messages world) :=
      receive_settles ranks within messages (.refl world)
    exact delivered.returns
  · exact notifyMany_returns ranks (by omega) opened messages
  · exact notify_returns ranks (by omega) opened message
  · exact count_returns ranks (by omega) opened

def logs : Nat → Store Nat (List Nat) := fun _ => .log Nat

/-- Everything is owned, and nothing was registered or delivered yet. -/
def fresh : World Nat (List Nat) where
  flags _ := ⟨true, false⟩
  stores _ := ⟨true, []⟩
  gates _ := true
  notifiers _ := ⟨true, .new⟩

/-- Notifier 0 forwards to notifier 1, whose owner has closed it. -/
def closedTarget : World Nat (List Nat) :=
  match @World.listen _ _ logs .usual 1 0 (.forward 1) fresh with
  | .ok _ after | .error _ after => after.close 1

private theorem closedTarget_acyclic : AcyclicWith closedTarget 0 (.forward 1) := by
  refine ⟨fun id => if id = 0 then 1 else 0, fun id listeners table listener member target inside => ?_, ?_⟩
  · match id with
    | 0 =>
      cases table
      cases List.mem_singleton.mp member
      cases List.mem_singleton.mp inside
      decide
    | 1 => cases table
    | _ + 2 =>
      cases table
      cases member
  · intro target inside
    cases List.mem_singleton.mp inside
    decide

theorem operations_return_iff_closed_target : ∃ fuel,
    (∀ messages, Returns (World.receive logs fuel (.forward 1) messages closedTarget) ↔
      ¬ ReachesClosed closedTarget (.forward 1)) ∧
    (∀ message, ¬ Returns (World.notify logs fuel 0 message closedTarget)) ∧
    ¬ Returns (@World.listen _ _ logs .usual fuel 0 (.forward 1) closedTarget) := by
  obtain ⟨rank, ranks, _⟩ := closedTarget_acyclic
  obtain ⟨bound, each⟩ := @operations_return_iff _ _ .usual logs closedTarget ⟨rank, ranks⟩ (.forward 1) 0 _ rfl
  obtain ⟨received, _, notified, listened, _⟩ := each bound (Nat.le_refl _)
  refine ⟨bound, received, fun message returned => ?_, fun returned => ?_⟩
  · exact (notified message).mp returned ⟨.forward 1, true⟩ (List.mem_singleton.mpr rfl) (.closed rfl rfl)
  · exact ((listened closedTarget_acyclic).mp returned).1 (.closed rfl rfl)

/-- A notifier that listens to a forwarder to itself is locked when it is asked. -/
example : ∃ stopped, @World.listen _ _ logs .usual 2 0 (.forward 0) fresh = .error World.reentry stopped := ⟨_, rfl⟩

/-- A sender whose own notifier was never closed is struck by the panic. -/
theorem closed_target_panics : ¬ ∀ world : World Nat (List Nat), Acyclic world → ∀ id raw,
    (world.notifiers id).notifier = .opened raw →
    ∃ bound, ∀ fuel, bound ≤ fuel → ∀ message, Returns (World.notify logs fuel id message world) := by
  intro claimed
  obtain ⟨rank, ranks, _⟩ := closedTarget_acyclic
  obtain ⟨bound, returns⟩ := claimed closedTarget ⟨rank, ranks⟩ 0 _ rfl
  obtain ⟨value, after, returned⟩ := returns (bound + 1) (Nat.le_succ bound) 7
  have panicked : ∃ stopped, World.notify logs (bound + 1) 0 7 closedTarget = .error closedPanic stopped :=
    ⟨_, rfl⟩
  obtain ⟨stopped, panicked⟩ := panicked
  rw [panicked] at returned
  cases returned

end Nosy
