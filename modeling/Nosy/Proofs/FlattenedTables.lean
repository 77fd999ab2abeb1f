import Nosy.Proofs.SourceNotices

/-! The tables of one flattened source over a cell of cell sources. As long as users
are all that listens to the flattened source, every operation returns, and a
notification of the outer cell is counted once. -/

namespace Nosy.Sources
open RawNotifier
open EStateM (Result)

variable {V : Type}

/-- A listener that a cell may have: flattened source 0 is the only one there is. -/
def Listener.Feeds : Listener → Prop
  | .user _ => True
  | .outer id => id = 0
  | .inner id _ => id = 0

structure Flat (world : World V) : Prop where
  cells : ∀ id, ∃ listeners, world.listenersAt (.cell id) = some listeners ∧
    (∀ listener ∈ listeners, listener.Feeds) ∧ listeners.count (.outer 0) = if id = 0 then 1 else 0
  own : ∃ listeners, world.listenersAt (.flatten 0) = some listeners ∧
    ∀ listener ∈ listeners, ∃ user, listener = .user user

theorem Flat.same {before after : World V} (flat : Flat before)
    (tables : ∀ place, after.listenersAt place = before.listenersAt place) : Flat after := by
  refine ⟨fun id => ?_, ?_⟩
  · simpa only [tables] using flat.cells id
  · simpa only [tables] using flat.own

section Listed
variable {world : World V} {listeners : List Listener}

theorem Flat.cell (flat : Flat world) {id : Nat} (listed : world.listenersAt (.cell id) = some listeners) :
    (∀ listener ∈ listeners, listener.Feeds) ∧ listeners.count (.outer 0) = if id = 0 then 1 else 0 := by
  obtain ⟨table, same, facts⟩ := flat.cells id
  rw [listed] at same
  cases same
  exact facts

theorem Flat.users (flat : Flat world) (listed : world.listenersAt (.flatten 0) = some listeners) :
    ∀ listener ∈ listeners, ∃ user, listener = .user user := by
  obtain ⟨table, same, users⟩ := flat.own
  rw [listed] at same
  cases same
  exact users

end Listed

variable {world : World V}

private theorem operate_ended {α : Type} {place : Place}
    {operation : Notifier Listener → World V → Notifier Listener × Result Failure (World V) α}
    {notifier updated : Notifier Listener} {value : α} {after : World V} (found : world.notifierAt place = some notifier)
    (ended : operation notifier world = (updated, .ok value after)) :
    World.operate place operation world = .ok value (after.setNotifier place updated) := by
  simp only [World.operate, found, ended]

/-- Users do not count. -/
theorem notifyMany_returns (fuel : Nat) (messages : List Unit) (flat : Flat world) : ∃ after, World.notifyMany (fuel + 1) 0 messages world = .ok () after ∧
    after.generation 0 = world.generation 0 := by
  obtain ⟨listeners, listed, users⟩ := flat.own
  obtain ⟨raw, found, rfl⟩ := listenersAt_some listed
  have delivered : ∃ updated last, deliver (Listener.receive (World.notifyMany fuel)) messages raw.listeners world =
      (updated, .ok () last) ∧ last.generation 0 = world.generation 0 := by
    refine deliver_returns (fun entry member before kept => ?_) rfl
    obtain ⟨user, same⟩ := users entry.listener (List.mem_map_of_mem (f := (·.listener)) member)
    simp only [same, Listener.receive]
    by_cases living : (before.users user).alive = true
    · rw [if_pos living]
      refine ⟨true, _, rfl, ?_⟩
      split <;> exact kept
    · rw [if_neg living]
      exact ⟨false, before, rfl, kept⟩
  obtain ⟨updated, last, ended, same⟩ := delivered
  have sent : Notifier.notifyMany (Listener.receive (World.notifyMany fuel)) messages (.opened raw) world =
      (.opened { raw with listeners := updated }, .ok () last) := by
    simp only [Notifier.notifyMany, RawNotifier.notifyMany, ended]
  exact ⟨_, operate_ended found sent, by rwa [setNotifier_generation]⟩

theorem receive_returns (fuel : Nat) (messages : List Unit) (flat : Flat world) {listener : Listener} (feeds : listener.Feeds) :
    ∃ alive after, World.receive (fuel + 1) listener messages world = .ok alive after ∧ Flat after ∧
      after.generation 0 = (world.generation 0).map
        (· + if listener = .outer 0 ∧ messages ≠ [] then 1 else 0) := by
  have called : ∃ alive after, World.receive (fuel + 1) listener messages world = .ok alive after ∧
      after.generation 0 = (world.generation 0).map (· + if listener = .outer 0 ∧ messages ≠ [] then 1 else 0) := by
    cases listener with
    | user id =>
      by_cases living : (world.users id).alive = true
      · have same : world.generation 0 = (world.generation 0).map
            (· + if Listener.user id = .outer 0 ∧ messages ≠ [] then 1 else 0) := by simp
        refine ⟨true, _, by simp only [World.receive, Listener.receive, if_pos living]; rfl, ?_⟩
        split <;> exact same
      · exact ⟨false, world, by simp [World.receive, Listener.receive, living], by simp⟩
    | outer id =>
      cases feeds
      by_cases empty : messages = []
      · exact ⟨true, world, by simp [World.receive, Listener.receive, empty], by simp [empty]⟩
      · have advanced : Flat (world.advance 0) := flat.same (Steady.advance world 0).listeners
        obtain ⟨after, sent, same⟩ := notifyMany_returns fuel [()] advanced
        refine ⟨true, after, by simp [World.receive, Listener.receive, empty, sent], ?_⟩
        rw [same]
        cases found : world.flattens 0 <;> simp [World.generation, World.advance, setInner_flattens, found, empty]
    | inner id gate =>
      cases feeds
      by_cases isOpen : world.gates gate = true
      · obtain ⟨after, sent, same⟩ := notifyMany_returns fuel messages flat
        exact ⟨true, after, by simp [World.receive, Listener.receive, isOpen, sent], by simp [same]⟩
      · exact ⟨false, world, by simp [World.receive, Listener.receive, isOpen], by simp⟩
  obtain ⟨alive, after, returned, generation⟩ := called
  exact ⟨alive, after, returned, flat.same (World.receive_ok returned).2.moves.steady.listeners, generation⟩

/-- Each entry of the outer listener is counted. -/
private theorem deliver_counts (fuel : Nat) {entries : List (NotifierEntry Listener)} (flat : Flat world)
    (feeds : ∀ entry ∈ entries, entry.listener.Feeds) :
    ∃ updated last, deliver (World.receive (fuel + 1)) [()] entries world = (updated, .ok () last) ∧
      last.generation 0 = (world.generation 0).map
        (· + UInt32.ofNat ((entries.map (·.listener)).count (.outer 0))) := by
  induction entries generalizing world with
  | nil => exact ⟨[], world, rfl, by simp⟩
  | cons entry rest ih =>
    obtain ⟨alive, middle, called, kept, first⟩ :=
      receive_returns fuel [()] flat (feeds entry List.mem_cons_self)
    obtain ⟨updated, last, later, second⟩ := ih kept fun other member => feeds other (List.mem_cons_of_mem _ member)
    refine ⟨_, last, deliver_cons_ok.mpr ⟨alive, middle, updated, called, later, rfl⟩, ?_⟩
    rw [second, first, Option.map_map]
    congr 1
    funext generation
    by_cases counted : entry.listener = .outer 0
    · simp [counted, Nat.add_comm _ 1, UInt32.add_assoc]
    · simp [counted]

theorem notify_returns (fuel : Nat) (flat : Flat world) (id : Nat) : ∃ after, World.notify (fuel + 1) (.cell id) world = .ok () after ∧
    Flat after ∧ after.generation 0 = (world.generation 0).map (· + if id = 0 then 1 else 0) := by
  obtain ⟨listeners, listed, feeds, counted⟩ := flat.cells id
  obtain ⟨raw, found, rfl⟩ := listenersAt_some listed
  obtain ⟨updated, last, delivered, generation⟩ := deliver_counts fuel flat fun entry member =>
    feeds entry.listener (List.mem_map_of_mem (f := (·.listener)) member)
  have sent : Notifier.notify (World.receive (fuel + 1)) () (.opened raw) world =
      (.opened { raw with listeners := updated }, .ok () last) := by
    simp only [Notifier.notify, Notifier.notifyMany, RawNotifier.notifyMany, delivered]
  have notified := operate_ended found sent
  refine ⟨_, notified, flat.same (notify_ok notified).1.steady.listeners, ?_⟩
  rw [setNotifier_generation, generation, counted]
  split <;> rfl

theorem operate_listen_returns [VecGrowth] (fuel : Nat) (flat : Flat world) {place : Place} {listeners : List Listener}
    (listed : world.listenersAt place = some listeners) (each : ∀ other ∈ listeners, other.Feeds)
    (listener : Listener) (feeds : listener.Feeds) :
    ∃ after, World.operate place (Notifier.listen (World.receive (fuel + 1)) listener) world = .ok () after := by
  obtain ⟨raw, found, rfl⟩ := listenersAt_some listed
  have returns {before : World V} (flat : Flat before) {other : Listener} (feeds : other.Feeds) :
      ∃ alive after, World.receive (fuel + 1) other [] before = .ok alive after ∧ Flat after := by
    obtain ⟨alive, after, returned, kept, _⟩ := receive_returns fuel [] flat feeds
    exact ⟨alive, after, returned, kept⟩
  have asked (entry : NotifierEntry Listener) (member : entry ∈ raw.listeners) : entry.listener.Feeds :=
    each entry.listener (List.mem_map_of_mem (f := (·.listener)) member)
  obtain ⟨updated, last, registered, _⟩ :=
    register_returns (returns flat feeds) fun entry member _ kept => returns kept (asked entry member)
  have listened : Notifier.listen (World.receive (fuel + 1)) listener (.opened raw) world =
      (.opened updated, .ok () last) := by
    simp only [Notifier.listen, RawNotifier.listen, registered]
  exact ⟨_, operate_ended found listened⟩

section Listening
variable [VecGrowth] {fuel : Nat} {before after : World V} {listener : Listener}

theorem Flat.listened {place : Place} (flat : Flat before)
    (listened : World.operate place (Notifier.listen (World.receive fuel) listener) before = .ok () after)
    (feeds : listener.Feeds) (distinct : listener ≠ .outer 0) (own : place = .flatten 0 → ∃ user, listener = .user user)
    (outer : after.Stores (.cell 0) (.outer 0)) : Flat after := by
  obtain ⟨_, _, elsewhere, here⟩ := operate_listen_ok listened
  refine ⟨fun id => ?_, ?_⟩
  · obtain ⟨old, listed, fed, counted⟩ := flat.cells id
    by_cases equal : Place.cell id = place
    · subst place
      obtain ⟨new, renewed, fewer⟩ := here old listed
      refine ⟨new, renewed, fun other member => ?_, ?_⟩
      · rcases List.mem_append.mp (fewer.subset member) with member | member
        · exact fed other member
        · exact List.mem_singleton.mp member ▸ feeds
      · have most := fewer.count_le (.outer 0)
        have none : [listener].count (.outer 0) = 0 := by simpa [List.count_singleton] using distinct
        rw [List.count_append, counted, none] at most
        by_cases first : id = 0
        · subst id
          obtain ⟨table, present, member⟩ := outer.listed
          rw [renewed] at present
          cases present
          have least := List.count_pos_iff.mpr member
          rw [if_pos rfl] at most ⊢
          omega
        · rw [if_neg first] at most ⊢
          omega
    · rw [elsewhere _ equal]
      exact ⟨old, listed, fed, counted⟩
  · obtain ⟨old, listed, users⟩ := flat.own
    by_cases equal : Place.flatten 0 = place
    · subst place
      obtain ⟨new, renewed, fewer⟩ := here old listed
      refine ⟨new, renewed, fun other member => ?_⟩
      rcases List.mem_append.mp (fewer.subset member) with member | member
      · exact users other member
      · rw [List.mem_singleton.mp member]
        exact own rfl
    · rw [elsewhere _ equal]
      exact ⟨old, listed, users⟩

end Listening
end Nosy.Sources
