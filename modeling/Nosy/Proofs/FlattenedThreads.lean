import Nosy.Proofs.FlattenedConsistency

/-! A listener of a flattened cell that has heard nothing since a `get` began has
missed nothing: once all threads have finished setting, the value read is current. -/

namespace Nosy.Sources.FlattenedThreads
open FlattenedCell RawNotifier Transition
open EStateM (Result)

variable {T : Type}

/-- The cached state is from a call that had seen every notification so far. -/
def Subscribed (system : System T) : Prop :=
  system.cachedSeen = system.notified ∧ ∃ outer state, system.world.core 0 = some (outer, some state)

/-- The call will return, or has returned, the current value, or one whose change is
still to be notified. -/
def Phase.Tracks (system : System T) : Phase T → Prop
  | .idle => False
  | .compare _ seen | .fetch _ seen | .listen _ seen _ | .store _ seen _ => seen = system.notified
  | .read source => Subscribed system ∧ asSource (system.world.cells 0).value = some source
  | .done value => Subscribed system ∧
    ((∃ inner setter, (system.world.cells 0).value = .source inner ∧ system.pending setter = some (inner + 1)) ∨
      Denotes asSource system.world flattened value)

/-- A listener that had heard this much when the call began has heard more since, or
will hear more, or the call tracks the value. -/
def Watches (user call heard : Nat) (system : System T) : Prop :=
  heard < (system.world.users user).received ∨ ¬ Calm system.pending ∨ (system.calls call).Tracks system

/-- A listener stays registered while it is alive. -/
structure Follows (user : Nat) (before after : System T) : Prop where
  alive : (after.world.users user).alive = true → (before.world.users user).alive = true
  received : (before.world.users user).received ≤ (after.world.users user).received
  stored : (after.world.users user).alive = true → before.world.Stores (.flatten 0) (.user user) →
    after.world.Stores (.flatten 0) (.user user)

private theorem Follows.refl (user : Nat) (system : System T) : Follows user system system :=
  ⟨fun living => living, Nat.le_refl _, fun _ stored => stored⟩

private theorem Follows.trans {user : Nat} {before middle after : System T} (first : Follows user before middle)
    (second : Follows user middle after) : Follows user before after :=
  ⟨fun living => first.alive (second.alive living), Nat.le_trans first.received second.received,
    fun living stored => second.stored living (first.stored (second.alive living) stored)⟩

/-- What no step of a call changes. -/
structure Reading (call : Nat) (before after : System T) : Prop where
  pending : after.pending = before.pending
  notified : after.notified = before.notified
  users : after.world.users = before.world.users
  values : ∀ id, (after.world.cells id).value = (before.world.cells id).value
  stores : ∀ user, (before.world.users user).alive = true → before.world.Stores (.flatten 0) (.user user) →
    after.world.Stores (.flatten 0) (.user user)
  calls : ∀ other, other ≠ call → after.calls other = before.calls other

private theorem setCall_reading (system : System T) (call : Nat) (phase : Phase T) :
    Reading call system (system.setCall call phase) :=
  ⟨rfl, rfl, rfl, fun _ => rfl, fun _ _ stored => stored, fun _ other => by simp [System.setCall, other]⟩

private theorem Reading.setCall {call : Nat} {before after : System T} (reading : Reading call before after)
    (phase : Phase T) :
    Reading call before (after.setCall call phase) :=
  ⟨reading.pending, reading.notified, reading.users, reading.values, reading.stores,
    fun other different => by simp [System.setCall, different, reading.calls other different]⟩

private theorem Phase.Tracks.mono {before after : System T} {phase : Phase T} (built : Built before.world)
    (kept : Built after.world)
    (pending : after.pending = before.pending) (notified : after.notified = before.notified)
    (values : ∀ id, (after.world.cells id).value = (before.world.cells id).value)
    (subscribed : Subscribed before → Subscribed after) (tracks : phase.Tracks before) : phase.Tracks after := by
  cases phase with
  | idle => exact tracks
  | compare needed seen | fetch needed seen | listen needed seen source | store needed seen new =>
    exact (show seen = before.notified from tracks).trans notified.symm
  | read source =>
    obtain ⟨cached, current⟩ := tracks
    exact ⟨subscribed cached, by rw [values, current]⟩
  | done value =>
    obtain ⟨cached, ⟨inner, setter, holds, waiting⟩ | current⟩ := tracks
    · exact ⟨subscribed cached, .inl ⟨inner, setter, by rw [values, holds], by rw [pending, waiting]⟩⟩
    · obtain ⟨inner, holds⟩ := built.source
      refine ⟨subscribed cached, .inr ((kept.denotes_iff ((values 0).trans holds)).mpr ?_)⟩
      rw [values]
      exact (built.denotes_iff holds).mp current

section Gets
variable {fuel call seen : Nat} {needed : UInt32} {system next : System T}

/-- What a step of a call does to the cached state and to the value it will return. -/
structure Advances (call : Nat) (before after : System T) : Prop where
  reading : Reading call before after
  subscribed : Subscribed before → Subscribed after
  tracks : Calm before.pending → (before.calls call).Tracks before → (after.calls call).Tracks after

private theorem setCall_advances {phase : Phase T}
    (tracks : Calm system.pending → (system.calls call).Tracks system → phase.Tracks system) :
    Advances call system (system.setCall call phase) := by
  refine ⟨setCall_reading system call phase, fun subscribed => subscribed, fun calm tracked => ?_⟩
  simp only [System.setCall, Function.update_self]
  exact tracks calm tracked

private theorem store_advances {new : State (Value T)} (consistent : Consistent system)
    (storing : system.calls call = .store needed seen new) (fresh : Fresh (.get call) system) :
    Advances call system ({ system with
      world := (system.world.store 0 needed new).2
      cachedSeen := if yields system.world needed then system.cachedSeen else seen }.setCall call
        (.read (system.world.store 0 needed new).1)) := by
  obtain ⟨known, fromOuter, _⟩ : Phase.Valid system (.store needed seen new) := storing ▸ consistent.calls call
  have keeps := store_keeps system.world 0 needed new
  have fresh : if yields system.world needed then seen ≤ system.cachedSeen else system.cachedSeen ≤ seen := by
    simpa only [Fresh, storing, Phase.Fresh] using fresh
  have recent := consistent.recent
  refine ⟨⟨rfl, rfl, keeps.users, keeps.values, fun user living stored => ?_, fun other different => ?_⟩, ?_, ?_⟩
  · exact keeps.stores _ _ trivial (by rw [Listener.alive, keeps.users]; exact living) stored
  · simp [System.setCall, different]
  · rintro ⟨equal, outer, state, found⟩
    rcases store_outcome consistent.built needed new with ⟨theirs, _, _, _, _, kept⟩ | ⟨ours, _, stored⟩
    · exact ⟨by simp only [System.setCall, theirs, if_true, equal], outer, state, kept.trans found⟩
    · simp only [ours, Bool.false_eq_true, if_false] at fresh
      refine ⟨?_, _, _, stored⟩
      simp only [System.setCall, ours, Bool.false_eq_true, if_false]
      omega
  · intro calm tracked
    simp only [storing] at tracked
    have current : seen = system.notified := tracked
    simp only [System.setCall, Function.update_self]
    rcases store_outcome consistent.built needed new with ⟨theirs, outer, old, found, chosen, kept⟩ | ⟨ours, chosen, stored⟩
    · simp only [theirs, if_true] at fresh ⊢
      have equal : system.cachedSeen = system.notified := by omega
      refine ⟨⟨equal, outer, old, kept.trans found⟩, ?_⟩
      rw [keeps.values, chosen]
      exact (consistent.cached outer old found).2 equal calm
    · simp only [ours, Bool.false_eq_true, if_false]
      refine ⟨⟨current, _, _, stored⟩, ?_⟩
      rw [keeps.values, chosen]
      exact fromOuter.2 current calm

theorem get_advances [VecGrowth] (consistent : Consistent system) (fresh : Fresh (.get call) system)
    (stepped : step (fuel + 1) (.get call) system = some next) : Advances call system next := by
  have valid := consistent.calls call
  cases phase : system.calls call with
  | idle =>
    obtain ⟨needed, same⟩ := @load_step _ _ (fuel + 1) _ _ consistent.built phase
    rw [stepped] at same
    cases same
    exact setCall_advances fun _ _ => rfl
  | compare needed seen =>
    have equal (current : (system.calls call).Tracks system) : seen = system.notified := by rwa [phase] at current
    rcases @compare_step _ _ (fuel + 1) _ _ _ _ consistent.built phase with ⟨_, same⟩ | ⟨outer, state, found, accepted, same⟩
    · rw [stepped] at same
      cases same
      exact setCall_advances fun _ tracked => equal tracked
    · rw [stepped] at same
      cases same
      apply setCall_advances
      intro calm tracked
      have enough : seen ≤ system.cachedSeen := by
        simp only [Fresh, phase, Phase.Fresh] at fresh
        exact fresh accepted
      have newest : system.cachedSeen = system.notified :=
        Nat.le_antisymm consistent.recent (equal tracked ▸ enough)
      exact ⟨⟨newest, outer, state, found⟩, (consistent.cached outer state found).2 newest calm⟩
  | fetch needed seen =>
    obtain ⟨inner, holds, same⟩ := @fetch_step _ _ (fuel + 1) _ _ _ _ consistent.built phase
    rw [stepped] at same
    cases same
    apply setCall_advances
    intro _ tracked
    rwa [phase] at tracked
  | listen needed seen source =>
    rw [phase] at valid
    obtain ⟨_, ⟨inner, rfl⟩, _⟩ := valid
    obtain ⟨after, same, built, tables, _⟩ := listen_step consistent.built fuel phase
    rw [stepped] at same
    cases same
    have keeps := tables.keeps
    have reading : Reading call system { system with world := after } := by
      refine ⟨rfl, rfl, keeps.users, keeps.values, fun user living stored => ?_, fun _ _ => rfl⟩
      exact keeps.stores _ _ trivial (by rw [Listener.alive, keeps.users]; exact living) stored
    refine ⟨reading.setCall _, ?_, ?_⟩
    · rintro ⟨equal, outer, state, found⟩
      exact ⟨equal, outer, state, (tables.core 0).trans found⟩
    · intro _ tracked
      rw [phase] at tracked
      simp only [System.setCall, Function.update_self]
      exact tracked
  | store needed seen new =>
    have same := @store_step _ _ (fuel + 1) _ _ _ _ _ phase
    rw [stepped] at same
    cases same
    exact store_advances consistent phase fresh
  | read source =>
    rw [phase] at valid
    obtain ⟨inner, rfl⟩ := valid
    have same := @read_step _ _ (fuel + 1) _ _ _ phase
    rw [stepped] at same
    cases same
    apply setCall_advances
    intro _ tracked
    rw [phase] at tracked
    obtain ⟨subscribed, current⟩ := tracked
    refine ⟨subscribed, .inr ?_⟩
    obtain ⟨now, holds, cell⟩ := asSource_cell current
    cases cell
    exact (consistent.built.denotes_iff holds).mpr rfl
  | done value => simp [step, phase, advance] at stepped

end Gets

section Watching
variable {fuel user call heard : Nat} {system next : System T}

theorem get_watches [VecGrowth] {actor : Nat} (consistent : Consistent system) (fresh : Fresh (.get actor) system)
    (stepped : step (fuel + 1) (.get actor) system = some next) (watches : Watches user call heard system) :
    Watches user call heard next := by
  obtain ⟨reading, subscribed, tracks⟩ := get_advances consistent fresh stepped
  unfold Watches
  rw [reading.users, reading.pending]
  apply watches.imp_right
  intro rest
  by_cases calm : Calm system.pending
  · have tracked := rest.resolve_left fun busy => busy calm
    by_cases equal : actor = call
    · subst actor
      exact .inr (tracks calm tracked)
    · rw [reading.calls call (Ne.symm equal)]
      have kept := (step_consistent consistent stepped).built
      exact .inr (tracked.mono consistent.built kept reading.pending reading.notified reading.values subscribed)
  · exact .inl calm

private theorem still_busy {setter : Nat} {cell : Option Nat} (busy : ¬ Calm system.pending)
    (other : system.pending setter ≠ some 0) :
    ¬ Calm (Function.update system.pending setter cell) := by
  refine fun calm => busy fun another waiting => ?_
  by_cases equal : another = setter
  · exact other (equal ▸ waiting)
  · exact calm another (by simpa [Function.update_of_ne equal] using waiting)

/-- A change of an inner cell waits for its notification, and one of the outer cell
keeps the listener waiting for another. -/
theorem replace_watches {setter : Nat} (consistent : Consistent system) (free : system.pending setter = none)
    (change : Change T) (watches : Watches user call heard system) : Watches user call heard { system with
      world := system.world.replace change.cell change.value
      pending := Function.update system.pending setter (some change.cell) } := by
  have kept := (replace_consistent consistent free change).built
  apply watches.imp_right
  intro rest
  by_cases outer : change.cell = 0
  · exact .inl fun calm => calm setter (by simp [outer])
  · refine rest.imp (fun busy => still_busy busy (by simp [free])) fun tracked => ?_
    have same : ((system.world.replace change.cell change.value).cells 0).value = (system.world.cells 0).value := by
      simp [World.replace, Function.update_of_ne (Ne.symm outer)]
    cases phase : system.calls call with
    | idle | compare needed seen | fetch needed seen | listen needed seen source | store needed seen new =>
      rw [phase] at tracked
      exact tracked
    | read source =>
      rw [phase] at tracked
      exact ⟨tracked.1, (congrArg asSource same).trans tracked.2⟩
    | done value =>
      rw [phase] at tracked
      obtain ⟨subscribed, rest⟩ := tracked
      refine ⟨subscribed, ?_⟩
      obtain ⟨inner, holds⟩ := consistent.built.source
      by_cases changed : change.cell = inner + 1
      · exact .inl ⟨inner, setter, same.trans holds, by simp [changed]⟩
      · refine rest.imp ?_ fun current => ?_
        · rintro ⟨again, other, now, waiting⟩
          have different : other ≠ setter := by
            rintro rfl
            rw [free] at waiting
            cases waiting
          exact ⟨again, other, same.trans now, by simpa [Function.update_of_ne different] using waiting⟩
        · rw [kept.denotes_iff (same.trans holds), (consistent.built.denotes_iff holds).mp current]
          simp [World.replace, Function.update_of_ne (Ne.symm changed)]

private theorem subscribed_rings {cell : Nat} {after : World (Value T)} (consistent : Consistent system)
    (calm : Calm system.pending) (subscribed : Subscribed system) {inner : Nat}
    (holds : (system.world.cells 0).value = .source inner) (notified : World.notify fuel (.cell cell) system.world = .ok () after)
    (current : cell = inner + 1) : Rung system.world after 0 := by
  obtain ⟨newest, outer, state, found⟩ := subscribed
  have isSource := (consistent.cached outer state found).2 newest calm
  rw [holds] at isSource
  obtain ⟨_, isOpen, _, attached⟩ := consistent.built.valid.cached 0 _ _ found
  rw [← Option.some.inj isSource] at attached
  obtain ⟨_, listeners, listed, each⟩ := notify_ok notified
  subst cell
  rcases attached with closed | stored
  · rw [listed] at closed
    cases closed
  · obtain ⟨table, present, member⟩ := stored.listed
    rw [listed] at present
    cases present
    exact each _ member isOpen

theorem notify_watches {setter cell : Nat} {after : World (Value T)} (consistent : Consistent system)
    (waiting : system.pending setter = some cell) (notified : World.notify fuel (.cell cell) system.world = .ok () after)
    (kept : Built after) (living : (after.users user).alive = true)
    (stored : system.world.Stores (.flatten 0) (.user user)) (sofar : heard ≤ (system.world.users user).received)
    (watches : Watches user call heard system) : Watches user call heard { system with
      world := after
      pending := Function.update system.pending setter none
      notified := if cell = 0 then system.notified + 1 else system.notified } := by
  obtain ⟨⟨steady, _⟩, listeners, listed, each⟩ := notify_ok notified
  have lived : (system.world.users user).alive = true := by rwa [steady.alive] at living
  have told (rung : Rung system.world after 0) : heard < (after.users user).received :=
    Nat.lt_of_le_of_lt sofar (rung.reaches stored lived)
  unfold Watches
  by_cases outer : cell = 0
  · subst cell
    obtain ⟨table, present, member⟩ := consistent.built.listens.listed
    rw [listed] at present
    cases present
    exact .inl (told (each _ member))
  · rcases watches with more | rest
    · exact .inl (Nat.lt_of_lt_of_le more (steady.received user))
    by_cases calm : Calm system.pending
    · have tracked := rest.resolve_left fun busy => busy calm
      simp only [if_neg outer]
      cases phase : system.calls call with
      | idle | compare needed seen | fetch needed seen | listen needed seen source | store needed seen new =>
        rw [phase] at tracked
        exact .inr (.inr tracked)
      | read source =>
        rw [phase] at tracked
        obtain ⟨⟨newest, cached⟩, current⟩ := tracked
        exact .inr (.inr ⟨⟨newest, by rwa [steady.core]⟩, (congrArg asSource (steady.values 0)).trans current⟩)
      | done value =>
        rw [phase] at tracked
        obtain ⟨subscribed, rest⟩ := tracked
        obtain ⟨inner, holds⟩ := consistent.built.source
        have same := (steady.values 0).trans holds
        by_cases changed : cell = inner + 1
        · exact .inl (told (subscribed_rings consistent calm subscribed holds notified changed))
        · refine .inr (.inr ⟨⟨subscribed.1, by rw [steady.core]; exact subscribed.2⟩, rest.imp ?_ fun current => ?_⟩)
          · rintro ⟨again, other, now, pending⟩
            rw [holds] at now
            cases now
            have different : other ≠ setter := by
              rintro rfl
              rw [waiting] at pending
              exact changed (Option.some.inj pending)
            exact ⟨inner, other, same, by simpa [Function.update_of_ne different] using pending⟩
          · rw [kept.denotes_iff same, steady.values, (consistent.built.denotes_iff holds).mp current]
    · exact .inr (.inl (still_busy calm (by simpa [waiting] using outer)))

private theorem world_watches {after : World (Value T)} (consistent : Consistent system) (kept : Built after)
    (core : after.core 0 = system.world.core 0) (values : ∀ id, (after.cells id).value = (system.world.cells id).value)
    (received : (after.users user).received = (system.world.users user).received)
    (watches : Watches user call heard system) : Watches user call heard { system with world := after } := by
  unfold Watches
  simp only [received]
  refine watches.imp_right fun rest => rest.imp_right fun tracked => ?_
  exact tracked.mono consistent.built kept rfl rfl values fun ⟨newest, cached⟩ => ⟨newest, core ▸ cached⟩

variable [VecGrowth]

theorem step_follows {action : Action T} (consistent : Consistent system) (fresh : Fresh action system)
    (stepped : step (fuel + 1) action system = some next) : Follows user system next := by
  cases action with
  | get actor =>
    have reading := (get_advances consistent fresh stepped).reading
    refine ⟨fun living => ?_, Nat.le_of_eq (by rw [reading.users]), fun living => reading.stores user ?_⟩
    all_goals rwa [reading.users] at living
  | replace setter change =>
    simp only [step] at stepped
    split at stepped
    · cases stepped
    · cases stepped
      refine ⟨fun living => living, Nat.le_refl _, fun _ stored => ?_⟩
      simpa only [World.Stores, replace_notifierAt] using stored
  | notify setter =>
    cases waiting : system.pending setter with
    | none => simp [step, waiting] at stepped
    | some cell =>
      obtain ⟨after, notified, same, _⟩ := notify_consistent fuel consistent waiting
      rw [stepped] at same
      cases same
      have steady := (notify_ok notified).1.steady
      have lived (living : (after.users user).alive = true) : (system.world.users user).alive = true := by
        rwa [steady.alive] at living
      exact ⟨lived, steady.received user, fun living => steady.stores _ _ (lived living)⟩
  | listen other =>
    obtain ⟨after, listened, same, _⟩ := listen_consistent fuel consistent other
    rw [stepped] at same
    cases same
    have keeps := (listen_ok consistent.built.valid.opened listened).1.keeps
    refine ⟨fun living => ?_, Nat.le_of_eq (by rw [keeps.users]), fun living => keeps.stores _ _ trivial living⟩
    rwa [keeps.users] at living
  | die other =>
    cases stepped
    refine ⟨fun living => ?_, Nat.le_of_eq ?_, fun _ stored => stored⟩
    · by_cases equal : user = other
      · simp [die, equal] at living
      · simpa [die, equal] using living
    · by_cases equal : user = other <;> simp [die, equal]

theorem step_watches {action : Action T} (consistent : Consistent system) (fresh : Fresh action system)
    (stepped : step (fuel + 1) action system = some next) (living : (next.world.users user).alive = true)
    (stored : system.world.Stores (.flatten 0) (.user user)) (sofar : heard ≤ (system.world.users user).received)
    (watches : Watches user call heard system) : Watches user call heard next := by
  cases action with
  | get actor => exact get_watches consistent fresh stepped watches
  | replace setter change =>
    simp only [step] at stepped
    split at stepped
    · cases stepped
    next free =>
      cases stepped
      exact replace_watches consistent free change watches
  | notify setter =>
    cases waiting : system.pending setter with
    | none => simp [step, waiting] at stepped
    | some cell =>
      obtain ⟨after, notified, same, kept⟩ := notify_consistent fuel consistent waiting
      rw [stepped] at same
      cases same
      exact notify_watches consistent waiting notified kept.built living stored sofar watches
  | listen other =>
    obtain ⟨after, listened, same, kept⟩ := listen_consistent fuel consistent other
    rw [stepped] at same
    cases same
    obtain ⟨tables, _⟩ := listen_ok consistent.built.valid.opened listened
    exact world_watches consistent kept.built (tables.core 0) tables.keeps.values (by rw [tables.keeps.users]) watches
  | die other =>
    cases stepped
    refine world_watches consistent (die_consistent consistent other).built rfl (fun _ => rfl) ?_ watches
    by_cases equal : user = other <;> simp [die, equal]

theorem run_follows {first last : System T} (run : Reaches (step (fuel + 1)) Fresh first last)
    (consistent : Consistent first) : Follows user first last := by
  induction run with
  | refl => exact .refl user first
  | tail reached move ih =>
    obtain ⟨action, fresh, stepped⟩ := move
    exact ih.trans (step_follows (run_consistent reached consistent) fresh stepped)

theorem run_watches {first last : System T} (run : Reaches (step (fuel + 1)) Fresh first last)
    (consistent : Consistent first) (living : (last.world.users user).alive = true)
    (stored : first.world.Stores (.flatten 0) (.user user)) (sofar : heard ≤ (first.world.users user).received)
    (watches : Watches user call heard first) : Watches user call heard last := by
  induction run with
  | refl => exact watches
  | tail reached move ih =>
    obtain ⟨action, fresh, stepped⟩ := move
    have before := run_consistent reached consistent
    have follows : Follows user first _ := run_follows reached consistent
    have lived := (step_follows before fresh stepped).alive living
    exact step_watches before fresh stepped living (follows.stored lived stored) (Nat.le_trans sofar follows.received)
      (ih lived)

end Watching

section Main
variable [VecGrowth] {fuel : Nat}

/-- If a listener was registered before a `get` began and has heard nothing since,
the value read is the current one as soon as nobody is in the middle of setting. -/
theorem unnotified_get_is_current {inner : Nat} {data : Nat → T} {alive : Nat → Bool} {world : World (Value T)}
    {user call : Nat} {value : Value T} {before listening first loaded last : System T}
    (created : create (fuel + 1) inner data alive = some world)
    (begun : Reaches (step (fuel + 1)) Fresh (System.new world) before)
    (registered : step (fuel + 1) (.listen user) before = some listening)
    (meanwhile : Reaches (step (fuel + 1)) Fresh listening first) (idle : first.calls call = .idle)
    (loads : step (fuel + 1) (.get call) first = some loaded)
    (later : Reaches (step (fuel + 1)) Fresh loaded last) (returned : last.calls call = .done value)
    (quiet : ∀ setter, last.pending setter = none) (living : (last.world.users user).alive = true)
    (silent : (last.world.users user).received = (first.world.users user).received) :
    Denotes asSource last.world flattened value := by
  have atBefore := run_consistent begun (new_consistent created)
  have atListening := step_consistent atBefore registered
  have atFirst := run_consistent meanwhile atListening
  have atLoaded := step_consistent atFirst loads
  obtain ⟨needed, same⟩ := @load_step _ _ (fuel + 1) _ _ atFirst.built idle
  rw [loads] at same
  cases same
  -- the listener was registered and stayed so until the load
  obtain ⟨after, listened, stepped, _⟩ := listen_consistent fuel atBefore user
  rw [registered] at stepped
  cases stepped
  have afterLoad : Follows user _ last := run_follows later atLoaded
  have atLoad : (first.world.users user).alive = true := afterLoad.alive living
  have since : Follows user _ first := run_follows meanwhile atListening
  obtain ⟨tables, held⟩ := listen_ok atBefore.built.valid.opened listened
  have stored : after.Stores (.flatten 0) (.user user) := by
    apply held
    rw [Listener.alive, ← tables.keeps.users]
    exact since.alive atLoad
  -- nothing was heard and nothing is pending, so the call has tracked the value
  have began : Watches user call (first.world.users user).received
      (first.setCall call (.compare needed first.notified)) := by
    refine .inr (.inr ?_)
    simp only [System.setCall, Function.update_self]
    exact rfl
  have watched := run_watches later atLoaded living (since.stored atLoad stored) (Nat.le_refl _) began
  rcases watched with more | busy | tracked
  · rw [silent] at more
    exact absurd more (Nat.lt_irrefl _)
  · exact absurd (fun setter => by simp [quiet]) busy
  · rw [returned] at tracked
    obtain ⟨_, ⟨_, setter, _, waiting⟩ | current⟩ := tracked
    · rw [quiet] at waiting
      cases waiting
    · exact current

end Main

theorem unnotified_get_is_current_run : ∃ last : System Nat, last.calls 0 = .done (.plain 1) ∧
    Denotes asSource last.world flattened (.plain 1) := by
  have run : ∃ start before listening first loaded last,
      @create _ .usual 1 0 id (fun _ => true) = some start ∧
      exec (guarded (@step _ .usual 1) Fresh) [.replace 0 (.outer 1)] (System.new start) = some before ∧
      @step _ .usual 1 (.listen 7) before = some listening ∧
      exec (guarded (@step _ .usual 1) Fresh) [.notify 0] listening = some first ∧
      first.calls 0 = .idle ∧ @step _ .usual 1 (.get 0) first = some loaded ∧
      exec (guarded (@step _ .usual 1) Fresh) [.get 0, .get 0, .get 0, .get 0, .get 0] loaded = some last ∧
      last.calls 0 = .done (.plain 1) ∧ (∀ setter, last.pending setter = none) ∧ (last.world.users 7).alive = true ∧
      (last.world.users 7).received = (first.world.users 7).received :=
    ⟨_, _, _, _, _, _, rfl, rfl, rfl, rfl, rfl, rfl, rfl, rfl, fun setter => by cases setter <;> rfl, rfl, rfl⟩
  obtain ⟨start, before, listening, first, loaded, last, created, begun, registered, meanwhile, idle, loads, later,
    returned, quiet, living, silent⟩ := run
  refine ⟨last, returned, ?_⟩
  exact @unnotified_get_is_current _ .usual 0 0 id _ start 7 0 _ before listening first loaded last created
    (guarded_reaches begun) registered (guarded_reaches meanwhile) idle loads (guarded_reaches later) returned quiet living
    silent

/-- A step by one of the first `limit` threads. -/
def Action.within (limit : Nat) : Action T → Bool
  | .get call => call < limit
  | .replace setter _ | .notify setter => setter < limit
  | .listen _ | .die _ => true

section Untouched
variable [VecGrowth] {fuel limit : Nat} {first last : System T}

private theorem advance_within {call id : Nat} {system next : System T} {phase : Phase T}
    (advanced : advance fuel call system phase = some next) (outside : id ≠ call) :
    next.calls id = system.calls id ∧ next.pending = system.pending := by
  cases phase with
  | idle =>
    obtain ⟨shared, _, rfl⟩ := Option.map_eq_some_iff.mp advanced
    simp [System.setCall, outside]
  | compare needed seen =>
    obtain ⟨shared, _, rfl⟩ := Option.map_eq_some_iff.mp advanced
    split <;> simp [System.setCall, outside]
  | fetch needed seen =>
    obtain ⟨shared, _, advanced⟩ := Option.bind_eq_some_iff.mp advanced
    split at advanced
    · cases advanced
    · obtain ⟨source, _, rfl⟩ := Option.map_eq_some_iff.mp advanced
      simp [System.setCall, outside]
  | listen needed seen source =>
    simp only [advance] at advanced
    split at advanced <;> cases advanced
    simp [System.setCall, outside]
  | store needed seen new =>
    cases advanced
    simp [System.setCall, outside]
  | read source =>
    simp only [advance] at advanced
    split at advanced <;> cases advanced
    simp [System.setCall, outside]
  | done value => cases advanced

theorem step_within {action : Action T} (stepped : step fuel action first = some last)
    (inside : action.within limit = true) {id : Nat} (outside : limit ≤ id) :
    last.calls id = first.calls id ∧ last.pending id = first.pending id := by
  cases action with
  | get call =>
    have different : id ≠ call := by
      simp only [Action.within, decide_eq_true_eq] at inside
      omega
    obtain ⟨calls, pending⟩ := advance_within stepped different
    exact ⟨calls, by rw [pending]⟩
  | replace setter change =>
    have different : id ≠ setter := by
      simp only [Action.within, decide_eq_true_eq] at inside
      omega
    simp only [step] at stepped
    split at stepped <;> cases stepped
    simp [different]
  | notify setter =>
    have different : id ≠ setter := by
      simp only [Action.within, decide_eq_true_eq] at inside
      omega
    simp only [step] at stepped
    split at stepped
    · cases stepped
    · obtain ⟨world, _, rfl⟩ := Option.map_eq_some_iff.mp stepped
      simp [different]
  | listen user =>
    obtain ⟨world, _, rfl⟩ := Option.map_eq_some_iff.mp stepped
    exact ⟨rfl, rfl⟩
  | die user =>
    cases stepped
    exact ⟨rfl, rfl⟩

private theorem exec_within {actions : List (Action T)} (executed : exec (step fuel) actions first = some last)
    (inside : actions.all (·.within limit) = true) {id : Nat} (outside : limit ≤ id) :
    last.calls id = first.calls id ∧ last.pending id = first.pending id := by
  induction actions generalizing first with
  | nil =>
    cases executed
    exact ⟨rfl, rfl⟩
  | cons action rest ih =>
    obtain ⟨middle, stepped, later⟩ := Option.bind_eq_some_iff.mp executed
    obtain ⟨here, there⟩ := Bool.and_eq_true_iff.mp inside
    obtain ⟨calls, pending⟩ := step_within stepped here outside
    obtain ⟨laterCalls, laterPending⟩ := ih later there
    exact ⟨laterCalls.trans calls, laterPending.trans pending⟩

end Untouched

def Phase.isIdle : Phase T → Bool
  | .idle => true
  | _ => false

/-- The value that a call has returned. -/
def Phase.result : Phase T → Option (Value T)
  | .done value => some value
  | _ => none

private theorem Phase.idle_of_isIdle {phase : Phase T} (idle : phase.isIdle = true) : phase = .idle := by
  cases phase <;> first | rfl | cases idle

private theorem Phase.done_of_result {phase : Phase T} {value : Value T} (returned : phase.result = some value) :
    phase = .done value := by
  cases phase <;> cases returned
  rfl

/-- Call 0 loads the generation 1 and is slow. Call 1 loads the generation 2, subscribes
to the new inner cell and returns its value; then call 0 stores its state over that of
call 1, and the next change of the inner cell is announced to nobody. -/
theorem slow_get_unsubscribes : ∃ (start : World (Value Nat)) (before listening first loaded last : System Nat),
    @create _ .usual 1 0 id (fun _ => true) = some start ∧
    Reaches (@step _ .usual 1) Free (System.new start) before ∧
    @step _ .usual 1 (.listen 7) before = some listening ∧ Reaches (@step _ .usual 1) Free listening first ∧
    first.calls 1 = .idle ∧ @step _ .usual 1 (.get 1) first = some loaded ∧
    Reaches (@step _ .usual 1) Free loaded last ∧ last.calls 1 = .done (.plain 2) ∧
    (∀ setter, last.pending setter = none) ∧
    (∀ call, last.calls call = .idle ∨ ∃ value, last.calls call = .done value) ∧
    (last.world.users 7).alive = true ∧ (last.world.users 7).received = (first.world.users 7).received ∧
    Denotes asSource last.world flattened (.plain 9) ∧ ¬ Denotes asSource last.world flattened (.plain 2) := by
  have run : ((@create Nat .usual 1 0 id (fun _ => true)).bind fun start =>
      (exec (@step _ .usual 1) [.replace 0 (.outer 1), .notify 0] (System.new start)).bind fun before =>
      (@step _ .usual 1 (.listen 7) before).bind fun listening =>
      (exec (@step _ .usual 1) [.get 0, .get 0, .get 0, .replace 0 (.outer 2), .notify 0] listening).bind fun first =>
      (@step _ .usual 1 (.get 1) first).bind fun loaded =>
      (exec (@step _ .usual 1) [.get 1, .get 1, .get 1, .get 1, .get 1, .get 0, .get 0, .get 0,
        .replace 0 (.inner 2 9), .notify 0] loaded).map fun last =>
      (first.calls 1).isIdle && (last.calls 1).result == some (.plain 2) && (last.calls 0).result == some (.plain 1) &&
        last.pending 0 == none && last.pending 1 == none && (last.world.users 7).alive &&
        (last.world.users 7).received == (first.world.users 7).received &&
        (last.world.cells 0).value == .source 2 && (last.world.cells 3).value == .plain 9) = some true := by
    decide +kernel
  obtain ⟨start, created, run⟩ := Option.bind_eq_some_iff.mp run
  obtain ⟨before, begun, run⟩ := Option.bind_eq_some_iff.mp run
  obtain ⟨listening, registered, run⟩ := Option.bind_eq_some_iff.mp run
  obtain ⟨first, meanwhile, run⟩ := Option.bind_eq_some_iff.mp run
  obtain ⟨loaded, loads, run⟩ := Option.bind_eq_some_iff.mp run
  obtain ⟨last, later, seen⟩ := Option.map_eq_some_iff.mp run
  simp only [Bool.and_eq_true, beq_iff_eq] at seen
  obtain ⟨⟨⟨⟨⟨⟨⟨⟨idle, fast⟩, slow⟩, quiet⟩, free⟩, living⟩, silent⟩, outer⟩, inner⟩ := seen
  have others {id : Nat} (outside : 2 ≤ id) : last.calls id = .idle ∧ last.pending id = none := by
    obtain ⟨c1, p1⟩ := @exec_within _ .usual 1 2 _ _ _ begun rfl id outside
    obtain ⟨c2, p2⟩ := @step_within _ .usual 1 2 _ _ _ registered rfl id outside
    obtain ⟨c3, p3⟩ := @exec_within _ .usual 1 2 _ _ _ meanwhile rfl id outside
    obtain ⟨c4, p4⟩ := @step_within _ .usual 1 2 _ _ _ loads rfl id outside
    obtain ⟨c5, p5⟩ := @exec_within _ .usual 1 2 _ _ _ later rfl id outside
    rw [c5, c4, c3, c2, c1, p5, p4, p3, p2, p1]
    exact ⟨rfl, rfl⟩
  have consistent : Consistent last := by
    refine @run_consistent _ .usual 0 _ _ _ (exec_reaches later) ?_
    refine @step_consistent _ .usual 0 _ ?_ _ _ loads
    refine @run_consistent _ .usual 0 _ _ _ (exec_reaches meanwhile) ?_
    refine @step_consistent _ .usual 0 _ ?_ _ _ registered
    exact @run_consistent _ .usual 0 _ _ _ (exec_reaches begun) (@new_consistent _ .usual 0 _ _ _ _ created)
  have denotes (value : Value Nat) : Denotes asSource last.world flattened value ↔ value = (last.world.cells 3).value :=
    consistent.built.denotes_iff outer
  refine ⟨start, before, listening, first, loaded, last, created, exec_reaches begun, registered, exec_reaches meanwhile,
    Phase.idle_of_isIdle idle, loads, exec_reaches later, Phase.done_of_result fast, fun setter => ?_, fun call => ?_,
    living, silent, (denotes _).mpr inner.symm, fun stale => ?_⟩
  · match setter with
    | 0 => exact quiet
    | 1 => exact free
    | id + 2 => exact (others (Nat.le_add_left 2 id)).2
  · match call with
    | 0 => exact .inr ⟨_, Phase.done_of_result slow⟩
    | 1 => exact .inr ⟨_, Phase.done_of_result fast⟩
    | id + 2 => exact .inl (others (Nat.le_add_left 2 id)).1
  · have equal := ((denotes _).mp stale).trans inner
    cases equal

end Nosy.Sources.FlattenedThreads
