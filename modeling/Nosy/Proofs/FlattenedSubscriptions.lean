import Nosy.Proofs.FlattenedUse

/-! What the user of a flattened cell sees of its subscriptions: how many of them are
made, and which changes listeners are told of. -/

namespace Nosy.Sources.FlattenedUse
open FlattenedCell Transition
open EStateM (Result)

variable {T : Type}

section Subscriptions
variable [VecGrowth] {record next : Record T} {fuel : Nat}

theorem Tidy.cached_iff (tidy : Tidy record) (read : record.readAt ≠ none) :
    Cached record.world ↔ 2 ^ 32 ∣ record.sets := by
  obtain ⟨value, fetched⟩ := Option.ne_none_iff_exists'.mp (mt tidy.unread.mpr read)
  obtain ⟨inner, state, _, _, found, _⟩ := tidy.reading fetched
  have built : Built record.world := tidy.kept.built
  have zero := (built.valid.cached 0 _ _ found).1
  have counted : record.world.generation 0 = some (UInt32.ofNat record.sets) := tidy.kept.counted
  constructor
  · intro reads
    obtain ⟨source, cached⟩ := reads
    by_contra behind
    have stale : ∀ old, some state = some old → record.world.generation 0 ≠ some old.generation := by
      intro old same current
      cases same
      rw [counted, zero] at current
      exact behind (ofNat_zero (Option.some.inj current))
    have asked := reads_stale found stale .illTyped 0
    cases (cached _ 0).symm.trans asked
  · intro round
    obtain ⟨rounds, equal⟩ := round
    refine ⟨state.source, reads_cached found ?_⟩
    rw [counted, zero, equal, UInt32.ofNat_mul]
    simp

/-- There is one subscription for each `get` that came after a change, and one for the first. -/
structure Spent (record : Record T) : Prop where
  unread : record.readAt = none → subscriptions record.world = 0
  read : ∀ sets, record.readAt = some sets → subscriptions record.world ≤ 1 + sets ∧ sets ≤ record.sets

theorem step_unspent {action : Action T} (other : action ≠ .get) (stepped : step fuel action record = some next) :
    subscriptions next.world = subscriptions record.world ∧ next.readAt = record.readAt ∧ record.sets ≤ next.sets := by
  cases action with
  | set change =>
    obtain ⟨after, ended, rfl⟩ := Option.map_eq_some_iff.mp stepped
    obtain ⟨_, done⟩ := finished_ok ended
    refine ⟨(notify_ok done).1.steady.nextGate, rfl, ?_⟩
    dsimp only
    split
    · exact Nat.le_succ _
    · exact Nat.le_refl _
  | get => exact absurd rfl other
  | listen user =>
    obtain ⟨after, ended, rfl⟩ := Option.map_eq_some_iff.mp stepped
    obtain ⟨_, done⟩ := finished_ok ended
    exact ⟨(operate_listen_ok done).1.nextGate, rfl, Nat.le_refl _⟩
  | die user =>
    cases stepped
    exact ⟨rfl, rfl, Nat.le_refl _⟩

theorem Spent.step (spent : Spent record) (tidy : Tidy record) {action : Action T} (allowed : AtZero action record)
    (stepped : FlattenedUse.step (fuel + 1) action record = some next) : Spent next := by
  by_cases reading : action = .get
  · subst action
    rcases tidy.get_cases fuel with ⟨⟨read, _⟩, same⟩ | ⟨behind, inner, after, subscribed, same⟩
    · rw [stepped] at same
      cases same
      obtain ⟨sets, before⟩ := Option.ne_none_iff_exists'.mp read
      have least := spent.read sets before
      refine ⟨nofun, fun now reading => ?_⟩
      cases reading
      refine ⟨?_, Nat.le_refl _⟩
      show subscriptions record.world ≤ 1 + record.sets
      omega
    · rw [stepped] at same
      cases same
      refine ⟨nofun, fun now reading => ?_⟩
      cases reading
      refine ⟨?_, Nat.le_refl _⟩
      have one : subscriptions after = subscriptions record.world + 1 := subscribed.nextGate
      show subscriptions after ≤ 1 + record.sets
      cases read : record.readAt with
      | none =>
        have nothing := spent.unread read
        omega
      | some sets =>
        have least := spent.read sets read
        -- a repeated read would have been cached
        have changed : sets ≠ record.sets := by
          intro same
          subst sets
          exact behind ⟨by simp [read], allowed read⟩
        omega
  · obtain ⟨same, readAt, grown⟩ := step_unspent reading stepped
    constructor
    · intro unread
      rw [same]
      exact spent.unread (readAt.symm.trans unread)
    · intro sets read
      have least := spent.read sets (readAt.symm.trans read)
      omega

/-- A `get` that repeats another is served from the cache exactly if the number of
outer changes is a multiple of 2 ^ 32; while all of them are, there is at most one
subscription more than changes. -/
theorem cached_at_zero {inner : Nat} {data : Nat → T} {alive : Nat → Bool} {start : Record T}
    (created : create (fuel + 1) inner data alive = some start) :
    (∀ record, Reaches (step (fuel + 1)) Free start record → record.readAt = some record.sets →
      (Cached record.world ↔ 2 ^ 32 ∣ record.sets)) ∧
    ∀ record, Reaches (step (fuel + 1)) AtZero start record → subscriptions record.world ≤ 1 + record.sets := by
  obtain ⟨tidy, unread, none⟩ := create_tidy created
  constructor
  · intro record run read
    apply (run_tidy run tidy).cached_iff
    simp [read]
  · intro record run
    have spent : Tidy record ∧ Spent record := by
      apply run.invariant _ ⟨tidy, fun _ => none, by simp [unread]⟩
      intro action before after allowed stepped kept
      obtain ⟨tidy, spent⟩ := kept
      exact ⟨run_tidy (.single allowed stepped) tidy, spent.step tidy allowed stepped⟩
    cases read : record.readAt with
    | none =>
      rw [spent.2.unread read]
      exact Nat.zero_le _
    | some sets =>
      have least := spent.2.read sets read
      omega

end Subscriptions

theorem cached_at_zero_first : ∃ record : Record Nat, record.readAt = some record.sets ∧ @Cached _ .usual record.world ∧
    subscriptions record.world ≤ 1 := by
  have run : ∃ start record, @create _ .usual 1 0 id (fun _ => true) = some start ∧
      @step _ .usual 1 .get start = some record ∧ start.readAt = none ∧ record.sets = 0 ∧ record.readAt = some 0 :=
    ⟨_, _, rfl, rfl, rfl, rfl, rfl⟩
  obtain ⟨start, record, created, got, unread, sets, read⟩ := run
  obtain ⟨cached, bounded⟩ := @cached_at_zero _ .usual 0 0 id (fun _ => true) start created
  have first : AtZero .get start := by simp [AtZero, unread]
  refine ⟨record, by rw [read, sets], ?_, ?_⟩
  · apply (cached record (.single trivial got) (by rw [read, sets])).mpr
    rw [sets]
    exact Nat.dvd_zero _
  · have least := bounded record (.single first got)
    rwa [sets] at least

theorem repeated_get_subscribes : ∃ start record : Record Nat, @create _ .usual 1 0 id (fun _ => true) = some start ∧
    Reaches (@step _ .usual 1) Free start record ∧ record.readAt = some record.sets ∧
    ¬ @Cached _ .usual record.world ∧ 1 + record.sets < subscriptions record.world := by
  have run : ∃ start record, @create _ .usual 1 0 id (fun _ => true) = some start ∧
      exec (@step _ .usual 1) [.get, .set (.outer 3), .get, .get] start = some record ∧ record.sets = 1 ∧
      record.readAt = some 1 ∧ subscriptions record.world = 3 ∧
      @getSourceAndListenIfNew _ .usual asSource (fun _ world => .error .illTyped world) 0 0 record.world =
        .error .illTyped record.world :=
    ⟨_, _, rfl, rfl, rfl, rfl, rfl, rfl⟩
  obtain ⟨start, record, created, executed, sets, read, three, asked⟩ := run
  refine ⟨start, record, created, exec_reaches executed, by rw [read, sets], ?_, by omega⟩
  intro reads
  obtain ⟨source, cached⟩ := reads
  cases (cached _ 0).symm.trans asked

section Messages
variable [VecGrowth] {fuel inner : Nat} {data : Nat → T} {alive : Nat → Bool} {start record : Record T}

/-- At most one listener is behind an open gate, at the cell that was read last. So
each of the living is told once of every change of that cell and of the outer cell,
and never of a change of another inner cell. -/
theorem forwards_once (created : create (fuel + 1) inner data alive = some start)
    (run : Reaches (step (fuel + 1)) Free start record) :
    (record.readAt ≠ none → ∃ current, record.read = some (current + 1)) ∧
    (∀ id, liveInner record.world id = if record.read = some id then 1 else 0) ∧
    ∀ change : Change T, ∃ after, Sources.set (fuel + 1) change.cell change.value record.world = .ok () after ∧
      ∀ user, (record.world.users user).alive = true → (after.users user).received =
        (record.world.users user).received +
          if change.cell = 0 ∨ record.read = some change.cell then record.listens user else 0 := by
  have tidy := run_tidy run (create_tidy created).1
  refine ⟨fun read => ?_, fun id => ?_, fun change => ?_⟩
  · obtain ⟨value, fetched⟩ := Option.ne_none_iff_exists'.mp (mt tidy.unread.mpr read)
    obtain ⟨current, _, _, read, _⟩ := tidy.reading fetched
    exact ⟨current, read⟩
  · obtain ⟨listeners, listed, _⟩ := tidy.kept.built.flat.cells id
    rw [liveInner_listed listed, tidy.live listed]
  · obtain ⟨next, _, _, done⟩ := tidy.set fuel change
    exact ⟨next.world, done, fun user => tidy.set_tells done⟩

/-- A listener is told of a change of the current inner cell exactly if that cell is
also what was fetched last; listening does not fetch it. -/
theorem told_iff_fetched (created : create (fuel + 1) inner data alive = some start)
    (run : Reaches (step (fuel + 1)) Free start record) {user : Nat} (living : (record.world.users user).alive = true)
    (listening : 0 < record.listens user) {current : Nat} (holds : (record.world.cells 0).value = .source current)
    (value : T) : ∃ after, Sources.set (fuel + 1) (current + 1) (.plain value) record.world = .ok () after ∧
      ((record.world.users user).received < (after.users user).received ↔
        record.fetched = some (record.world.cells 0).value) := by
  have tidy := run_tidy run (create_tidy created).1
  obtain ⟨next, _, _, done⟩ := tidy.set fuel (.inner current value)
  refine ⟨next.world, done, ?_⟩
  have told := tidy.set_tells done living
  have read : record.read = some (current + 1) ↔ record.fetched = some (.source current) := by
    constructor
    · intro read
      have source := tidy.read
      rw [read] at source
      obtain ⟨value, fetched, isSource⟩ := Option.bind_eq_some_iff.mp source.symm
      obtain ⟨other, rfl, same⟩ := asSource_cell isSource
      cases same
      exact fetched
    · intro fetched
      obtain ⟨other, _, same, read, _⟩ := tidy.reading fetched
      cases same
      exact read
  rw [told, holds, ← read]
  by_cases reads : record.read = some (current + 1)
  · simp [Change.cell, reads, listening]
  · simp [Change.cell, reads]

end Messages

theorem forwards_once_moved : ∃ (record : Record Nat) (outer old new : World (Value Nat)),
    record.listens 7 = 1 ∧ liveInner record.world 1 = 0 ∧ liveInner record.world 4 = 1 ∧
    (outer.users 7).received = (record.world.users 7).received + 1 ∧
    (old.users 7).received = (record.world.users 7).received ∧
    (new.users 7).received = (record.world.users 7).received + 1 := by
  have run : ∃ start record, @create _ .usual 1 0 id (fun _ => true) = some start ∧
      exec (@step _ .usual 1) [.listen 7, .get, .set (.outer 3), .get] start = some record ∧
      record.read = some 4 ∧ record.listens 7 = 1 ∧ (record.world.users 7).alive = true :=
    ⟨_, _, rfl, rfl, rfl, rfl, rfl⟩
  obtain ⟨start, record, created, executed, read, once, living⟩ := run
  obtain ⟨_, live, told⟩ := @forwards_once _ .usual 0 0 id (fun _ => true) start record created (exec_reaches executed)
  obtain ⟨outer, _, toldOuter⟩ := told (.outer 0)
  obtain ⟨old, _, toldOld⟩ := told (.inner 0 5)
  obtain ⟨new, _, toldNew⟩ := told (.inner 3 5)
  refine ⟨record, outer, old, new, once, ?_, ?_, ?_, ?_, ?_⟩
  · simp [live, read]
  · simp [live, read]
  · simp [toldOuter 7 living, Change.cell, once]
  · simp [toldOld 7 living, Change.cell, read]
  · simp [toldNew 7 living, Change.cell, read, once]

theorem told_iff_fetched_once : ∃ record after : Record Nat, record.listens 7 = 1 ∧
    @step _ .usual 1 (.set (.inner 0 5)) record = some after ∧
    (record.world.users 7).received < (after.world.users 7).received := by
  have run : ∃ start record, @create _ .usual 1 0 id (fun _ => true) = some start ∧
      exec (@step _ .usual 1) [.get, .listen 7] start = some record ∧ record.listens 7 = 1 ∧
      (record.world.users 7).alive = true ∧ (record.world.cells 0).value = .source 0 ∧
      record.fetched = some (record.world.cells 0).value :=
    ⟨_, _, rfl, rfl, rfl, rfl, rfl, rfl⟩
  obtain ⟨start, record, created, executed, once, living, holds, fetched⟩ := run
  obtain ⟨after, done, told⟩ := @told_iff_fetched _ .usual 0 0 id (fun _ => true) start record created
    (exec_reaches executed) 7 living (by omega) 0 holds 5
  have stepped : @step _ .usual 1 (.set (.inner 0 5)) record = some { record with world := after } := by
    simp only [step, Change.cell, Change.value, done, finished, Option.map_some]
    rfl
  exact ⟨record, { record with world := after }, once, stepped, told.mpr fetched⟩

theorem listening_alone_is_not_told : ∃ (start record : Record Nat) (after : World (Value Nat)),
    @create _ .usual 1 0 id (fun _ => true) = some start ∧
    @step _ .usual 1 (.listen 7) start = some record ∧ record.listens 7 = 1 ∧
    (record.world.users 7).alive = true ∧ (record.world.cells 0).value = .source 0 ∧
    Sources.set 1 1 (.plain 5) record.world = .ok () after ∧
    ¬ (record.world.users 7).received < (after.users 7).received :=
  ⟨_, _, _, rfl, rfl, rfl, rfl, rfl, rfl, by decide⟩

end Nosy.Sources.FlattenedUse
