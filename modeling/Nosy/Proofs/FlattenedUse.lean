import Nosy.FlattenedUse
import Nosy.Proofs.FlattenedReads

/-! One flattened cell in use. The gate of its cached state is the only one that is
open, and one entry of one inner cell is behind it. -/

namespace Nosy.Sources.FlattenedUse
open FlattenedCell RawNotifier Transition
open EStateM (Result)

variable {T : Type}

structure Gated (world : World (Value T)) : Prop where
  cells : ∀ id listeners, world.listenersAt (.cell id) = some listeners → ∀ listener ∈ listeners,
    listener = .outer 0 ∨ ∃ gate, gate < world.nextGate ∧ listener = .inner 0 gate
  gates : ∀ gate, world.gates gate = true → ∃ outer state, world.core 0 = some (outer, some state) ∧ state.gate = gate
  once : ∀ outer state target, world.core 0 = some (outer, some state) → state.source = .cell target →
    ∀ id listeners, world.listenersAt (.cell id) = some listeners →
      listeners.count (.inner 0 state.gate) = if id = target then 1 else 0

section Gated
variable {before after world : World (Value T)} {id : Nat} {listeners : List Listener}

private theorem Gated.same (gated : Gated before) (tables : ∀ id, after.listenersAt (.cell id) = before.listenersAt (.cell id))
    (core : after.core 0 = before.core 0) (gates : after.gates = before.gates) (nextGate : after.nextGate = before.nextGate) :
    Gated after := by
  constructor
  · intro id listeners listed
    rw [nextGate]
    exact gated.cells id listeners ((tables id).symm.trans listed)
  · intro gate isOpen
    rw [core]
    apply gated.gates
    rwa [← gates]
  · intro outer state target found source id listeners listed
    exact gated.once outer state target (core.symm.trans found) source id listeners ((tables id).symm.trans listed)

private theorem Gated.unused (gated : Gated world) (listed : world.listenersAt (.cell id) = some listeners) :
    listeners.count (.inner 0 world.nextGate) = 0 := by
  apply List.count_eq_zero.mpr
  intro member
  rcases gated.cells id listeners listed _ member with outer | ⟨gate, known, same⟩
  · cases outer
  · cases same
    exact Nat.lt_irrefl _ known

private theorem Gated.subscribed (gated : Gated before) (built : Built before) {inner : Nat}
    (done : Subscribed inner before after) :
    Gated after := by
  -- every table is as it was, but for the new entry in one of them
  have origin {id : Nat} {new : List Listener} (listed : after.listenersAt (.cell id) = some new) :
      ∃ old, before.listenersAt (.cell id) = some old ∧
        ∀ listener ∈ new, listener ∈ old ∨ listener = .inner 0 before.nextGate := by
    obtain ⟨old, present, _⟩ := built.flat.cells id
    refine ⟨old, present, ?_⟩
    by_cases here : id = inner + 1
    · subst id
      obtain ⟨renewed, same, fewer, _⟩ := done.here old present
      rw [listed] at same
      cases same
      intro listener member
      exact (List.mem_append.mp (fewer.subset member)).imp id List.mem_singleton.mp
    · have kept := done.elsewhere (.cell id) (by simpa using here)
      rw [listed, present] at kept
      cases kept
      exact fun listener => .inl
  constructor
  · intro id listeners listed listener member
    obtain ⟨old, present, each⟩ := origin listed
    rw [done.nextGate]
    rcases each listener member with member | rfl
    · rcases gated.cells id old present listener member with outer | ⟨gate, known, same⟩
      · exact .inl outer
      · exact .inr ⟨gate, Nat.lt_succ_of_lt known, same⟩
    · exact .inr ⟨_, Nat.lt_succ_self _, rfl⟩
  · intro gate isOpen
    rcases done.gates gate isOpen with rfl | ⟨still, dropped⟩
    · exact ⟨_, _, done.core, rfl⟩
    · obtain ⟨outer, state, found, same⟩ := gated.gates gate still
      exact absurd same.symm (dropped outer state found)
  · intro outer state target found source id listeners listed
    rw [done.core] at found
    cases found
    cases source
    by_cases here : id = inner + 1
    · subst id
      obtain ⟨old, present, _⟩ := built.flat.cells (inner + 1)
      obtain ⟨renewed, same, fewer, member⟩ := done.here old present
      rw [listed] at same
      cases same
      have most := fewer.count_le (.inner 0 before.nextGate)
      have least := List.count_pos_iff.mpr member
      rw [List.count_append, gated.unused present, List.count_singleton_self] at most
      show listeners.count (.inner 0 before.nextGate) = _
      rw [if_pos rfl]
      omega
    · have kept := done.elsewhere (.cell id) (by simpa using here)
      rw [listed] at kept
      rw [if_neg here]
      exact gated.unused kept.symm

theorem liveInner_listed (listed : world.listenersAt (.cell id) = some listeners) :
    liveInner world id = listeners.countP (isLiveInner world) := by
  obtain ⟨raw, found, rfl⟩ := listenersAt_some listed
  have opened : (world.cells id).notifier = .opened raw := Option.some.inj found
  rw [liveInner, opened, List.countP_map]
  rfl

private theorem Gated.live_none (gated : Gated world) {outer : Source (Value T)}
    (found : world.core 0 = some (outer, none)) :
    listeners.countP (isLiveInner world) = 0 := by
  apply List.countP_eq_zero.mpr
  intro listener _ live
  cases listener with
  | user | outer => cases live
  | inner flatten gate =>
    obtain ⟨outer, state, cached, _⟩ := gated.gates gate live
    rw [found] at cached
    cases cached

private theorem Gated.live_some (gated : Gated world) (valid : Valid world) {outer : Source (Value T)}
    {state : State (Value T)} {target : Nat} (found : world.core 0 = some (outer, some state)) (source : state.source = .cell target)
    (listed : world.listenersAt (.cell id) = some listeners) :
    listeners.countP (isLiveInner world) = if id = target then 1 else 0 := by
  rw [← gated.once outer state target found source id listeners listed, List.count_eq_countP]
  apply List.countP_congr
  intro listener member
  rcases gated.cells id listeners listed listener member with rfl | ⟨gate, _, rfl⟩
  · simp [isLiveInner]
  · constructor
    · intro live
      obtain ⟨_, cached, same, gate⟩ := gated.gates gate live
      rw [found] at same
      cases same
      simp [gate]
    · intro equal
      have same : gate = state.gate := by simpa using equal
      rw [same]
      exact (valid.cached 0 _ _ found).2.1

private theorem Gated.alive (gated : Gated world) (flat : Flat world)
    (listed : world.listenersAt (.cell id) = some listeners) :
    listeners.countP (Listener.alive world) = (if id = 0 then 1 else 0) + listeners.countP (isLiveInner world) := by
  obtain ⟨-, counted⟩ := flat.cell listed
  rw [← counted]
  have each := gated.cells id listeners listed
  clear listed counted
  induction listeners with
  | nil => rfl
  | cons listener rest ih =>
    have remaining := ih fun other member => each other (by simp [member])
    simp only [List.countP_cons, List.count_cons, remaining]
    rcases each listener (by simp) with rfl | ⟨gate, _, rfl⟩
    · simp [Listener.alive, isLiveInner]
      omega
    · cases isOpen : world.gates gate with
      | false => simp [Listener.alive, isLiveInner, isOpen]
      | true => simp [Listener.alive, isLiveInner, isOpen, Nat.add_assoc]

end Gated

structure Tidy (record : Record T) : Prop where
  kept : Kept ⟨record.world, record.sets, record.fetched⟩
  gated : Gated record.world
  flagged : record.world.Flagged
  own : ∀ user, (record.world.users user).alive = true → ∀ listeners,
    record.world.listenersAt (.flatten 0) = some listeners → listeners.count (.user user) = record.listens user
  unread : record.readAt = none ↔ record.fetched = none
  read : record.read.map Source.cell = record.fetched.bind asSource

section Tidy
variable {record : Record T}

/-- The cached state is for the cell that was read last. -/
theorem Tidy.reading (tidy : Tidy record) {value : Value T} (fetched : record.fetched = some value) :
    ∃ inner state, value = .source inner ∧ record.read = some (inner + 1) ∧
      record.world.core 0 = some (.cell 0, some state) ∧ state.source = .cell (inner + 1) := by
  obtain ⟨state, found, isSource⟩ := tidy.kept.seen value fetched
  obtain ⟨inner, rfl, source⟩ := asSource_cell isSource
  refine ⟨inner, state, rfl, ?_, found, source⟩
  have read := tidy.read
  rw [fetched] at read
  obtain ⟨id, same, cell⟩ := Option.map_eq_some_iff.mp read
  rw [same, Source.cell.inj cell]

theorem Tidy.live (tidy : Tidy record) {id : Nat} {listeners : List Listener}
    (listed : record.world.listenersAt (.cell id) = some listeners) :
    listeners.countP (isLiveInner record.world) = if record.read = some id then 1 else 0 := by
  cases fetched : record.fetched with
  | none =>
    have read : record.read = none := by simpa [fetched] using tidy.read
    rw [tidy.gated.live_none (tidy.kept.unseen fetched), read]
    rfl
  | some value =>
    obtain ⟨inner, state, _, read, found, source⟩ := tidy.reading fetched
    rw [tidy.gated.live_some tidy.kept.built.valid found source listed, read]
    simp only [Option.some.injEq, eq_comm]

/-- No cell but the outer one and the one that was read passes anything on. -/
private theorem Tidy.alive (tidy : Tidy record) {id : Nat} {listeners : List Listener}
    (listed : record.world.listenersAt (.cell id) = some listeners) :
    listeners.countP (Listener.alive record.world) = if id = 0 ∨ record.read = some id then 1 else 0 := by
  rw [tidy.gated.alive tidy.kept.built.flat listed, tidy.live listed]
  by_cases outer : id = 0
  · have other : record.read ≠ some 0 := by
      intro read
      have source := tidy.read
      rw [read] at source
      obtain ⟨value, _, isSource⟩ := Option.bind_eq_some_iff.mp source.symm
      obtain ⟨inner, _, same⟩ := asSource_cell isSource
      cases same
    simp [outer, other]
  · simp [outer]

variable {fuel : Nat}

theorem Tidy.set_tells (tidy : Tidy record) {change : Change T} {after : World (Value T)}
    (done : Sources.set fuel change.cell change.value record.world = .ok () after) {user : Nat}
    (living : (record.world.users user).alive = true) :
    (after.users user).received = (record.world.users user).received +
      if change.cell = 0 ∨ record.read = some change.cell then record.listens user else 0 := by
  have tables (place : Place) : (record.world.replace change.cell change.value).listenersAt place =
      record.world.listenersAt place := by
    simp only [World.listenersAt, replace_notifierAt]
  have lives : Listener.alive (record.world.replace change.cell change.value) = Listener.alive record.world := by
    funext listener
    cases listener <;> rfl
  obtain ⟨listeners, listed, _⟩ := tidy.kept.built.flat.cells change.cell
  obtain ⟨own, listens, _⟩ := tidy.kept.built.flat.own
  have forwards : ∀ listener ∈ listeners, ∀ other, listener ≠ .user other := by
    intro listener member other user
    subst listener
    rcases tidy.gated.cells _ _ listed _ member with same | ⟨gate, _, same⟩
    · cases same
    · cases same
  have told := notify_tells (tidy.kept.built.replace change).flat ((tables _).trans listed) forwards
    ((tables _).trans listens) living done
  rw [told, lives, tidy.alive listed, tidy.own user living own listens]
  split <;> simp [World.replace]

private theorem Tidy.die (tidy : Tidy record) (user : Nat) :
    Tidy { record with world := Sources.die user record.world } := by
  have lives {other : Nat} (living : ((Sources.die user record.world).users other).alive = true) :
      (record.world.users other).alive = true := by
    by_cases equal : other = user
    · simp [Sources.die, equal] at living
    · simpa [Sources.die, Function.update_of_ne equal] using living
  have tables (place : Place) : (Sources.die user record.world).notifierAt place = record.world.notifierAt place := by
    cases place <;> rfl
  refine ⟨⟨tidy.kept.built.die user, tidy.kept.counted, tidy.kept.unseen, tidy.kept.seen⟩,
    tidy.gated.same (fun _ => rfl) rfl rfl rfl, tidy.flagged.same tables fun _ => lives, ?_, tidy.unread, tidy.read⟩
  exact fun other living => tidy.own other (lives living)

end Tidy

section Steps
variable [VecGrowth] {record : Record T} {fuel : Nat}

private theorem readsFrom_cell {world after : World (Value T)} {id : Nat}
    (read : getSourceAndListenIfNew asSource (Source.getWith (getFlatten asSource fuel)) fuel 0 world = .ok (.cell id) after) :
    readsFrom fuel world = some id := by
  simp only [readsFrom, read]

/-- A `get` is answered from the cache and changes nothing, or moves the subscription
to the inner cell of the moment. -/
theorem Tidy.get_cases (tidy : Tidy record) (fuel : Nat) :
    (record.readAt ≠ none ∧ 2 ^ 32 ∣ record.sets) ∧
      step (fuel + 1) .get record = some { record with readAt := some record.sets } ∨
    ¬ (record.readAt ≠ none ∧ 2 ^ 32 ∣ record.sets) ∧ ∃ inner after, Subscribed inner record.world after ∧
      step (fuel + 1) .get record = some { record with
        world := after, readAt := some record.sets, read := some (inner + 1), fetched := some (.source inner) } := by
  by_cases round : record.readAt ≠ none ∧ 2 ^ 32 ∣ record.sets
  · refine .inl ⟨round, ?_⟩
    obtain ⟨value, fetched⟩ := Option.ne_none_iff_exists'.mp (mt tidy.unread.mpr round.1)
    obtain ⟨inner, state, rfl, read, found, source⟩ := tidy.reading fetched
    have got := get_outdated (fuel + 1) tidy.kept round.2 fetched
    have current : record.world.generation 0 = some state.generation := by
      have zero := (tidy.kept.built.valid.cached 0 _ _ found).1
      obtain ⟨rounds, equal⟩ := round.2
      rw [tidy.kept.counted, zero, equal, UInt32.ofNat_mul]
      simp
    have cached := reads_cached found current (Source.getWith (getFlatten asSource (fuel + 1))) (fuel + 1)
    rw [source] at cached
    simp only [step, got, finished, Option.map_some, readsFrom_cell cached, if_pos round, ← read]
  · refine .inr ⟨round, ?_⟩
    have built : Built record.world := tidy.kept.built
    obtain ⟨inner, holds⟩ := built.source
    have stale : ∀ outer state, record.world.core 0 = some (outer, some state) →
        record.world.generation 0 ≠ some state.generation := by
      intro outer state found current
      have zero := (tidy.kept.built.valid.cached 0 _ _ found).1
      rw [tidy.kept.counted, zero] at current
      apply round
      refine ⟨fun unread => ?_, ofNat_zero (Option.some.inj current)⟩
      rw [tidy.kept.unseen (tidy.unread.mp unread)] at found
      cases found
    obtain ⟨after, got, subscribed⟩ := get_fetched fuel built holds stale
    obtain ⟨_, read, _⟩ := reads_fetched fuel built holds stale
    refine ⟨inner, after, subscribed, ?_⟩
    simp only [step, got, finished, Option.map_some, readsFrom_cell read, if_neg round, holds]

private theorem Tidy.get (tidy : Tidy record) (fuel : Nat) : ∃ next, step (fuel + 1) .get record = some next ∧ Tidy next := by
  rcases tidy.get_cases fuel with ⟨round, stepped⟩ | ⟨_, inner, after, subscribed, stepped⟩
  · have unread : record.fetched ≠ none := mt tidy.unread.mpr round.1
    exact ⟨_, stepped, tidy.kept, tidy.gated, tidy.flagged, tidy.own, by simp [unread], tidy.read⟩
  · have kept : Kept ⟨after, record.sets, some (.source inner)⟩ := by
      refine ⟨subscribed.built, subscribed.generation.trans tidy.kept.counted, nofun, ?_⟩
      intro value seen
      cases seen
      exact ⟨_, subscribed.core, rfl⟩
    have gated := tidy.gated.subscribed tidy.kept.built subscribed
    refine ⟨_, stepped, kept, gated, subscribed.flagged tidy.flagged, ?_, by simp, rfl⟩
    intro user living listeners listed
    simp only [subscribed.users] at living
    rw [subscribed.elsewhere _ (by simp)] at listed
    exact tidy.own user living listeners listed

theorem Tidy.set (tidy : Tidy record) (fuel : Nat) (change : Change T) :
    ∃ next, step (fuel + 1) (.set change) record = some next ∧ Tidy next ∧
      Sources.set (fuel + 1) change.cell change.value record.world = .ok () next.world := by
  obtain ⟨last, done, kept, _⟩ := set_keeps fuel tidy.kept change
  dsimp only at done
  have steady := (notify_ok done).1.steady
  have tables (place : Place) : last.listenersAt place = record.world.listenersAt place := by
    rw [steady.listeners]
    simp only [World.listenersAt, replace_notifierAt]
  have next : step (fuel + 1) (.set change) record =
      some { record with world := last, sets := if change.cell = 0 then record.sets + 1 else record.sets } := by
    simp only [step, done, finished, Option.map_some]
  refine ⟨_, next, ⟨kept, ?_, ?_, ?_, tidy.unread, tidy.read⟩, done⟩
  · exact tidy.gated.same (fun _ => tables _) (steady.core 0) steady.gates steady.nextGate
  · have replaced : (record.world.replace change.cell change.value).Flagged :=
      tidy.flagged.same (replace_notifierAt record.world _ _) fun _ living => living
    exact notify_flagged replaced done
  · intro user living listeners listed
    rw [tables] at listed
    exact tidy.own user ((steady.alive user).symm.trans living) listeners listed

private theorem Tidy.listen (tidy : Tidy record) (fuel user : Nat) :
    ∃ next, step (fuel + 1) (.listen user) record = some next ∧ Tidy next ∧ OnlyTables record.world next.world := by
  obtain ⟨last, done, kept⟩ := listen_keeps fuel tidy.kept user
  dsimp only at done
  obtain ⟨tables, _, elsewhere, _⟩ := operate_listen_ok done
  have next : step (fuel + 1) (.listen user) record = some { record with
      world := last
      listens := if (record.world.users user).alive then
        Function.update record.listens user (record.listens user + 1) else record.listens } := by
    simp only [step, done, finished, Option.map_some]
  refine ⟨_, next, ⟨kept, ?_, listen_flagged tidy.flagged done, ?_, tidy.unread, tidy.read⟩, tables⟩
  · exact tidy.gated.same (fun _ => elsewhere _ (by simp)) (tables.core 0) tables.gates tables.nextGate
  · intro other living listeners listed
    simp only [tables.keeps.users] at living
    obtain ⟨old, before, _⟩ := tidy.kept.built.flat.own
    obtain ⟨new, present, counted⟩ := listen_counts tidy.flagged done before living
    rw [listed] at present
    cases present
    rw [counted, tidy.own other living old before]
    by_cases equal : user = other
    · subst other
      simp [living]
    · have named : Listener.user user ≠ .user other := fun same => equal (Listener.user.inj same)
      rw [if_neg named]
      split <;> simp [Function.update_of_ne (Ne.symm equal)]

/-- Every operation can be done, and keeps the record tidy. -/
theorem Tidy.step (tidy : Tidy record) (fuel : Nat) (action : Action T) :
    ∃ next, FlattenedUse.step (fuel + 1) action record = some next ∧ Tidy next := by
  cases action with
  | set change =>
    obtain ⟨next, stepped, kept, _⟩ := tidy.set fuel change
    exact ⟨next, stepped, kept⟩
  | get => exact tidy.get fuel
  | listen user =>
    obtain ⟨next, stepped, kept, _⟩ := tidy.listen fuel user
    exact ⟨next, stepped, kept⟩
  | die user => exact ⟨_, rfl, tidy.die user⟩

theorem run_tidy {allowed : Action T → Record T → Prop} {first last : Record T}
    (run : Reaches (step (fuel + 1)) allowed first last) (tidy : Tidy first) : Tidy last := by
  apply run.invariant _ tidy
  intro action before after _ stepped tidy
  obtain ⟨next, same, kept⟩ := tidy.step fuel action
  rw [stepped] at same
  cases same
  exact kept

theorem create_tidy {inner : Nat} {data : Nat → T} {alive : Nat → Bool}
    (created : create (fuel + 1) inner data alive = some record) :
    Tidy record ∧ record.readAt = none ∧ subscriptions record.world = 0 := by
  obtain ⟨world, made, rfl⟩ := Option.map_eq_some_iff.mp created
  obtain ⟨_, same, core, _, gates, nextGate, own, cells, _⟩ := create_tables fuel inner data alive
  rw [made] at same
  cases same
  have gated : Gated world := by
    constructor
    · intro id listeners listed listener member
      rw [cells] at listed
      cases listed
      split at member
      · exact .inl (List.mem_singleton.mp member)
      · cases member
    · intro gate isOpen
      rw [gates] at isOpen
      cases isOpen
    · intro outer state target found
      rw [core] at found
      cases found
  have flagged : World.Flagged world := by
    obtain ⟨_, listened⟩ := finished_ok made
    have registered : World.operate (.cell 0) (Notifier.listen (World.receive (fuel + 1)) (.outer 0))
        ((initial (values inner data) alive).addFlatten 0 (.cell 0)) = .ok () world := listened
    refine listen_flagged ?_ registered
    intro place raw found entry member
    cases place with
    | cell id =>
      cases found
      cases member
    | flatten id =>
      by_cases equal : id = 0
      · subst id
        cases found
        cases member
      · simp [World.notifierAt, World.addFlatten, initial, equal] at found
  refine ⟨⟨create_kept made, gated, flagged, fun user _ listeners listed => ?_, by simp, rfl⟩, rfl, nextGate⟩
  rw [own] at listed
  cases listed
  rfl

end Steps

end Nosy.Sources.FlattenedUse
