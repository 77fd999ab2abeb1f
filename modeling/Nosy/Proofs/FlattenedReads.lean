import Nosy.Proofs.FlattenedCell
import Nosy.Proofs.SourceCounts

/-! Sequential reads of a flattened cell. A stored state always has the generation 0,
so the counter of outer changes must not come round to 0 behind its back. -/

namespace Nosy.Sources.FlattenedCell
open RawNotifier Transition
open EStateM (Result)

variable {T : Type}

section Get
variable [VecGrowth] {world : World (Value T)}

omit [VecGrowth] in
private theorem current_stale {inner : Inner (Value T)} {needed : UInt32}
    (stale : ∀ old, inner.state = some old → old.generation ≠ needed) : inner.current needed = none := by
  unfold Inner.current
  split
  next old cached => exact if_neg (stale old cached)
  · rfl

theorem reads_cached {outer : Source (Value T)} {state : State (Value T)} (found : world.core 0 = some (outer, some state))
    (current : world.generation 0 = some state.generation)
    (get : Source (Value T) → EStateM Failure (World (Value T)) (Value T)) (fuel : Nat) :
    getSourceAndListenIfNew asSource get fuel 0 world = .ok state.source world := by
  obtain ⟨⟨_, _, generation, notifier⟩, present, same⟩ := Option.map_eq_some_iff.mp found
  cases same
  have equal : state.generation = generation := by
    simpa [World.generation, present, eq_comm] using current
  simp only [getSourceAndListenIfNew, present, Inner.current, if_pos equal]

theorem reads_stale {outer : Source (Value T)} {state : Option (State (Value T))} (found : world.core 0 = some (outer, state))
    (stale : ∀ old, state = some old → world.generation 0 ≠ some old.generation) (failure : Failure) (fuel : Nat) :
    getSourceAndListenIfNew asSource (fun _ world => .error failure world) fuel 0 world = .error failure world := by
  obtain ⟨⟨source, cached, needed, notifier⟩, present, same⟩ := Option.map_eq_some_iff.mp found
  cases same
  have missed : Inner.current ⟨source, cached, needed, notifier⟩ needed = none := by
    apply current_stale
    intro old stored equal
    apply stale old stored
    simp [World.generation, present, equal]
  simp only [getSourceAndListenIfNew, present, missed]

/-- What reading with a stale state does, or with none: there is a new subscription
to an inner cell, and the gate of the old one is dropped. -/
structure Subscribed (inner : Nat) (before after : World (Value T)) : Prop where
  built : Built after
  core : after.core 0 = some (.cell 0, some ⟨0, .cell (inner + 1), before.nextGate⟩)
  generation : after.generation 0 = before.generation 0
  values : ∀ id, (after.cells id).value = (before.cells id).value
  users : after.users = before.users
  flagged : before.Flagged → after.Flagged
  gates : ∀ gate, after.gates gate = true → gate = before.nextGate ∨ before.gates gate = true ∧
    ∀ outer state, before.core 0 = some (outer, some state) → gate ≠ state.gate
  nextGate : after.nextGate = before.nextGate + 1
  elsewhere : ∀ place, place ≠ .cell (inner + 1) → after.listenersAt place = before.listenersAt place
  here : ∀ old, before.listenersAt (.cell (inner + 1)) = some old → ∃ new, after.listenersAt (.cell (inner + 1)) = some new ∧
    new.Subperm (old ++ [.inner 0 before.nextGate]) ∧ .inner 0 before.nextGate ∈ new

/-- A stale state is replaced by one for the inner cell of the moment. -/
theorem reads_fetched (fuel : Nat) (built : Built world) {inner : Nat} (holds : (world.cells 0).value = .source inner)
    (stale : ∀ outer state, world.core 0 = some (outer, some state) → world.generation 0 ≠ some state.generation) :
    ∃ after, getSourceAndListenIfNew asSource (Source.getWith (getFlatten asSource (fuel + 1))) (fuel + 1) 0 world =
      .ok (.cell (inner + 1)) after ∧ Subscribed inner world after := by
  obtain ⟨state, found⟩ := built.core
  obtain ⟨⟨outer, cached, needed, notifier⟩, present, same⟩ := Option.map_eq_some_iff.mp found
  obtain ⟨rfl, rfl⟩ : outer = .cell 0 ∧ cached = state := by simpa using same
  have generation : world.generation 0 = some needed := by simp [World.generation, present]
  have outdated : ∀ old, cached = some old → old.generation ≠ needed := by
    rintro old rfl equal
    exact stale _ _ found (by rw [generation, equal])
  have missed : Inner.current ⟨.cell 0, cached, needed, notifier⟩ needed = none := current_stale outdated
  obtain ⟨listening, subscribed, kept, tables, candidate⟩ := built.listenInner fuel inner
  have core : listening.core 0 = some (.cell 0, cached) := (tables.core 0).trans found
  have notEnough : ∀ old, cached = some old → ¬ old.generation ≥ needed := by
    rintro old rfl enough
    have zero := (built.valid.cached 0 _ _ found).1
    rw [zero, ge_iff_le, UInt32.le_iff_toNat_le] at enough
    exact outdated old rfl (zero.trans (UInt32.toNat_inj.mp (Nat.le_zero.mp enough)).symm)
  obtain ⟨chosen, stored, unmoved⟩ :=
    @store_stale _ _ needed ⟨0, .cell (inner + 1), world.nextGate⟩ _ _ core notEnough
  have keeps := store_keeps listening 0 needed ⟨0, .cell (inner + 1), world.nextGate⟩
  have listed (place : Place) : (listening.store 0 needed ⟨0, .cell (inner + 1), world.nextGate⟩).2.listenersAt place =
      listening.listenersAt place := by
    simp only [World.listenersAt, store_notifierAt]
  have unopened (place : Place) : world.openGate.listenersAt place = world.listenersAt place := by cases place <;> rfl
  obtain ⟨_, _, others, cell⟩ := operate_listen_ok subscribed
  refine ⟨_, ?_, kept.store candidate, stored, ?_, fun id => ?_, ?_, fun flagged => ?_, fun gate isOpen => ?_, ?_,
    fun place other => ?_, fun old here => ?_⟩
  · simp only [getSourceAndListenIfNew, present, missed, Source.getWith, holds, asSource, subscribed, chosen]
  · rw [unmoved, tables.keeps.generations]
    rfl
  · rw [keeps.values, tables.keeps.values]
    rfl
  · rw [keeps.users, tables.keeps.users]
    rfl
  · have opened : world.openGate.Flagged := flagged.same (fun place => by cases place <;> rfl) fun _ living => living
    apply (listen_flagged opened subscribed).same (store_notifierAt _ _ _ _)
    intro user living
    rwa [keeps.users] at living
  · obtain ⟨still, dropped⟩ := store_gates core notEnough isOpen
    rw [tables.gates] at still
    by_cases new : gate = world.nextGate
    · exact .inl new
    · refine .inr ⟨by simpa [World.openGate, Function.update_of_ne new] using still, fun outer state cached => ?_⟩
      rw [found] at cached
      cases cached
      exact dropped state rfl
  · rw [store_nextGate, tables.nextGate]
    rfl
  · rw [listed, others place other, unopened]
  · obtain ⟨new, renewed, fewer⟩ := cell old ((unopened _).trans here)
    refine ⟨new, (listed _).trans renewed, fewer, ?_⟩
    rcases candidate.holds with closed | attached
    · rw [renewed] at closed
      cases closed
    · obtain ⟨_, present, member⟩ := attached.listed
      rw [renewed] at present
      cases present
      exact member

theorem get_cached (fuel : Nat) {outer : Source (Value T)} {state : State (Value T)} {id : Nat}
    (found : world.core 0 = some (outer, some state)) (current : world.generation 0 = some state.generation)
    (cell : state.source = .cell id) :
    flattened.get asSource (fuel + 1) world = .ok (world.cells id).value world := by
  simp only [flattened, Source.get, Source.getWith, getFlatten, reads_cached found current, cell]

theorem get_fetched (fuel : Nat) (built : Built world) {inner : Nat} (holds : (world.cells 0).value = .source inner)
    (stale : ∀ outer state, world.core 0 = some (outer, some state) → world.generation 0 ≠ some state.generation) :
    ∃ after, flattened.get asSource (fuel + 2) world = .ok (world.cells (inner + 1)).value after ∧
      Subscribed inner world after := by
  obtain ⟨after, read, subscribed⟩ := reads_fetched fuel built holds stale
  refine ⟨after, ?_, subscribed⟩
  rw [flattened, Source.get, Source.getWith, getFlatten, read, ← subscribed.values]
  rfl

end Get

/-- The counter counts the changes, and a cached state is for what was last seen. -/
structure Kept (history : History T) : Prop where
  built : Built history.world
  counted : history.world.generation 0 = some (UInt32.ofNat history.sets)
  unseen : history.seen = none → history.world.core 0 = some (.cell 0, none)
  seen : ∀ value, history.seen = some value →
    ∃ state, history.world.core 0 = some (.cell 0, some state) ∧ asSource value = some state.source

theorem ofNat_zero {sets : Nat} (zero : UInt32.ofNat sets = 0) : 2 ^ 32 ∣ sets := by
  have value := congrArg UInt32.toNat zero
  rw [UInt32.toNat_ofNat] at value
  exact Nat.dvd_of_mod_eq_zero value

section Histories
variable [VecGrowth] (fuel : Nat) {history next : History T}

/-- A read that meets the condition finds the inner cell of the moment. -/
theorem get_recent (kept : Kept history) (recent : Recent .get history) :
    ∃ inner after, (history.world.cells 0).value = .source inner ∧
      flattened.get asSource (fuel + 2) history.world = .ok (history.world.cells (inner + 1)).value after ∧
      Kept { history with world := after, seen := some (.source inner) } := by
  obtain ⟨inner, holds⟩ := kept.built.source
  refine ⟨inner, ?_⟩
  by_cases current : ∃ outer state, history.world.core 0 = some (outer, some state) ∧
      history.world.generation 0 = some state.generation
  · obtain ⟨outer, state, found, equal⟩ := current
    have zero := (kept.built.valid.cached 0 _ _ found).1
    have round : 2 ^ 32 ∣ history.sets := by
      rw [kept.counted, zero] at equal
      exact ofNat_zero (Option.some.inj equal)
    have same : asSource (.source inner : Value T) = some state.source := by
      rcases recent with unseen | behind | seen
      · rw [kept.unseen unseen] at found
        cases found
      · exact absurd round behind
      · obtain ⟨cached, stored, isSource⟩ := kept.seen _ seen
        rw [found] at stored
        cases stored
        rw [← holds, isSource]
    have cell : state.source = .cell (inner + 1) := (Option.some.inj same).symm
    refine ⟨history.world, holds, get_cached _ found equal cell, kept.built, kept.counted, nofun, ?_⟩
    rintro value ⟨⟩
    obtain ⟨_, outer⟩ := kept.built.core
    rw [found] at outer
    cases outer
    exact ⟨state, found, same⟩
  · obtain ⟨after, got, subscribed⟩ := get_fetched fuel kept.built holds
      fun outer state found equal => current ⟨outer, state, found, equal⟩
    refine ⟨after, holds, got, subscribed.built, subscribed.generation.trans kept.counted, nofun, ?_⟩
    rintro value ⟨⟩
    exact ⟨_, subscribed.core, rfl⟩

/-- A read that does not meet it goes to the inner cell that was seen last. -/
theorem get_outdated (kept : Kept history) (round : 2 ^ 32 ∣ history.sets) {inner : Nat}
    (seen : history.seen = some (.source inner)) :
    flattened.get asSource (fuel + 1) history.world = .ok (history.world.cells (inner + 1)).value history.world := by
  obtain ⟨state, found, isSource⟩ := kept.seen _ seen
  have zero := (kept.built.valid.cached 0 _ _ found).1
  refine get_cached fuel found ?_ (Option.some.inj isSource).symm
  rw [kept.counted, zero]
  obtain ⟨rounds, equal⟩ := round
  rw [equal, UInt32.ofNat_mul]
  simp

omit [VecGrowth] in
theorem set_keeps (kept : Kept history) (change : Change T) :
    ∃ after, Sources.set (fuel + 1) change.cell change.value history.world = .ok () after ∧
      Kept { history with world := after, sets := if change.cell = 0 then history.sets + 1 else history.sets } ∧
      ∀ id, (after.cells id).value = if id = change.cell then change.value else (history.world.cells id).value := by
  obtain ⟨after, notified, built, generation⟩ := (kept.built.replace change).notify fuel change.cell
  have steady := (notify_ok notified).1.steady
  have core : after.core 0 = history.world.core 0 := steady.core 0
  refine ⟨after, notified, ⟨built, ?_, ?_, ?_⟩, fun id => ?_⟩
  · have before : (history.world.replace change.cell change.value).generation 0 = some (UInt32.ofNat history.sets) :=
      kept.counted
    simp only [generation, before, Option.map_some]
    split <;> simp
  · intro unseen
    rw [core, kept.unseen unseen]
  · intro value seen
    rw [core]
    exact kept.seen value seen
  · rw [steady.values]
    by_cases equal : id = change.cell <;> simp [World.replace, equal]

theorem listen_keeps (kept : Kept history) (user : Nat) :
    ∃ after, flattened.listen (fuel + 1) (.user user) history.world = .ok () after ∧
      Kept { history with world := after } := by
  obtain ⟨after, listened, built⟩ := kept.built.listenUser fuel user
  obtain ⟨tables, _⟩ := listen_ok kept.built.valid.opened listened
  refine ⟨after, listened, built, ?_, ?_, ?_⟩
  · rw [tables.keeps.generations]
    exact kept.counted
  · intro unseen
    rw [tables.core, kept.unseen unseen]
  · intro value seen
    rw [tables.core]
    exact kept.seen value seen

theorem step_kept (kept : Kept history) (action : Action T) (recent : Recent action history) :
    ∃ next, step (fuel + 2) action history = some next ∧ Kept next := by
  cases action with
  | set change =>
    obtain ⟨after, done, kept, _⟩ := set_keeps (fuel + 1) kept change
    exact ⟨_, by simp only [step, done, finished, Option.map_some], kept⟩
  | get =>
    obtain ⟨inner, after, holds, got, kept⟩ := get_recent fuel kept recent
    exact ⟨_, by simp only [step, got, finished, Option.map_some, holds], kept⟩
  | listen user =>
    obtain ⟨after, listened, kept⟩ := listen_keeps (fuel + 1) kept user
    exact ⟨_, by simp only [step, listened, finished, Option.map_some], kept⟩

theorem run_kept {first last : History T} (run : Reaches (step (fuel + 2)) Recent first last) (kept : Kept first) :
    Kept last := by
  refine run.invariant (fun action before after recent stepped kept => ?_) kept
  obtain ⟨next, same, kept⟩ := step_kept fuel kept action recent
  rw [stepped] at same
  cases same
  exact kept

variable {fuel}

theorem create_kept {inner : Nat} {data : Nat → T} {alive : Nat → Bool} {world : World (Value T)}
    (created : create (fuel + 1) inner data alive = some world) : Kept ⟨world, 0, none⟩ := by
  obtain ⟨made, same, built, core, generation, _⟩ := @create_returns _ fuel _ inner data alive
  rw [created] at same
  cases same
  exact ⟨built, generation, fun _ => core, nofun⟩

/-- In a run whose reads all meet the condition, each of them returns the value that
the current inner cell has. -/
theorem get_is_current {inner : Nat} {data : Nat → T} {alive : Nat → Bool} {world : World (Value T)}
    (created : create (fuel + 2) inner data alive = some world)
    (run : Reaches (step (fuel + 2)) Recent ⟨world, 0, none⟩ history) (recent : Recent .get history) :
    ∃ value after, flattened.get asSource (fuel + 2) history.world = .ok value after ∧
      Denotes asSource history.world flattened value := by
  have kept := run_kept fuel run (create_kept created)
  obtain ⟨current, after, holds, got, _⟩ := get_recent fuel kept recent
  exact ⟨_, after, got, (kept.built.denotes_iff holds).mpr rfl⟩

end Histories

private theorem recent_set (change : Change T) (history : History T) : Recent (.set change) history := trivial

theorem get_is_current_again : ∃ (history : History Nat) (value : Value Nat) (after : World (Value Nat)),
    history.seen = some (.source 0) ∧ @Source.get _ .usual asSource 2 flattened history.world = .ok value after ∧
      Denotes asSource history.world flattened value := by
  have run : ∃ start read changed last, @create _ .usual 2 0 id (fun _ => true) = some start ∧
      @step _ .usual 2 .get ⟨start, 0, none⟩ = some read ∧ @step _ .usual 2 (.set (.outer 3)) read = some changed ∧
      @step _ .usual 2 (.set (.inner 3 7)) changed = some last ∧ last.seen = some (.source 0) ∧ last.sets = 1 :=
    ⟨_, _, _, _, rfl, rfl, rfl, rfl, rfl, rfl⟩
  obtain ⟨start, read, changed, last, created, got, outer, inner, seen, once⟩ := run
  have first : Recent .get (⟨start, 0, none⟩ : History Nat) := .inl rfl
  have third : Reaches (@step _ .usual 2) Recent ⟨start, 0, none⟩ last :=
    ((Reaches.single first got).snoc (recent_set _ _) outer).snoc (recent_set _ _) inner
  have recent : Recent .get last := .inr (.inl (by rw [once]; decide))
  obtain ⟨value, after, returned, current⟩ := @get_is_current _ .usual 0 last 0 id (fun _ => true) start created third recent
  exact ⟨last, value, after, seen, returned, current⟩

section Wraps
variable [VecGrowth] (fuel : Nat)

private theorem many_sets {history : History T} (kept : Kept history) (inner count : Nat) :
    ∃ last, Reaches (step (fuel + 1)) Free history last ∧ Kept last ∧ last.seen = history.seen ∧
      last.sets = history.sets + count ∧ (count ≠ 0 → (last.world.cells 0).value = .source inner) ∧
      ∀ id, id ≠ 0 → (last.world.cells id).value = (history.world.cells id).value := by
  induction count with
  | zero => exact ⟨history, .refl, kept, rfl, rfl, nofun, fun _ _ => rfl⟩
  | succ count ih =>
    obtain ⟨before, run, kept, seen, sets, _, others⟩ := ih
    obtain ⟨after, done, kept, values⟩ := set_keeps fuel kept (.outer inner)
    have stepped : step (fuel + 1) (.set (.outer inner)) before =
        some { before with world := after, sets := before.sets + 1 } := by
      simp only [step, done, finished, Option.map_some]
      rfl
    refine ⟨_, run.snoc trivial stepped, kept, seen, ?_, fun _ => values 0, fun id other => ?_⟩
    · simp only [sets]
      omega
    · exact (values id).trans ((if_neg other).trans (others id other))

/-- After 2 ^ 32 changes of the outer cell, the inner cell of the first read is
taken for the current one. -/
theorem wraps_to_first {data : Nat → T} {alive : Nat → Bool} {world : World (Value T)}
    (created : create (fuel + 2) 0 data alive = some world) :
    ∃ history after, Reaches (step (fuel + 2)) Free ⟨world, 0, none⟩ history ∧
      flattened.get asSource (fuel + 2) history.world = .ok (.plain (data 0)) after ∧
      ∀ value, Denotes asSource history.world flattened value ↔ value = .plain (data 1) := by
  have kept := create_kept created
  obtain ⟨_, same, made, _, _, held⟩ := @create_returns _ (fuel + 1) _ 0 data alive
  rw [created] at same
  cases same
  obtain ⟨inner, after, holds, got, kept⟩ := get_recent fuel kept (.inl rfl)
  rw [held] at holds
  cases holds
  have read : step (fuel + 2) .get ⟨world, 0, none⟩ = some ⟨after, 0, some (.source 0)⟩ := by
    simp only [step, got, finished, Option.map_some, held]
    rfl
  have reading := (get_ok _ _ _ _ _ made.valid got).1
  have unchanged (id : Nat) : (after.cells (id + 1)).value = .plain (data id) :=
    (reading.keeps.values _).trans (held (id + 1))
  obtain ⟨last, later, kept, seen, sets, outer, others⟩ := many_sets (fuel + 1) kept 1 (2 ^ 32)
  have round : 2 ^ 32 ∣ last.sets := by simp [sets]
  have stale := get_outdated (fuel + 1) kept round seen
  rw [others 1 (by decide), unchanged] at stale
  refine ⟨last, last.world, .head ⟨.get, trivial, read⟩ later, stale, fun value => ?_⟩
  rw [kept.built.denotes_iff (outer (by decide)), others 2 (by decide), unchanged]

end Wraps

theorem wrapped_get_is_stale : ∃ (start : World (Value Nat)) (history : History Nat) (after : World (Value Nat)),
    @create _ .usual 2 0 id (fun _ => true) = some start ∧
    Reaches (@step _ .usual 2) Free ⟨start, 0, none⟩ history ∧
    @Source.get _ .usual asSource 2 flattened history.world = .ok (.plain 0) after ∧
    Denotes asSource history.world flattened (.plain 1) ∧ ¬ Denotes asSource history.world flattened (.plain 0) := by
  obtain ⟨start, created, _⟩ := @create_returns _ 1 .usual 0 id (fun _ => true)
  obtain ⟨history, after, run, got, denotes⟩ := @wraps_to_first _ .usual 0 id _ start created
  refine ⟨start, history, after, created, run, got, (denotes _).mpr rfl, fun stale => ?_⟩
  cases (denotes _).mp stale

end Nosy.Sources.FlattenedCell
