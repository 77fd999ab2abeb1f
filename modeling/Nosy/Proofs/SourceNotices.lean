import Nosy.Proofs.SourceCoherence

/-! Sequential runs of cells and derived sources. Between two reads of a source
with different results, everybody who listens to it hears of a change. -/

namespace Nosy.Sources
open RawNotifier Transition
open EStateM (Result)

variable {V : Type} {asSource : V → Option (Source V)}

theorem World.Stores.listed {world : World V} {place : Place} {listener : Listener}
    (stored : world.Stores place listener) :
    ∃ listeners, world.listenersAt place = some listeners ∧ listener ∈ listeners := by
  obtain ⟨raw, found, member⟩ := stored
  exact ⟨_, by simp only [World.listenersAt, found], List.mem_map_of_mem (f := (·.listener)) member⟩

theorem replace_notifierAt (world : World V) (id : Nat) (value : V) (place : Place) :
    (world.replace id value).notifierAt place = world.notifierAt place := by
  cases place with
  | cell other =>
    by_cases equal : other = id
    · subst other
      simp [World.replace, World.notifierAt]
    · simp [World.replace, World.notifierAt, Function.update_of_ne equal]
  | flatten other => rfl

theorem replace_valid {world : World V} (valid : Valid world) (id : Nat) (value : V) : Valid (world.replace id value) where
  opened other := by
    rw [replace_notifierAt]
    exact valid.opened other
  outer other _ _ found := (valid.outer other _ _ found).notifiers (replace_notifierAt world id value)
  cached other _ state found := by
    obtain ⟨generation, isOpen, known, holds⟩ := valid.cached other _ _ found
    exact ⟨generation, isOpen, known, holds.notifiers (replace_notifierAt world id value)⟩
  distinct := valid.distinct

theorem Rung.reaches {before after : World V} {id : Nat} (rung : Rung before after id) {listener : Listener}
    (stored : before.Stores (.flatten id) listener) : Heard before after listener := by
  obtain ⟨listeners, listed, member⟩ := stored.listed
  exact rung.heard listed member

/-- After `set` a source is still in sync, or its listeners were told. -/
theorem set_synced {world after : World V} (valid : Valid world) {fuel id : Nat} {new : V}
    (opened : (world.cells id).notifier ≠ .closed) (done : set fuel id new world = .ok () after)
    {source : Source V} {value : V} (synced : Synced asSource world source value) :
    Synced asSource after source value ∨
      ∀ listener, world.Holds listener source → Heard (world.replace id new) after listener := by
  obtain ⟨moves, listeners, listed, heard⟩ := notify_ok done
  have same := replace_notifierAt world id new
  have core (other : Nat) : after.core other = world.core other := moves.steady.core other
  have rings (other : Nat) (changed : after.generation other ≠ world.generation other) :
      Rung (world.replace id new) after other := moves.generations other changed
  -- who is registered with a flattened source hears of it as soon as that one was rung
  have through (other : Nat) (rung : Rung (world.replace id new) after other) (listener : Listener)
      (holds : world.Holds listener (.flatten other)) : Heard (world.replace id new) after listener := by
    apply rung.reaches
    simpa only [World.Stores, same, World.Holds] using holds
  induction synced with
  | cell other =>
    by_cases equal : other = id
    · subst other
      refine .inr fun listener holds => ?_
      rcases holds with closed | stored
      · cases found : (world.cells id).notifier with
        | opened raw => simp [World.listenersAt, World.notifierAt, found] at closed
        | closed => exact absurd found opened
      · obtain ⟨table, present, member⟩ := stored.listed
        have known : (world.replace id new).listenersAt (.cell id) = some table := by
          simpa only [World.listenersAt, same] using present
        rw [listed] at known
        cases known
        exact heard listener member
    · have value : (after.cells other).value = (world.cells other).value := by
        rw [moves.steady.values]
        simp [World.replace, Function.update_of_ne equal]
      rw [← value]
      exact .inl (.cell other)
  | constant value => exact .inl (.constant value)
  | map function _ ih => exact ih.imp (.map function) fun told => told
  | @cached other sourceOfSource state value found current _ ih =>
    rcases ih with still | told
    · by_cases moved : after.generation other = world.generation other
      · exact .inl (.cached ((core other).trans found) (moved.trans current) still)
      · exact .inr (through other (rings other moved))
    · obtain ⟨_, isOpen, _, holds⟩ := valid.cached _ _ _ found
      exact .inr (through other (told _ holds isOpen))
  | @refetched other sourceOfSource state inner value found _ isSource _ outer ih =>
    rcases outer with outer | told
    · rcases ih with still | told
      · exact .inl (.refetched ((core other).trans found) outer isSource still)
      · obtain ⟨_, isOpen, _, holds⟩ := valid.cached _ _ _ found
        exact .inr (through other (told _ holds isOpen))
    · exact .inr (through other (told _ (valid.outer _ _ _ found)))

/-- What every step does for a listener that survives it. -/
structure Follows (before after : World V) : Prop where
  alive : ∀ user, (after.users user).alive = true → (before.users user).alive = true
  received : ∀ user, (before.users user).received ≤ (after.users user).received
  holds : ∀ user source, (after.users user).alive = true → before.Holds (.user user) source →
    after.Holds (.user user) source

private theorem Got.follows {before after : World V} (got : Got asSource before after) : Follows before after := by
  refine ⟨fun user living => ?_, fun user => ?_, fun user source living holds => ?_⟩
  · rwa [got.keeps.users] at living
  · exact Nat.le_of_eq (by rw [got.keeps.users])
  · exact holds.keeps got.keeps trivial living

section AddFlatten
variable {world : World V} {id : Nat} {sourceOfSource : Source V}

private theorem addFlatten_core (world : World V) (id : Nat) (sourceOfSource : Source V) (other : Nat) :
    (world.addFlatten id sourceOfSource).core other =
      if other = id then some (sourceOfSource, none) else world.core other := by
  by_cases equal : other = id <;> simp [World.core, World.addFlatten, equal]

private theorem addFlatten_stores (absent : world.flattens id = none) {place : Place} {listener : Listener}
    (stored : world.Stores place listener) : (world.addFlatten id sourceOfSource).Stores place listener := by
  obtain ⟨raw, found, member⟩ := stored
  refine ⟨raw, ?_, member⟩
  cases place with
  | cell other => exact found
  | flatten other =>
    have different : other ≠ id := by
      rintro rfl
      simp [World.notifierAt, absent] at found
    simpa [World.notifierAt, World.addFlatten, Function.update_of_ne different] using found

private theorem addFlatten_holds (absent : world.flattens id = none) {listener : Listener} {source : Source V}
    (holds : world.Holds listener source) : (world.addFlatten id sourceOfSource).Holds listener source :=
  holds.imp (fun _ closed => closed) fun _ => addFlatten_stores absent

private theorem addFlatten_opened (opened : ∀ other, world.notifierAt (.flatten other) ≠ some .closed) (other : Nat) :
    (world.addFlatten id sourceOfSource).notifierAt (.flatten other) ≠ some .closed := by
  by_cases equal : other = id
  · simp [World.notifierAt, World.addFlatten, equal, Notifier.new]
  · simpa [World.notifierAt, World.addFlatten, Function.update_of_ne equal] using opened other

private theorem addFlatten_cached {other : Nat} {outer : Source V} {state : State V}
    (found : (world.addFlatten id sourceOfSource).core other = some (outer, some state)) :
    world.core other = some (outer, some state) := by
  rw [addFlatten_core] at found
  split at found
  · cases found
  · exact found

end AddFlatten

theorem finished_ok {α : Type} {result : Result Failure (World V) α} {after : World V}
    (returned : finished result = some after) : ∃ value, result = .ok value after := by
  cases result with
  | ok value last =>
    cases returned
    exact ⟨value, rfl⟩
  | error failure last => cases returned

section Steps
variable {fuel : Nat} {world after : World V}

/-- The listeners of a dropped cell are no longer needed, since it never changes. -/
private theorem dropCell_holds (id : Nat) {listener : Listener} {source : Source V}
    (holds : world.Holds listener source) :
    (dropCell id world).Holds listener source := by
  induction source with
  | cell other =>
    by_cases equal : other = id
    · simp [World.Holds, dropCell, World.listenersAt, World.setNotifier, World.notifierAt, equal]
    · simpa [World.Holds, dropCell, World.listenersAt, World.Stores, World.setNotifier, World.notifierAt,
        Function.update_of_ne equal] using holds
  | constant value => trivial
  | map function source ih => exact ih holds
  | flatten other => exact holds

private theorem dropCell_valid (valid : Valid world) (id : Nat) : Valid (dropCell id world) where
  opened := valid.opened
  outer other _ _ found := dropCell_holds id (valid.outer other _ _ found)
  cached other _ _ found := by
    obtain ⟨generation, isOpen, known, holds⟩ := valid.cached other _ _ found
    exact ⟨generation, isOpen, known, dropCell_holds id holds⟩
  distinct := valid.distinct

theorem die_holds (user : Nat) {listener : Listener} {source : Source V} (holds : world.Holds listener source) :
    (die user world).Holds listener source := holds.notifiers fun place => by cases place <;> rfl

theorem die_valid (valid : Valid world) (user : Nat) : Valid (die user world) where
  opened := valid.opened
  outer other _ _ found := die_holds user (valid.outer other _ _ found)
  cached other _ _ found := by
    obtain ⟨generation, isOpen, known, holds⟩ := valid.cached other _ _ found
    exact ⟨generation, isOpen, known, die_holds user holds⟩
  distinct := valid.distinct

theorem set_valid (valid : Valid world) {id : Nat} {value : V} (done : set fuel id value world = .ok () after) :
    Valid after :=
  (notify_ok done).1.steady.valid (replace_valid valid id value)

theorem set_follows {id : Nat} {value : V} (done : set fuel id value world = .ok () after) : Follows world after := by
  have steady := (notify_ok done).1.steady
  refine ⟨fun user living => ?_, steady.received, fun user source living holds => ?_⟩
  · rwa [steady.alive] at living
  · rw [steady.alive] at living
    exact (holds.notifiers (replace_notifierAt world id value)).steady steady living

variable [VecGrowth]

theorem newFlatten_valid (valid : Valid world) {id : Nat} {sourceOfSource : Source V}
    (absent : world.flattens id = none) (created : newFlatten fuel id sourceOfSource world = .ok () after) :
    Valid after := by
  obtain ⟨tables, held⟩ := listen_ok (addFlatten_opened valid.opened) created
  refine ⟨opened_kept (fun other => (tables.keeps.closed _).mp) (fun other => (tables.core other).trans)
    (addFlatten_opened valid.opened), fun other outer state found => ?_, fun other outer state found => ?_,
    fun one two outer another state old first second => ?_⟩
  · rw [tables.core, addFlatten_core] at found
    split at found
    next here =>
      cases found
      rw [here]
      exact held rfl
    · exact (addFlatten_holds absent (valid.outer _ _ _ found)).keeps tables.keeps trivial rfl
  · rw [tables.core] at found
    obtain ⟨generation, isOpen, known, holds⟩ := valid.cached _ _ _ (addFlatten_cached found)
    have still : after.gates state.gate = true := by
      rw [tables.gates]
      exact isOpen
    exact ⟨generation, still, tables.nextGate ▸ known, (addFlatten_holds absent holds).keeps tables.keeps known still⟩
  · rw [tables.core] at first second
    exact valid.distinct _ _ _ _ _ _ (addFlatten_cached first) (addFlatten_cached second)

private theorem newFlatten_follows (valid : Valid world) {id : Nat} {sourceOfSource : Source V}
    (absent : world.flattens id = none) (created : newFlatten fuel id sourceOfSource world = .ok () after) :
    Follows world after ∧ Lasting asSource world after := by
  obtain ⟨tables, _⟩ := listen_ok (addFlatten_opened valid.opened) created
  have users : after.users = world.users := tables.keeps.users
  refine ⟨⟨fun user living => ?_, fun user => ?_, fun user source living holds => ?_⟩,
    .of_core tables.keeps.values fun other outer state found => ?_⟩
  · rwa [users] at living
  · exact Nat.le_of_eq (by rw [users])
  · exact (addFlatten_holds absent holds).keeps tables.keeps trivial living
  · have different : other ≠ id := by
      rintro rfl
      simp [World.core, absent] at found
    refine ⟨by rw [tables.core, addFlatten_core, if_neg different], ?_⟩
    rw [tables.keeps.generations]
    simp [World.generation, World.addFlatten, Function.update_of_ne different]

/-- What each step does, and when it can be taken. -/
inductive Stepped (asSource : V → Option (Source V)) (fuel : Nat) (world after : World V) : Action V → Prop
  | set {id : Nat} {value : V} {raw : RawNotifier Listener} : (world.cells id).notifier = .opened raw →
      Sources.set fuel id value world = .ok () after → Stepped asSource fuel world after (.set id value)
  | dropCell {id : Nat} {raw : RawNotifier Listener} : (world.cells id).notifier = .opened raw →
      after = Sources.dropCell id world → Stepped asSource fuel world after (.dropCell id)
  | newFlatten {id : Nat} {sourceOfSource : Source V} : world.flattens id = none →
      Sources.newFlatten fuel id sourceOfSource world = .ok () after →
      Stepped asSource fuel world after (.newFlatten id sourceOfSource)
  | get {source : Source V} {value : V} : source.get asSource fuel world = .ok value after →
      Stepped asSource fuel world after (.get source)
  | listen {source : Source V} {user : Nat} : source.listen fuel (.user user) world = .ok () after →
      Stepped asSource fuel world after (.listen source user)
  | die {user : Nat} : after = Sources.die user world → Stepped asSource fuel world after (.die user)

theorem step_cases {action : Action V} (stepped : step asSource fuel action world = some after) :
    Stepped asSource fuel world after action := by
  cases action with
  | set id value =>
    simp only [step] at stepped
    split at stepped
    next raw opened =>
      obtain ⟨_, done⟩ := finished_ok stepped
      exact .set opened done
    · cases stepped
  | dropCell id =>
    simp only [step] at stepped
    split at stepped
    next raw opened =>
      cases stepped
      exact .dropCell opened rfl
    · cases stepped
  | newFlatten id sourceOfSource =>
    simp only [step] at stepped
    split at stepped
    next absent =>
      obtain ⟨_, done⟩ := finished_ok stepped
      exact .newFlatten absent done
    · cases stepped
  | get source =>
    obtain ⟨value, done⟩ := finished_ok stepped
    exact .get done
  | listen source user =>
    obtain ⟨_, done⟩ := finished_ok stepped
    exact .listen done
  | die user =>
    cases stepped
    exact .die rfl

theorem step_valid {action : Action V} (valid : Valid world) (stepped : step asSource fuel action world = some after) :
    Valid after := by
  cases step_cases stepped with
  | set _ done => exact set_valid valid done
  | @dropCell id _ _ same =>
    rw [same]
    exact dropCell_valid valid id
  | newFlatten absent done => exact newFlatten_valid valid absent done
  | get done => exact (get_ok fuel _ _ _ _ valid done).1.valid
  | listen done => exact (listen_ok valid.opened done).1.valid valid
  | @die user same =>
    rw [same]
    exact die_valid valid user

/-- Every step keeps registrations, and either keeps a source in sync or tells
those who listen to it. -/
theorem step_follows {action : Action V} (valid : Valid world) (stepped : step asSource fuel action world = some after) :
    Follows world after ∧ ∀ source value, Synced asSource world source value →
      Synced asSource after source value ∨ ∀ user, (after.users user).alive = true →
        world.Holds (.user user) source → (world.users user).received < (after.users user).received := by
  cases step_cases stepped with
  | set opened done =>
    refine ⟨set_follows done, fun source value synced => ?_⟩
    refine (set_synced valid (by simp [opened]) done synced).imp (fun still => still) fun told user living holds => ?_
    exact told (.user user) holds ((set_follows done).alive user living)
  | @dropCell id _ _ same =>
    subst after
    have lasting : Lasting asSource world (dropCell id world) :=
      .of_core (fun other => setNotifier_value ..) fun _ _ _ _ => ⟨rfl, rfl⟩
    exact ⟨⟨fun _ living => living, fun _ => Nat.le_refl _, fun _ _ _ => dropCell_holds id⟩,
      fun source value synced => .inl (lasting.synced source value synced)⟩
  | newFlatten absent done =>
    obtain ⟨follows, lasting⟩ : Follows world after ∧ Lasting asSource world after :=
      newFlatten_follows valid absent done
    exact ⟨follows, fun source value synced => .inl (lasting.synced source value synced)⟩
  | get done =>
    have got := (get_ok fuel _ _ _ _ valid done).1
    exact ⟨got.follows, fun source value synced => .inl (got.lasting.synced source value synced)⟩
  | listen done =>
    have got : Got asSource world after := (listen_ok valid.opened done).1.got valid
    exact ⟨got.follows, fun source value synced => .inl (got.lasting.synced source value synced)⟩
  | @die user same =>
    subst after
    have lasting : Lasting asSource world (die user world) := .of_core (fun _ => rfl) fun _ _ _ _ => ⟨rfl, rfl⟩
    refine ⟨⟨fun other living => ?_, fun other => ?_, fun _ _ _ => die_holds user⟩,
      fun source value synced => .inl (lasting.synced source value synced)⟩
    · by_cases equal : other = user
      · simp [die, equal] at living
      · simpa [die, Function.update_of_ne equal] using living
    · by_cases equal : other = user <;> simp [die, equal]

end Steps

theorem initial_valid (values : Nat → V) (alive : Nat → Bool) : Valid (initial values alive) where
  opened _ := nofun
  outer _ _ _ := nofun
  cached _ _ _ := nofun
  distinct _ _ _ _ _ _ := nofun

section Runs
variable [VecGrowth] {fuel : Nat}

theorem run_valid {first last : World V} (run : Reaches (step asSource fuel) Free first last) (valid : Valid first) :
    Valid last :=
  run.invariant (fun _ _ _ _ stepped valid => step_valid valid stepped) valid

theorem run_follows {first last : World V} (run : Reaches (step asSource fuel) Free first last) (valid : Valid first) :
    Follows first last := by
  induction run with
  | refl => exact ⟨fun _ living => living, fun _ => Nat.le_refl _, fun _ _ _ holds => holds⟩
  | @tail before after reached move ih =>
    obtain ⟨action, _, stepped⟩ := move
    have follows := (step_follows (run_valid reached valid) stepped).1
    exact ⟨fun user => ih.alive user ∘ follows.alive user,
      fun user => Nat.le_trans (ih.received user) (follows.received user),
      fun user source living holds =>
        follows.holds user source living (ih.holds user source (follows.alive user living) holds)⟩

/-- The run lemma: as long as a listener has heard nothing, its source is in sync. -/
theorem run_synced {first last : World V} (run : Reaches (step asSource fuel) Free first last) (valid : Valid first)
    {source : Source V} {value : V} {user : Nat} (synced : Synced asSource first source value)
    (holds : first.Holds (.user user) source) (living : (last.users user).alive = true) :
    Synced asSource last source value ∨ (first.users user).received < (last.users user).received := by
  induction run with
  | refl => exact .inl synced
  | @tail before after reached move ih =>
    obtain ⟨action, _, stepped⟩ := move
    have follows := run_follows reached valid
    obtain ⟨next, kept⟩ := step_follows (run_valid reached valid) stepped
    have lived := next.alive user living
    rcases ih lived with still | told
    · refine (kept source value still).imp (fun still => still) fun told => ?_
      exact Nat.lt_of_le_of_lt (follows.received user) (told user living (follows.holds user source lived holds))
    · exact .inr (Nat.lt_of_lt_of_le told (next.received user))

/-- Two reads with different results have a message between them, for everybody
who was registered before the first. -/
theorem change_is_announced {values : Nat → V} {alive : Nat → Bool} {start listening first read second last : World V}
    {source : Source V} {user : Nat} {value other : V}
    (begun : Reaches (step asSource fuel) Free (initial values alive) start)
    (registered : source.listen fuel (.user user) start = .ok () listening)
    (meanwhile : Reaches (step asSource fuel) Free listening first)
    (got : source.get asSource fuel first = .ok value read)
    (later : Reaches (step asSource fuel) Free read second)
    (again : source.get asSource fuel second = .ok other last)
    (changed : value ≠ other) (living : (second.users user).alive = true) :
    (read.users user).received < (second.users user).received := by
  have valid := run_valid begun (initial_valid values alive)
  obtain ⟨tables, held⟩ := listen_ok valid.opened registered
  have listened := tables.valid valid
  obtain ⟨reading, synced⟩ := get_ok fuel _ _ _ _ (run_valid meanwhile listened) got
  have sofar := run_follows meanwhile listened
  have after := run_follows later reading.valid
  have alive : (read.users user).alive = true := after.alive user living
  have atFirst : (first.users user).alive = true := reading.follows.alive user alive
  have atStart : (start.users user).alive = true := by
    rw [← tables.keeps.users]
    exact sofar.alive user atFirst
  have holds : read.Holds (.user user) source :=
    reading.follows.holds user source alive (sofar.holds user source atFirst (held atStart))
  rcases run_synced later reading.valid synced holds living with still | told
  · obtain ⟨last, resynced⟩ := get_ok fuel _ _ _ _ (run_valid later reading.valid) again
    exact absurd ((last.lasting.synced _ _ still).functional resynced) changed
  · exact told

end Runs

/-- Numbers that are also names of cells. -/
def named (id : Nat) : Option (Source Nat) := some (.cell id)

/-- Cell 0 holds a source, and the others a multiple of ten. -/
def tens (id : Nat) : Nat := if id = 0 then 1 else 10 * id

theorem change_is_announced_outer : ∃ read second : World Nat, (read.users 7).received < (second.users 7).received := by
  have run : ∃ start listening read second last : World Nat,
      exec (@step _ .usual named 9) [.newFlatten 0 (.cell 0)] (initial tens fun _ => true) = some start ∧
      @Source.listen _ .usual 9 (.user 7) (.map (· + 1) (.flatten 0)) start = .ok () listening ∧
      @Source.get _ .usual named 9 (.map (· + 1) (.flatten 0)) listening = .ok 11 read ∧
      exec (@step _ .usual named 9) [.set 0 2] read = some second ∧
      @Source.get _ .usual named 9 (.map (· + 1) (.flatten 0)) second = .ok 21 last ∧
      (second.users 7).alive = true :=
    ⟨_, _, _, _, _, rfl, rfl, rfl, rfl, rfl, rfl⟩
  obtain ⟨start, listening, read, second, last, begun, registered, got, later, again, living⟩ := run
  exact ⟨read, second, @change_is_announced _ named .usual 9 _ _ _ _ _ _ _ _ _ _ _ _ (exec_reaches begun) registered
    .refl got (exec_reaches later) again (by decide) living⟩

end Nosy.Sources
