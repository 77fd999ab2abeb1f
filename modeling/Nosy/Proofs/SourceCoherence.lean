import Nosy.General.Transition
import Nosy.Proofs.SourceState

/-! Why a value does not change behind a listener's back. A source is in sync at a
value if `get` would return it and everything that could make `get` return another
value will ring the notifiers on the way; reading a source puts it in sync. -/

namespace Nosy.Sources
open RawNotifier Transition
open EStateM (Result)

variable {V : Type} {asSource : V → Option (Source V)}

/-- `get` returns this value. A flattened source whose cached state is current does
not look at its outer source; any other must find the same inner source again. -/
inductive Synced (asSource : V → Option (Source V)) (world : World V) : Source V → V → Prop where
  | cell (id : Nat) : Synced asSource world (.cell id) (world.cells id).value
  | constant (value : V) : Synced asSource world (.constant value) value
  | map (function : V → V) {source : Source V} {value : V} : Synced asSource world source value →
      Synced asSource world (.map function source) (function value)
  | cached {id : Nat} {sourceOfSource : Source V} {state : State V} {value : V} :
      world.core id = some (sourceOfSource, some state) → world.generation id = some state.generation →
      Synced asSource world state.source value → Synced asSource world (.flatten id) value
  | refetched {id : Nat} {sourceOfSource : Source V} {state : State V} {inner value : V} :
      world.core id = some (sourceOfSource, some state) → Synced asSource world sourceOfSource inner →
      asSource inner = some state.source → Synced asSource world state.source value →
      Synced asSource world (.flatten id) value

theorem Synced.functional {world : World V} {source : Source V} {value other : V}
    (first : Synced asSource world source value) (second : Synced asSource world source other) : value = other := by
  induction first generalizing other with
  | cell id =>
    cases second
    rfl
  | constant value =>
    cases second
    rfl
  | map function _ ih =>
    cases second with
    | map _ second => rw [ih second]
  | cached found _ _ ih =>
    cases second with
    | cached same _ second | refetched same _ _ second =>
      rw [found] at same
      cases same
      exact ih second
  | refetched found _ _ _ _ ih =>
    cases second with
    | cached same _ second | refetched same _ _ second =>
      rw [found] at same
      cases same
      exact ih second

/-- The next `get` of this flattened source reads that inner source. -/
def Ready (asSource : V → Option (Source V)) (world : World V) (id : Nat) (source : Source V) : Prop :=
  ∃ sourceOfSource state, world.core id = some (sourceOfSource, some state) ∧ state.source = source ∧
    (world.generation id = some state.generation ∨
      ∃ inner, Synced asSource world sourceOfSource inner ∧ asSource inner = some source)

private theorem Ready.synced {world : World V} {id : Nat} {source : Source V} {value : V}
    (ready : Ready asSource world id source) (synced : Synced asSource world source value) :
    Synced asSource world (.flatten id) value := by
  obtain ⟨sourceOfSource, state, found, rfl, current | ⟨inner, outer, isSource⟩⟩ := ready
  · exact .cached found current synced
  · exact .refetched found outer isSource synced

/-- Whatever was in sync stays so, at the same value. -/
structure Lasting (asSource : V → Option (Source V)) (before after : World V) : Prop where
  synced : ∀ source value, Synced asSource before source value → Synced asSource after source value
  ready : ∀ id source, Ready asSource before id source → Ready asSource after id source

private theorem Lasting.refl (world : World V) : Lasting asSource world world :=
  ⟨fun _ _ synced => synced, fun _ _ ready => ready⟩

private theorem Lasting.trans {before middle after : World V} (first : Lasting asSource before middle)
    (second : Lasting asSource middle after) : Lasting asSource before after :=
  ⟨fun source value => second.synced source value ∘ first.synced source value,
    fun id source => second.ready id source ∘ first.ready id source⟩

/-- It is enough that the cached states in use keep their source and generation. -/
private theorem Lasting.intro {before after : World V} (values : ∀ id, (after.cells id).value = (before.cells id).value)
    (carries : ∀ id sourceOfSource state, before.core id = some (sourceOfSource, some state) →
      (before.generation id = some state.generation ∨
        ∃ inner, Synced asSource before sourceOfSource inner ∧ asSource inner = some state.source) →
      ∃ next, after.core id = some (sourceOfSource, some next) ∧ next.source = state.source ∧
        next.generation = state.generation ∧ after.generation id = before.generation id) :
    Lasting asSource before after := by
  have kept : ∀ source value, Synced asSource before source value → Synced asSource after source value := by
    intro source value synced
    induction synced with
    | cell id =>
      rw [← values id]
      exact .cell id
    | constant value => exact .constant value
    | map function _ ih => exact .map function ih
    | cached found current _ ih =>
      obtain ⟨next, carried, source, generation, same⟩ := carries _ _ _ found (.inl current)
      exact .cached carried (by rw [same, current, generation]) (source ▸ ih)
    | refetched found outer isSource _ outerKept ih =>
      obtain ⟨next, carried, source, _, _⟩ := carries _ _ _ found (.inr ⟨_, outer, isSource⟩)
      exact .refetched carried outerKept (source ▸ isSource) (source ▸ ih)
  refine ⟨kept, ?_⟩
  rintro id source ⟨sourceOfSource, state, found, rfl, reason⟩
  obtain ⟨next, carried, source, generation, same⟩ := carries id sourceOfSource state found reason
  refine ⟨sourceOfSource, next, carried, source, ?_⟩
  rcases reason with current | ⟨inner, outer, isSource⟩
  · exact .inl (by rw [same, current, generation])
  · exact .inr ⟨inner, kept _ _ outer, isSource⟩

theorem Lasting.of_core {before after : World V} (values : ∀ id, (after.cells id).value = (before.cells id).value)
    (core : ∀ id sourceOfSource state, before.core id = some (sourceOfSource, some state) →
      after.core id = before.core id ∧ after.generation id = before.generation id) :
    Lasting asSource before after :=
  .intro values fun id _ state found _ =>
    ⟨state, (core id _ _ found).1.trans found, rfl, rfl, (core id _ _ found).2⟩

/-- What a `get` leaves behind. -/
structure Got (asSource : V → Option (Source V)) (before after : World V) : Prop where
  valid : Valid after
  keeps : Keeps before after
  lasting : Lasting asSource before after

private theorem Got.trans {before middle after : World V} (first : Got asSource before middle)
    (second : Got asSource middle after) : Got asSource before after :=
  ⟨second.valid, first.keeps.trans second.keeps, first.lasting.trans second.lasting⟩

private theorem Got.refl {world : World V} (valid : Valid world) : Got asSource world world :=
  ⟨valid, .refl world, .refl world⟩

theorem OnlyTables.got {before after : World V} (tables : OnlyTables before after) (valid : Valid before) :
    Got asSource before after :=
  ⟨tables.valid valid, tables.keeps, .of_core tables.keeps.values fun id _ _ _ =>
    ⟨tables.core id, tables.keeps.generations id⟩⟩

theorem openGate_got {world : World V} (valid : Valid world) : Got asSource world world.openGate := by
  have keeps : Keeps world world.openGate :=
    .of_notifiers (fun _ => rfl) (fun _ => rfl) (fun _ => rfl) (fun _ => rfl) rfl
      (fun gate known isOpen => by simpa [World.openGate, Function.update_of_ne (Nat.ne_of_lt known)] using isOpen)
      (Nat.le_succ _)
  refine ⟨⟨valid.opened, fun id _ _ found => (valid.outer id _ _ found).notifiers fun _ => rfl,
    fun id sourceOfSource state found => ?_, valid.distinct⟩, keeps, .of_core (fun _ => rfl) fun _ _ _ _ => ⟨rfl, rfl⟩⟩
  obtain ⟨generation, isOpen, known, holds⟩ := valid.cached id _ _ found
  refine ⟨generation, ?_, Nat.lt_succ_of_lt known, holds.notifiers fun _ => rfl⟩
  simpa [World.openGate, Function.update_of_ne (Nat.ne_of_lt known)] using isOpen

private theorem closeGate_keeps (world : World V) (gate : Nat) : Keeps world (world.closeGate gate) := by
  refine .of_notifiers (fun _ => rfl) (fun _ => rfl) (fun _ => rfl) (fun _ => rfl) rfl (fun other _ isOpen => ?_)
    (Nat.le_refl _)
  by_cases equal : other = gate
  · simp [World.closeGate, equal] at isOpen
  · simpa [World.closeGate, Function.update_of_ne equal] using isOpen

/-- Dropping a gate that no cached state owns. -/
private theorem closeGate_valid {world : World V} (valid : Valid world) {gate : Nat}
    (unowned : ∀ id sourceOfSource state, world.core id = some (sourceOfSource, some state) → state.gate ≠ gate) :
    Valid (world.closeGate gate) := by
  refine ⟨valid.opened, fun id _ _ found => (valid.outer id _ _ found).notifiers fun _ => rfl,
    fun id sourceOfSource state found => ?_, valid.distinct⟩
  obtain ⟨generation, isOpen, known, holds⟩ := valid.cached id _ _ found
  refine ⟨generation, ?_, known, holds.notifiers fun _ => rfl⟩
  simpa [World.closeGate, Function.update_of_ne (unowned id _ _ found)] using isOpen

private theorem closeGate_lasting (world : World V) (gate : Nat) : Lasting asSource world (world.closeGate gate) :=
  .of_core (fun _ => rfl) fun _ _ _ _ => ⟨rfl, rfl⟩

theorem setState_core (world : World V) (id : Nat) (new : State V) (other : Nat) :
    (world.setInner id ({ · with state := some new })).core other =
      if other = id then (world.core id).map fun parts => (parts.1, some new) else world.core other := by
  by_cases equal : other = id
  · subst other
    cases found : world.flattens id <;> simp [World.core, setInner_flattens, found]
  · simp [World.core, setInner_flattens, equal]

theorem setState_generation (world : World V) (id : Nat) (new : State V) (other : Nat) :
    (world.setInner id ({ · with state := some new })).generation other = world.generation other := by
  by_cases equal : other = id
  · subst other
    cases found : world.flattens id <;> simp [World.generation, setInner_flattens, found]
  · simp [World.generation, setInner_flattens, equal]

/-- A new state that nothing else owns yet, with its subscription in place. -/
structure Candidate (world : World V) (id : Nat) (new : State V) : Prop where
  generation : new.generation = 0
  isOpen : world.gates new.gate = true
  known : new.gate < world.nextGate
  own : ∀ other sourceOfSource state, world.core other = some (sourceOfSource, some state) → state.gate ≠ new.gate
  holds : world.Holds (.inner id new.gate) new.source

theorem setState_notifierAt (world : World V) (id : Nat) (new : State V) (place : Place) :
    (world.setInner id ({ · with state := some new })).notifierAt place = world.notifierAt place :=
  setInner_notifierAt world place id fun _ => rfl

private theorem setState_outer (world : World V) (id : Nat) (new : State V) (other : Nat) :
    ((world.setInner id ({ · with state := some new })).core other).map Prod.fst = (world.core other).map Prod.fst := by
  rw [setState_core]
  split
  next same => cases found : world.core id <;> simp [same, found]
  · rfl

private theorem setState_keeps (world : World V) (id : Nat) (new : State V) :
    Keeps world (world.setInner id ({ · with state := some new })) :=
  .of_notifiers (setState_notifierAt world id new) (fun _ => rfl) (setState_outer world id new)
    (setState_generation world id new) rfl (fun _ _ isOpen => isOpen) (Nat.le_refl _)

private theorem setState_valid {world : World V} (valid : Valid world) {id : Nat} {new : State V}
    (candidate : Candidate world id new) : Valid (world.setInner id ({ · with state := some new })) := by
  have notifiers := setState_notifierAt world id new
  -- a cached state is the new one, or one that was there before and has a gate of its own
  have cases {other : Nat} {outer : Source V} {state : State V}
      (cached : (world.setInner id ({ · with state := some new })).core other = some (outer, some state)) :
      other = id ∧ state = new ∨ other ≠ id ∧ world.core other = some (outer, some state) := by
    rw [setState_core] at cached
    split at cached
    next here =>
      obtain ⟨parts, _, same⟩ := Option.map_eq_some_iff.mp cached
      cases same
      exact .inl ⟨here, rfl⟩
    next elsewhere => exact .inr ⟨elsewhere, cached⟩
  refine ⟨fun other => ?_, fun other outer state cached => ?_, fun other outer state cached => ?_,
    fun one two outer another first second cachedOne cachedTwo same => ?_⟩
  · rw [notifiers]
    exact valid.opened other
  · have kept := setState_outer world id new other
    rw [cached] at kept
    obtain ⟨⟨_, old⟩, found, same⟩ := Option.map_eq_some_iff.mp kept.symm
    cases same
    exact (valid.outer _ _ _ found).notifiers notifiers
  · rcases cases cached with ⟨rfl, rfl⟩ | ⟨_, found⟩
    · exact ⟨candidate.generation, candidate.isOpen, candidate.known, candidate.holds.notifiers notifiers⟩
    · obtain ⟨generation, isOpen, known, holds⟩ := valid.cached _ _ _ found
      exact ⟨generation, isOpen, known, holds.notifiers notifiers⟩
  · rcases cases cachedOne with ⟨rfl, rfl⟩ | ⟨_, foundOne⟩
    · rcases cases cachedTwo with ⟨rfl, _⟩ | ⟨_, foundTwo⟩
      · rfl
      · exact absurd same.symm (candidate.own _ _ _ foundTwo)
    · rcases cases cachedTwo with ⟨rfl, rfl⟩ | ⟨_, foundTwo⟩
      · exact absurd same (candidate.own _ _ _ foundOne)
      · exact valid.distinct _ _ _ _ _ _ foundOne foundTwo same

private theorem replaced_unowned {world : World V} (valid : Valid world) {id : Nat} {new old : State V}
    {sourceOfSource : Source V}
    (candidate : Candidate world id new) (found : world.core id = some (sourceOfSource, some old)) :
    ∀ other outer state, (world.setInner id ({ · with state := some new })).core other = some (outer, some state) →
      state.gate ≠ old.gate := by
  intro other outer state cached same
  rw [setState_core] at cached
  split at cached
  next here =>
    rw [found] at cached
    cases cached
    exact candidate.own _ _ _ found same.symm
  next elsewhere => exact elsewhere (valid.distinct _ _ _ _ _ _ cached found same)

theorem core_state {world : World V} {id : Nat} {sourceOfSource : Source V} {state : Option (State V)}
    (found : world.core id = some (sourceOfSource, state)) : (world.flattens id).bind (·.state) = state := by
  obtain ⟨inner, present, same⟩ := Option.map_eq_some_iff.mp found
  rw [present]
  exact congrArg Prod.snd same

theorem store_valid {world : World V} (valid : Valid world) {id : Nat} {needed : UInt32} {new : State V}
    {sourceOfSource : Source V} {state : Option (State V)} (found : world.core id = some (sourceOfSource, state))
    (candidate : Candidate world id new) : Valid (world.store id needed new).2 := by
  simp only [World.store, core_state found]
  cases state with
  | none => exact setState_valid valid candidate
  | some old =>
    by_cases newer : old.generation ≥ needed
    · simp only [if_pos newer]
      exact closeGate_valid valid candidate.own
    · simp only [if_neg newer]
      exact closeGate_valid (setState_valid valid candidate) (replaced_unowned valid candidate found)

theorem store_keeps (world : World V) (id : Nat) (needed : UInt32) (new : State V) :
    Keeps world (world.store id needed new).2 := by
  unfold World.store
  split
  · exact setState_keeps world id new
  · split
    · exact closeGate_keeps world new.gate
    · exact (setState_keeps world id new).trans (closeGate_keeps _ _)

/-- A state that may replace the one of `id`: its source was read from the outer
source as it is now. -/
structure Fetched (asSource : V → Option (Source V)) (world : World V) (id : Nat) (new : State V) : Prop
    extends Candidate world id new where
  outer : ∃ sourceOfSource old value, world.core id = some (sourceOfSource, old) ∧
    Synced asSource world sourceOfSource value ∧ asSource value = some new.source

private theorem setState_lasting {world : World V} (valid : Valid world) {id : Nat} {new : State V}
    (fetched : Fetched asSource world id new)
    (stale : ∀ sourceOfSource old, world.core id = some (sourceOfSource, some old) →
      world.generation id ≠ some old.generation) :
    Lasting asSource world (world.setInner id ({ · with state := some new })) ∧
      Ready asSource (world.setInner id ({ · with state := some new })) id new.source := by
  obtain ⟨sourceOfSource, old, value, found, outer, isSource⟩ := fetched.outer
  have stored : (world.setInner id ({ · with state := some new })).core id = some (sourceOfSource, some new) := by
    rw [setState_core, if_pos rfl, found]
    rfl
  have lasting : Lasting asSource world (world.setInner id ({ · with state := some new })) := by
    refine .intro (fun _ => rfl) fun other outerSource state cached reason => ?_
    by_cases equal : other = id
    · subst other
      rw [found] at cached
      cases cached
      rcases reason with current | ⟨inner, synced, again⟩
      · exact absurd current (stale _ _ found)
      · rw [outer.functional synced, again] at isSource
        have generation := (valid.cached _ _ _ found).1
        exact ⟨new, stored, (Option.some.inj isSource).symm, fetched.generation.trans generation.symm,
          setState_generation world _ new _⟩
    · refine ⟨state, ?_, rfl, rfl, setState_generation world id new other⟩
      rw [setState_core, if_neg equal, cached]
  exact ⟨lasting, sourceOfSource, new, stored, rfl, .inr ⟨value, lasting.synced _ _ outer, isSource⟩⟩

private theorem store_got {world : World V} (valid : Valid world) {id : Nat} {needed : UInt32} {new : State V}
    (generation : world.generation id = some needed) (fetched : Fetched asSource world id new) :
    Got asSource world (world.store id needed new).2 ∧
      Ready asSource (world.store id needed new).2 id (world.store id needed new).1 := by
  obtain ⟨sourceOfSource, state, value, found, _⟩ := fetched.outer
  have lasting : Lasting asSource world (world.store id needed new).2 ∧
      Ready asSource (world.store id needed new).2 id (world.store id needed new).1 := by
    simp only [World.store, core_state found]
    cases state with
    | none =>
      apply setState_lasting valid fetched
      intro _ old same
      rw [found] at same
      cases same
    | some old =>
      have zero := (valid.cached _ _ _ found).1
      by_cases newer : old.generation ≥ needed
      · -- a stored generation of 0 is only ever enough for the generation 0
        have enough : needed = 0 := by
          rw [zero, ge_iff_le, UInt32.le_iff_toNat_le] at newer
          exact UInt32.toNat_inj.mp (Nat.le_zero.mp newer)
        simp only [if_pos newer]
        have closed : Lasting asSource world (world.closeGate new.gate) := closeGate_lasting world new.gate
        refine ⟨closed, closed.ready _ _ ⟨sourceOfSource, old, found, rfl, .inl ?_⟩⟩
        rw [generation, enough, zero]
      · simp only [if_neg newer]
        have stale : ∀ outer state, world.core id = some (outer, some state) →
            world.generation id ≠ some state.generation := by
          intro outer state same current
          rw [found] at same
          cases same
          rw [generation] at current
          cases current
          exact newer (UInt32.le_refl _)
        obtain ⟨stored, ready⟩ := setState_lasting valid fetched stale
        have closed : Lasting asSource (world.setInner id ({ · with state := some new })) _ := closeGate_lasting _ old.gate
        exact ⟨stored.trans closed, closed.ready _ _ ready⟩
  exact ⟨⟨store_valid valid found fetched.toCandidate, store_keeps world id needed new, lasting.1⟩, lasting.2⟩

/-- The specification of `get`. -/
def Reads (asSource : V → Option (Source V)) (get : Source V → EStateM Failure (World V) V) : Prop :=
  ∀ source before value after, Valid before → get source before = .ok value after →
    Got asSource before after ∧ Synced asSource after source value

private theorem getWith_ok {flattened : Nat → EStateM Failure (World V) V}
    (reads : ∀ id before value after, Valid before → flattened id before = .ok value after →
      Got asSource before after ∧ Synced asSource after (.flatten id) value) :
    Reads asSource (Source.getWith flattened) := by
  intro source before value after valid returned
  induction source generalizing value with
  | cell id =>
    cases returned
    exact ⟨.refl valid, .cell id⟩
  | constant value =>
    cases returned
    exact ⟨.refl valid, .constant _⟩
  | map function source ih =>
    simp only [Source.getWith] at returned
    cases called : source.getWith flattened before with
    | error failure stopped => simp [called] at returned
    | ok inner last =>
      simp only [called] at returned
      cases returned
      obtain ⟨got, synced⟩ := ih inner called
      exact ⟨got, .map function synced⟩
  | flatten id => exact reads id before value after valid returned

section Get
variable [VecGrowth]

theorem getSourceAndListenIfNew_ok {get : Source V → EStateM Failure (World V) V} (reads : Reads asSource get)
    {fuel id : Nat} {before after : World V} {source : Source V} (valid : Valid before)
    (returned : getSourceAndListenIfNew asSource get fuel id before = .ok source after) :
    Got asSource before after ∧ Ready asSource after id source := by
  unfold getSourceAndListenIfNew at returned
  cases present : before.flattens id with
  | none => simp [present] at returned
  | some inner =>
    have found : before.core id = some (inner.sourceOfSource, inner.state) := by simp [World.core, present]
    have needed : before.generation id = some inner.generationFromListening := by simp [World.generation, present]
    simp only [present] at returned
    cases current : inner.current inner.generationFromListening with
    | some cached =>
      simp only [current] at returned
      cases returned
      refine ⟨.refl valid, ?_⟩
      unfold Inner.current at current
      split at current
      next state same =>
        split at current
        next equal =>
          cases current
          exact ⟨_, state, by rw [found, same], rfl, .inl (by rw [needed, equal])⟩
        · cases current
      · cases current
    | none =>
      simp only [current] at returned
      cases outer : get inner.sourceOfSource before with
      | error failure stopped => simp [outer] at returned
      | ok value fetched =>
        simp only [outer] at returned
        obtain ⟨got, synced⟩ := reads _ _ _ _ valid outer
        cases isSource : asSource value with
        | none => simp [isSource] at returned
        | some inside =>
          simp only [isSource] at returned
          cases listened : inside.listen fuel (.inner id fetched.nextGate) fetched.openGate with
          | error failure stopped => simp [listened] at returned
          | ok _ middle =>
            simp only [listened] at returned
            cases returned
            have opened : Got asSource before fetched.openGate := got.trans (openGate_got got.valid)
            obtain ⟨tables, held⟩ := listen_ok opened.valid.opened listened
            have ready : Got asSource before middle := opened.trans (tables.got opened.valid)
            have isOpen : fetched.openGate.gates fetched.nextGate = true := by simp [World.openGate]
            have new : Fetched asSource middle id ⟨0, inside, fetched.nextGate⟩ := by
              refine ⟨⟨rfl, tables.gates ▸ isOpen, ?_, fun other outerSource state cached same => ?_, held isOpen⟩, ?_⟩
              · rw [tables.nextGate]
                exact Nat.lt_succ_self _
              · rw [tables.core] at cached
                have known := (got.valid.cached _ _ _ cached).2.2.1
                simp only at same
                omega
              · have kept := ready.keeps.outers id
                rw [found] at kept
                obtain ⟨⟨outerSource, old⟩, present, same⟩ := Option.map_eq_some_iff.mp kept
                cases same
                have lasting : Lasting asSource fetched middle :=
                  ((openGate_got got.valid).trans (tables.got opened.valid)).lasting
                exact ⟨_, old, value, present, lasting.synced _ _ synced, isSource⟩
            have stored := store_got ready.valid ((ready.keeps.generations id).trans needed) new
            exact ⟨ready.trans stored.1, stored.2⟩

theorem getFlatten_ok (fuel id : Nat) (before : World V) (value : V) (after : World V) (valid : Valid before)
    (returned : getFlatten asSource fuel id before = .ok value after) :
    Got asSource before after ∧ Synced asSource after (.flatten id) value := by
  induction fuel generalizing id before value after with
  | zero => cases returned
  | succ fuel ih =>
    have reads : Reads asSource (Source.getWith (getFlatten asSource fuel)) := getWith_ok ih
    simp only [getFlatten] at returned
    cases called : getSourceAndListenIfNew asSource (Source.getWith (getFlatten asSource fuel)) fuel id before with
    | error failure stopped => simp [called] at returned
    | ok source middle =>
      simp only [called] at returned
      obtain ⟨first, ready⟩ := getSourceAndListenIfNew_ok reads valid called
      obtain ⟨second, synced⟩ := reads _ _ _ _ first.valid returned
      exact ⟨first.trans second, (second.lasting.ready _ _ ready).synced synced⟩

/-- Reading a source puts it in sync at the value read. -/
theorem get_ok (fuel : Nat) : Reads asSource (Source.get asSource fuel) :=
  getWith_ok (getFlatten_ok fuel)

end Get
end Nosy.Sources
