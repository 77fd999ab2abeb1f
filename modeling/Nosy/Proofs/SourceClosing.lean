import Nosy.Proofs.SourceNotices

/-! Which sources let go of their listeners when nothing they depend on can change.
A cell closes its notifier when it is dropped; the notifier of a flattened source
is never closed. -/

namespace Nosy.Sources
open RawNotifier Transition
open EStateM (Result)

variable {V : Type} {asSource : V → Option (Source V)}

/-- Every cell the value depends on has been dropped. -/
inductive Settled (asSource : V → Option (Source V)) (world : World V) : Source V → Prop where
  | cell {id : Nat} : (world.cells id).notifier = .closed → Settled asSource world (.cell id)
  | constant (value : V) : Settled asSource world (.constant value)
  | map (function : V → V) {source : Source V} : Settled asSource world source →
      Settled asSource world (.map function source)
  | flatten {id : Nat} {sourceOfSource inner : Source V} {value : V} :
      (world.flattens id).map (·.sourceOfSource) = some sourceOfSource → Settled asSource world sourceOfSource →
      Denotes asSource world sourceOfSource value → asSource value = some inner → Settled asSource world inner →
      Settled asSource world (.flatten id)

/-- The listener is in the notifier that `listen` on this source registers with. -/
def World.Retains (world : World V) (listener : Listener) : Source V → Prop
  | .cell id => ∃ listeners, world.listenersAt (.cell id) = some listeners ∧ listener ∈ listeners
  | .constant _ => False
  | .map _ source => world.Retains listener source
  | .flatten id => ∃ listeners, world.listenersAt (.flatten id) = some listeners ∧ listener ∈ listeners

/-- No listener is left, and another one would not stay. -/
def KeepsNone [VecGrowth] (fuel user : Nat) (world : World V) (source : Source V) : Prop :=
  (∀ listener, ¬ world.Retains listener source) ∧
    ∀ after, source.listen fuel (.user user) world = .ok () after → ¬ after.Retains (.user user) source

/-- Up to maps, a flattened source. -/
def Source.isFlatten : Source V → Bool
  | .cell _ | .constant _ => false
  | .map _ source => source.isFlatten
  | .flatten _ => true

def WithoutSet (action : Action V) (_ : World V) : Prop := ∀ id value, action ≠ .set id value

private theorem dropCell_withoutSet (id : Nat) (world : World V) : WithoutSet (.dropCell id) world := fun _ _ => nofun

private theorem dropDeadIfFull_empty {receive : Receive Unit Listener (World V)} {raw : RawNotifier Listener}
    (empty : raw.listeners = []) (world : World V) : raw.dropDeadIfFull receive world = (raw, .ok () world) := by
  obtain ⟨listeners, capacity⟩ := raw
  cases empty
  simp [dropDeadIfFull, dropDeadListeners, RetainSwap.retain]

section Closing
variable [VecGrowth] {fuel user : Nat} {world : World V}

private theorem settled_keeps_none {source : Source V} (settled : Settled asSource world source)
    (direct : source.isFlatten = false) : KeepsNone fuel user world source := by
  induction settled with
  | @cell id closed =>
    have unlisted : world.listenersAt (.cell id) = none := by
      simp only [World.listenersAt, World.notifierAt, closed]
    refine ⟨?_, fun after listened => ?_⟩
    · rintro listener ⟨listeners, listed, _⟩
      rw [unlisted] at listed
      cases listed
    · obtain ⟨tables, _⟩ := operate_listen_ok listened
      rintro ⟨listeners, listed, _⟩
      rw [(tables.keeps.closed _).mpr unlisted] at listed
      cases listed
  | constant value => exact ⟨fun _ => id, fun _ _ => id⟩
  | map function _ ih => exact ih direct
  | flatten => cases direct

theorem listen_empty (fuel : Nat) {id : Nat} {raw : RawNotifier Listener} (found : world.notifierAt (.flatten id) = some (.opened raw))
    (empty : raw.listeners = []) (living : (world.users user).alive = true) :
    ∃ after, (Source.flatten id).listen fuel (.user user) world = .ok () after := by
  have asked : World.receive fuel (.user user) [] world = .ok true world := by
    simp [World.receive, Listener.receive, living]
  have registered : raw.listen (World.receive fuel) (.user user) world =
      (raw.push ⟨.user user, true⟩, .ok () world) := by
    simp only [RawNotifier.listen, register, asked, dropDeadIfFull_empty empty]
  exact ⟨world.setNotifier (.flatten id) (.opened (raw.push ⟨.user user, true⟩)), by
    simp only [Source.listen, World.operate, found, Notifier.listen, registered]⟩

/-- A flattened source has listeners, or takes the next one, whatever was dropped. -/
private theorem flatten_keeps {id : Nat} {sourceOfSource : Source V} (valid : Valid world)
    (found : (world.flattens id).map (·.sourceOfSource) = some sourceOfSource) (living : (world.users user).alive = true) :
    ¬ KeepsNone fuel user world (.flatten id) := by
  rintro ⟨nobody, stays⟩
  obtain ⟨inner, present, _⟩ := Option.map_eq_some_iff.mp found
  have there : world.notifierAt (.flatten id) = some inner.notifier := by simp [World.notifierAt, present]
  cases shape : inner.notifier with
  | closed =>
    rw [shape] at there
    exact valid.opened id there
  | opened raw =>
    rw [shape] at there
    cases listeners : raw.listeners with
    | nil =>
      obtain ⟨after, listened⟩ := listen_empty fuel there listeners living
      obtain ⟨_, held⟩ := listen_ok valid.opened listened
      exact stays after listened (World.Stores.listed (held living))
    | cons entry rest =>
      have listed : world.listenersAt (.flatten id) = some (raw.listeners.map (·.listener)) := by
        simp only [World.listenersAt, there]
      exact nobody entry.listener ⟨_, listed, by simp [listeners]⟩

theorem settled_keeps_iff {source : Source V} (valid : Valid world) (settled : Settled asSource world source)
    (living : (world.users user).alive = true) :
    KeepsNone fuel user world source ↔ source.isFlatten = false := by
  refine ⟨fun none => ?_, settled_keeps_none settled⟩
  induction settled with
  | cell | constant => rfl
  | map function _ ih => exact ih none
  | flatten found => exact absurd none (flatten_keeps valid found living)

/-- After a `get` that saw the last change, a source of dropped cells keeps no
listeners exactly if it is not a flattened one. -/
theorem dropped_keeps_none {values : Nat → V} {alive : Nat → Bool} {before read world : World V} {source : Source V}
    {value : V} (begun : Reaches (step asSource fuel) Free (initial values alive) before)
    (got : source.get asSource fuel before = .ok value read)
    (later : Reaches (step asSource fuel) WithoutSet read world) (settled : Settled asSource world source)
    (living : (world.users user).alive = true) :
    KeepsNone fuel user world source ↔ source.isFlatten = false := by
  have reading := (get_ok fuel _ _ _ _ (run_valid begun (initial_valid values alive)) got).1
  have free : Reaches (step asSource fuel) Free read world := later.weaken fun _ _ _ => trivial
  exact settled_keeps_iff (run_valid free reading.valid) settled living

end Closing

theorem dropped_keeps_none_map : ∃ world : World Nat, @KeepsNone _ .usual 9 7 world (.map (· + 1) (.cell 1)) := by
  have run : ∃ before read world : World Nat,
      exec (@step _ .usual named 9) [.listen (.map (· + 1) (.cell 1)) 7] (initial tens fun _ => true) = some before ∧
      @Source.get _ .usual named 9 (.map (· + 1) (.cell 1)) before = .ok 11 read ∧
      @step _ .usual named 9 (.dropCell 1) read = some world ∧
      (world.cells 1).notifier = .closed ∧ (world.users 7).alive = true :=
    ⟨_, _, _, rfl, rfl, rfl, rfl, rfl⟩
  obtain ⟨before, read, world, begun, got, dropped, closed, living⟩ := run
  refine ⟨world, ?_⟩
  exact (@dropped_keeps_none _ named .usual 9 7 _ _ _ _ _ _ _ (exec_reaches begun) got
    (.single (dropCell_withoutSet _ _) dropped) (.map _ (.cell closed)) living).mpr rfl

theorem dropped_flatten_keeps : ∃ before read world : World Nat,
    Reaches (@step _ .usual named 9) Free (initial tens fun _ => true) before ∧
    @Source.get _ .usual named 9 (.flatten 0) before = .ok 10 read ∧
    Reaches (@step _ .usual named 9) WithoutSet read world ∧ Settled named world (.flatten 0) ∧
    world.Retains (.user 7) (.flatten 0) ∧ ¬ @KeepsNone _ .usual 9 8 world (.flatten 0) := by
  have run : ∃ before read between world : World Nat,
      exec (@step _ .usual named 9) [.newFlatten 0 (.cell 0), .listen (.flatten 0) 7] (initial tens fun _ => true) =
        some before ∧
      @Source.get _ .usual named 9 (.flatten 0) before = .ok 10 read ∧
      @step _ .usual named 9 (.dropCell 0) read = some between ∧
      @step _ .usual named 9 (.dropCell 1) between = some world ∧
      (world.flattens 0).map (·.sourceOfSource) = some (.cell 0) ∧ (world.cells 0).value = 1 ∧
      (world.cells 0).notifier = .closed ∧ (world.cells 1).notifier = .closed ∧
      world.listenersAt (.flatten 0) = some [.user 7] :=
    ⟨_, _, _, _, rfl, rfl, rfl, rfl, rfl, rfl, rfl, rfl, rfl⟩
  obtain ⟨before, read, between, world, begun, got, first, second, outer, value, outerClosed, innerClosed, listed⟩ := run
  have denotes : Denotes named world (.cell 0) 1 := value ▸ .cell 0
  have settled : Settled named world (.flatten 0) := .flatten outer (.cell outerClosed) denotes rfl (.cell innerClosed)
  have retained : world.Retains (.user 7) (.flatten 0) := ⟨_, listed, List.mem_singleton.mpr rfl⟩
  exact ⟨before, read, world, exec_reaches begun, got, (Reaches.single (dropCell_withoutSet _ _) first).snoc (dropCell_withoutSet _ _) second, settled, retained,
    fun none => none.1 _ retained⟩

end Nosy.Sources
