import Nosy.CellWithLocal

/-! The local value and the shared one agree, unless `clone` panics between the two
assignments of `set`. -/

namespace Nosy.CellWithLocal
open Transition
open EStateM (Result)

variable {S V L W : Type} [LoadStore S V] {cloning : Cloning V W} {receive : Receive Unit L W}
  {this : CellWithLocal S V L} {world after : W} {value copy : V}

/-- What is borrowed is what a source returns. -/
def Agrees (this : CellWithLocal S V L) : Prop := this.get = this.asSource.get

/-- The value is copied, or it is the one that is shared already. -/
def Copied (cloning : Cloning V W) (value : V) (this : CellWithLocal S V L) (world : W) : Prop :=
  (∃ copy after, cloning.clone value world = .ok copy after) ∨ value = this.asSource.get

private theorem cell_set_get (cell : Cell S L) (world : W) : (cell.set receive value world).1.get = value :=
  LoadStore.replace_get value cell.valueMutex

private theorem new_agrees (created : new cloning value world = .ok this after) : Agrees this := by
  unfold new at created
  cases cloned : cloning.clone value world with
  | error failure stopped =>
    rw [cloned] at created
    cases created
  | ok copy copied =>
    rw [cloned] at created
    cases created
    exact (cloning.equal cloned).trans (LoadStore.get_new value).symm

/-- Past the clone, the copy is shared and the listeners are told, whatever they do. -/
theorem set_copied (cloned : cloning.clone value world = .ok copy after) :
    this.set cloning receive value world =
      (⟨(this.cell.set receive value after).1, value⟩, (this.cell.set receive value after).2) := by
  obtain rfl := cloning.equal cloned
  simp only [set, cloned]

theorem set_uncopied {failure : Failure} (cloned : cloning.clone value world = .error failure after) :
    this.set cloning receive value world = ({ this with value }, .error failure after) := by
  simp only [set, cloned]

theorem set_agrees_iff : Agrees (this.set cloning receive value world).1 ↔ Copied cloning value this world := by
  cases cloned : cloning.clone value world with
  | ok copy after =>
    rw [set_copied cloned]
    exact iff_of_true (cell_set_get this.cell after).symm (.inl ⟨copy, after, cloned⟩)
  | error failure after =>
    rw [set_uncopied cloned]
    constructor
    · exact .inr
    · rintro (⟨copy, copied, returned⟩ | same)
      · rw [cloned] at returned
        cases returned
      · exact same

/-- `Notifier::notify` was called after the clone: what became of the table, of the world
and of the call itself is what it did. -/
def Notified (cloning : Cloning V W) (receive : Receive Unit L W) (value : V) (this : CellWithLocal S V L) (world : W)
    (done : CellWithLocal S V L × Result Failure W Unit) : Prop :=
  ∃ copied, cloning.clone value world = .ok value copied ∧
    (done.1.cell.notifier, done.2) = this.cell.notifier.notify receive () copied

theorem set_notified (changed : (this.set cloning receive value world).1.asSource.get ≠ this.asSource.get) :
    Notified cloning receive value this world (this.set cloning receive value world) := by
  cases cloned : cloning.clone value world with
  | ok copy after =>
    rw [set_copied cloned]
    obtain rfl := cloning.equal cloned
    exact ⟨after, cloned, rfl⟩
  | error failure after =>
    rw [set_uncopied cloned] at changed
    exact absurd rfl changed

variable [VecGrowth]

/-- Every value that is set is copied. -/
def Copies (cloning : Cloning V W) (op : Op V L W) (system : System S V L W) : Prop :=
  match op with
  | .set value => Copied cloning value system.this system.world
  | _ => True

theorem step_agrees {op : Op V L W} {system next : System S V L W} (agrees : Agrees system.this)
    (copies : Copies cloning op system) (stepped : step cloning receive op system = some next) : Agrees next.this := by
  cases op with
  | set value =>
    cases stepped
    exact set_agrees_iff.mpr copies
  | listen listener =>
    cases stepped
    exact agrees
  | evolve world =>
    cases stepped
    exact agrees

/-- As long as the values that are set are copied, or are the shared ones already, the
two values agree. The next `set` keeps it so exactly under that condition, and
whatever happens to it, it does not change the shared value without a notification. -/
theorem copied_sets_agree (created : new cloning value world = .ok this after) {last : System S V L W}
    (run : Reaches (step cloning receive) (Copies cloning) ⟨this, after⟩ last) :
    Agrees last.this ∧ ∀ value done, last.this.set cloning receive value last.world = done →
      (Agrees done.1 ↔ Copied cloning value last.this last.world) ∧
      (done.1.asSource.get ≠ last.this.asSource.get → Notified cloning receive value last.this last.world done) := by
  refine ⟨?_, ?_⟩
  · apply run.invariant _ (new_agrees created)
    intro op before next copies stepped agrees
    exact step_agrees agrees copies stepped
  · rintro value done rfl
    exact ⟨set_agrees_iff, set_notified⟩

/-- Values above a limit cannot be cloned. -/
def limited : Cloning Nat Nat where
  clone value limit := if value ≤ limit then .ok value limit else .error (.panicked "clone") limit
  equal := by
    intro value copy limit after cloned
    split at cloned
    · cases cloned
      rfl
    · cases cloned

/-- A listener that panics when it is told something. -/
def explosive : Receive Unit Unit Nat := fun _ messages world =>
  if messages.isEmpty then .ok true world else .error (.panicked "receive") world

/-- A cell with value 1, of values up to 6. -/
def one : System (Lock Nat) Nat Unit Nat := ⟨⟨Cell.new 1, 1⟩, 6⟩

omit [VecGrowth] in
theorem copied_sets_agree_explosive : ∃ last : System (Lock Nat) Nat Unit Nat,
    Agrees last.this ∧ last.this.set limited explosive 5 last.world =
        (⟨⟨⟨5⟩, last.this.cell.notifier⟩, 5⟩, .error (.panicked "receive") 6) ∧
      Notified limited explosive 5 last.this last.world (last.this.set limited explosive 5 last.world) := by
  have listened : Reaches (@step _ _ _ _ _ limited .usual explosive) (Copies limited) one _ :=
    .single (show Copies limited (.listen ()) one from trivial) rfl
  obtain ⟨agrees, sets⟩ := @copied_sets_agree (Lock Nat) _ _ _ _ limited explosive _ 6 6 1 .usual rfl _ listened
  exact ⟨_, agrees, rfl, (sets 5 _ rfl).2 (by decide)⟩

omit [VecGrowth] in
theorem uncopied_set_disagrees : ∃ last : System (Lock Nat) Nat Unit Nat,
    Reaches (@step _ _ _ _ _ limited .usual explosive) Free one last ∧
      last.this.get = 7 ∧ last.this.asSource.get = 1 :=
  ⟨_, .single (show Free (.set 7) one from trivial) rfl, rfl, rfl⟩

end Nosy.CellWithLocal
