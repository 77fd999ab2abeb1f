import Nosy.Proofs.ForwarderNetwork

/-! Where every forwarder leads to a notifier of a lower rank, nobody waits for a lock in
a circle: who waits for one waits for somebody in a lower notifier than all it is in. -/

namespace Nosy.ForwarderNetwork
open SharedNotifier (Request Knows)
open Transition (Reaches exec)

variable {M : Type} {state after : State M} {thread node : Nat} {rank : Nat → Nat}

/-- The forwarder leads down. -/
def Below (rank : Nat → Nat) (node : Nat) (registration : Registration Target) : Prop :=
  ∀ target, registration.listener = .forwarder target → rank target < rank node

/-- The forwarders between notifiers make no circle. -/
def Ranked (rank : Nat → Nat) : Action M → State M → Prop
  | .call _ node (.listen registration), _ => Below rank node registration
  | _, _ => True

/-- All forwarders that are registered, or are going to be, lead down. -/
structure Fits (rank : Nat → Nat) (state : State M) : Prop where
  knows : ∀ node, Knows (Below rank node) (state.nodes node)
  waits : ∀ thread node registration, state.waiting thread = some (node, .listen registration) →
    Below rank node registration

/-- Whoever goes on by this. -/
def Action.mover : Action M → Option Nat
  | .upgrade thread | .acquire thread | .advance thread | .answer thread _ | .leave thread => some thread
  | .call .. | .drop _ => none

def Goes [VecGrowth] (state : State M) (thread : Nat) : Prop :=
  ∃ action : Action M, action.mover = some thread ∧ (step action state).isSome

/-- The thread needs a lock that the holder has. -/
def Waits (state : State M) (thread holder : Nat) : Prop :=
  ∃ node request, state.waiting thread = some (node, request) ∧ (state.nodes node).threads holder ≠ .idle

section Fits
variable [VecGrowth]

/-- A step takes up no forwarder but one that is being registered. -/
private theorem knows_put {action : SharedNotifier.Action Target M} {notifier : SharedNotifier.State Target M}
    (knows : ∀ node, Knows (Below rank node) (state.nodes node))
    (stepped : SharedNotifier.step action (state.nodes node) = some notifier)
    (kind : ∀ registration, action.requests = [.listen registration] → Below rank node registration) :
    ∀ other, Knows (Below rank other) ((state.put node notifier).nodes other) := by
  apply (Function.forall_update_iff state.nodes fun other next => Knows (Below rank other) next).mpr
  refine ⟨?_, fun other _ => knows other⟩
  apply (knows node).step stepped
  rintro thread registration rfl
  exact kind registration rfl

private theorem Fits.put {action : SharedNotifier.Action Target M} {notifier : SharedNotifier.State Target M}
    (fits : Fits rank state) (stepped : SharedNotifier.step action (state.nodes node) = some notifier)
    (goes : action.requests = []) : Fits rank (state.put node notifier) := by
  refine ⟨knows_put fits.knows stepped ?_, fits.waits⟩
  intro registration impossible
  rw [goes] at impossible
  cases impossible

omit [VecGrowth] in
private theorem Fits.enter {request : Request Target M} (fits : Fits rank state)
    (kind : ∀ registration, request = .listen registration → Below rank node registration) :
    Fits rank (state.enter thread node request) := by
  refine ⟨fits.knows, ?_⟩
  intro other place registration waits
  by_cases own : other = thread
  · subst own
    simp only [State.enter, Function.update_self] at waits
    cases waits
    exact kind registration rfl
  · simp only [State.enter, Function.update_of_ne own] at waits
    exact fits.waits other place registration waits

private theorem Fits.acquire {request : Request Target M} {notifier : SharedNotifier.State Target M}
    (fits : Fits rank state)
    (waits : state.waiting thread = some (node, request))
    (called : SharedNotifier.step (.call thread (numbered (state.nodes node).registered request)) (state.nodes node) =
      some notifier) :
    Fits rank (state.begun thread node (numbered (state.nodes node).registered request) notifier) := by
  constructor
  · apply knows_put fits.knows called
    intro registration asked
    cases request with
    | notifyMany | count | close => cases asked
    | listen registered =>
      cases asked
      exact fits.waits thread node registered waits
  · intro other place registration still
    simp only [State.begun] at still
    by_cases own : other = thread
    · subst own
      rw [Function.update_self] at still
      cases still
    · rw [Function.update_of_ne own] at still
      exact fits.waits other place registration still

theorem Fits.step {action : Action M} (fits : Fits rank state) (ranked : Ranked rank action state)
    (stepped : ForwarderNetwork.step action state = some after) : Fits rank after := by
  have left (thread : Nat) (use : Use M) (rest : List (Use M)) (outcome : SharedNotifier.Outcome) :
      Fits rank (state.exit thread use rest outcome) := ⟨fits.knows, fits.waits⟩
  cases step_cases stepped with
  | call _ _ _ =>
    apply fits.enter
    rintro registration rfl
    exact ranked
  | forwards _ _ =>
    apply fits.enter
    intro registration impossible
    cases impossible
  | refuses _ _ answered => exact fits.put answered rfl
  | acquire waits called => exact fits.acquire waits called
  | advance _ _ advanced => exact fits.put advanced rfl
  | answer _ answered => exact fits.put answered rfl
  | exit _ _ _ _ => exact left _ _ _ _
  | back _ _ _ _ answered => exact (left _ _ _ _).put answered rfl
  | drop _ => exact ⟨fits.knows, fits.waits⟩

omit [VecGrowth] in
private theorem fits_initial : Fits rank (initial : State M) := by
  constructor
  · intro node
    constructor
    · intro raw opened registration member
      cases opened
      cases member
    · intro thread registration impossible
      cases impossible
  · intro thread node registration impossible
    cases impossible

theorem run_fits (run : Reaches ForwarderNetwork.step (Ranked rank) initial state) : Fits rank state :=
  run.invariant (fun _ _ _ ranked stepped fits => fits.step ranked stepped) fits_initial

end Fits

/-- Every forwarder that a thread is in leads down, so it waits for less than it has. -/
private theorem Fits.lower {request : Request Target M} {visits : List (Visit M)} {inside : List (Use M)}
    (fits : Fits rank state)
    (placed : Placed (state.view thread) (some (node, request)) inside visits) :
    ∀ use ∈ inside, rank node < rank use.node := by
  have chain : (⟨node, request⟩ :: inside).IsChain (Calls (state.view thread)) :=
    List.isChain_cons.mpr ⟨placed.waits node request rfl, placed.chain⟩
  have ranks : (⟨node, request⟩ :: inside).IsChain fun upper lower => rank upper.node < rank lower.node := by
    apply chain.imp
    rintro upper lower ⟨registration, messages, call, leads, _⟩
    exact (fits.knows lower.node).within call upper.node leads
  have transitive : IsTrans (Use M) fun upper lower => rank upper.node < rank lower.node := ⟨fun _ _ _ => Nat.lt_trans⟩
  exact (List.pairwise_cons.mp ranks.pairwise).1

section Progress
variable [VecGrowth] {use : Use M} {rest : List (Use M)} {request : Request Target M}

private theorem Linked.receives {call : Registration Target × List M} (linked : Linked state)
    (free : state.waiting thread = none) (last : state.inside thread = use :: rest)
    (within : (state.nodes use.node).within thread = some call) : Goes state thread := by
  obtain ⟨⟨number, listener⟩, messages⟩ := call
  have facing : state.facing thread = some (use.node, ⟨number, listener⟩, messages) := by
    simp [State.facing, free, last, within]
  have rung := SharedNotifier.run_ringing (linked.run use.node)
  have answers (answer : SharedNotifier.Answer) :
      ∃ notifier, SharedNotifier.step (.answer thread answer) (state.nodes use.node) = some notifier := by
    apply rung.answers
    rw [within]
    rfl
  cases listener with
  | forwarder node =>
    cases alive : state.alive node with
    | true =>
      refine ⟨.upgrade thread, rfl, ?_⟩
      simp [ForwarderNetwork.step, facing, alive]
    | false =>
      obtain ⟨notifier, answered⟩ := answers (.ok false)
      refine ⟨.upgrade thread, rfl, ?_⟩
      simp [ForwarderNetwork.step, facing, alive, answered]
  | other id =>
    obtain ⟨notifier, answered⟩ := answers (.ok true)
    refine ⟨.answer thread (.ok true), rfl, ?_⟩
    simp [ForwarderNetwork.step, facing, answered]

private theorem Linked.leaves (linked : Linked state) (free : state.waiting thread = none)
    (last : state.inside thread = use :: rest) (idle : (state.nodes use.node).threads thread = .idle) :
    Goes state thread := by
  have placed := linked.placed thread
  rw [last] at placed
  obtain ⟨ended, iff, outcomes⟩ := placed.outcomes use.node
  obtain ⟨outcome, rfl⟩ := Option.isSome_iff_exists.mp (iff.mpr ⟨List.mem_cons_self, idle⟩)
  have finished : state.ended thread use.node = some outcome := by
    rw [show state.ended thread use.node = (state.view thread use.node).outcomes.getLast? from rfl, outcomes,
      Option.toList_some, List.getLast?_concat]
  cases rest with
  | nil =>
    refine ⟨.leave thread, rfl, ?_⟩
    simp [ForwarderNetwork.step, free, last, idle, finished]
  | cons below others =>
    obtain ⟨registration, messages, call, _⟩ := (List.isChain_cons_cons.mp placed.chain).1
    have rung := SharedNotifier.run_ringing (linked.run below.node)
    have waiting : ((state.nodes below.node).within thread).isSome := by
      rw [show (state.nodes below.node).within thread = some (registration, messages) from call]
      rfl
    obtain ⟨notifier, answered⟩ := rung.answers waiting (answerOf outcome)
    refine ⟨.leave thread, rfl, ?_⟩
    simp [ForwarderNetwork.step, free, last, idle, finished, answered]

private theorem Linked.goes (linked : Linked state) (free : state.waiting thread = none)
    (busy : state.inside thread ≠ []) :
    Goes state thread := by
  obtain ⟨use, rest, last⟩ := List.exists_cons_of_ne_nil busy
  by_cases idle : (state.nodes use.node).threads thread = .idle
  · exact linked.leaves free last idle
  · rcases (SharedNotifier.run_ringing (linked.run use.node)).goes idle with ⟨notifier, advanced⟩ | ⟨call, within⟩
    · refine ⟨.advance thread, rfl, ?_⟩
      simp [ForwarderNetwork.step, free, last, advanced]
    · exact linked.receives free last within

private theorem Linked.acquires (linked : Linked state) (waits : state.waiting thread = some (node, request))
    (idle : (state.nodes node).threads thread = .idle) :
    Goes state thread ∨ ∃ holder, (state.nodes node).threads holder ≠ .idle := by
  have booked := (SharedNotifier.run_ringing (linked.run node)).valid.toBooked
  have enrolled : ((numbered (state.nodes node).registered request).enroll (state.nodes node).registered).isSome := by
    cases request <;> simp [numbered, SharedNotifier.Request.enroll]
  rcases booked.enters enrolled with ⟨notifier, began⟩ | holder
  · left
    have called : SharedNotifier.step (.call thread (numbered (state.nodes node).registered request)) (state.nodes node) =
        some notifier := by
      rw [← began, SharedNotifier.step, idle]
    refine ⟨.acquire thread, rfl, ?_⟩
    simp [ForwarderNetwork.step, waits, called]
  · exact .inr holder

/-- Nobody is stuck, where the forwarders between notifiers make no circle: at the end of
everything that a thread waits for is somebody who goes on. -/
theorem forwarding_goes (run : Reaches ForwarderNetwork.step (Ranked rank) initial state)
    (busy : state.waiting thread ≠ none ∨ state.inside thread ≠ []) :
    ∃ holder, Relation.ReflTransGen (Waits state) thread holder ∧ Goes state holder := by
  have linked := run_linked run
  have fits := run_fits run
  -- the induction is on the rank of the notifier that the thread waits for
  have blocked : ∀ height thread node request, rank node = height → state.waiting thread = some (node, request) →
      ∃ holder, Relation.ReflTransGen (Waits state) thread holder ∧ Goes state holder := by
    intro height
    induction height using Nat.strong_induction_on with
    | h height ih =>
      intro thread node request same waits
      have placed := linked.placed thread
      rw [waits] at placed
      have lower := fits.lower placed
      have away : node ∉ (state.inside thread).map (·.node) := by
        intro member
        obtain ⟨use, present, here⟩ := List.mem_map.mp member
        have less := lower use present
        rw [here] at less
        exact Nat.lt_irrefl _ less
      rcases linked.acquires waits (placed.outside node away) with goes | ⟨holder, holds⟩
      · exact ⟨thread, .refl, goes⟩
      · have first : Waits state thread holder := ⟨node, request, waits, holds⟩
        have inside : node ∈ (state.inside holder).map (·.node) := by
          by_contra outside
          exact holds ((linked.placed holder).outside node outside)
        cases further : state.waiting holder with
        | none =>
          refine ⟨holder, .single first, linked.goes further ?_⟩
          intro none
          simp [none] at inside
        | some want =>
          obtain ⟨place, asked⟩ := want
          have other := linked.placed holder
          rw [further] at other
          obtain ⟨use, present, here⟩ := List.mem_map.mp inside
          have less := fits.lower other use present
          rw [here, same] at less
          obtain ⟨last, path, goes⟩ := ih (rank place) less holder place asked rfl further
          exact ⟨last, .head first path, goes⟩
  cases waits : state.waiting thread with
  | none =>
    have inside : state.inside thread ≠ [] := by simpa [waits] using busy
    exact ⟨thread, .refl, linked.goes waits inside⟩
  | some want => exact blocked (rank want.1) thread want.1 want.2 rfl waits

/-- A sender comes while the forwarder that it would send to is being registered. -/
def crossing : List (Action Nat) := relay.take 9 ++ [.call 1 0 (.notifyMany [7])]

omit [VecGrowth] in
theorem forwarding_goes_crossing : ∃ state : State Nat, exec (@ForwarderNetwork.step _ .usual) crossing initial = some state ∧
    Waits state 1 0 ∧ ∃ holder, Relation.ReflTransGen (Waits state) 1 holder ∧ @Goes _ .usual state holder := by
  have run : ∃ state : State Nat, exec (@ForwarderNetwork.step _ .usual) crossing initial = some state ∧
      state.waiting 1 = some (0, .notifyMany [7]) ∧ (state.nodes 0).threads 0 = .offering ⟨0, .forwarder 1⟩ :=
    ⟨_, rfl, rfl, rfl⟩
  obtain ⟨state, executed, waits, offering⟩ := run
  have ranked : ∀ action ∈ crossing, ∀ state, Ranked (1 - ·) action state := by
    simp [crossing, relay, Ranked, Below]
  refine ⟨state, executed, ⟨0, _, waits, by simp [offering]⟩, ?_⟩
  apply @forwarding_goes _ _ _ (1 - ·) .usual (Transition.exec_allowed executed ranked)
  left
  simp [waits]

omit [VecGrowth] in
/-- A forwarder back to its own notifier needs the lock that it is called under. -/
example : ∃ state : State Nat, exec (@ForwarderNetwork.step _ .usual)
    [.call 0 0 (.listen ⟨0, .forwarder 0⟩), .acquire 0, .upgrade 0] initial = some state ∧
      @ForwarderNetwork.step _ .usual (.acquire 0) state = none := ⟨_, rfl, rfl⟩

end Progress

end Nosy.ForwarderNetwork
