import Mathlib.Data.List.Chain
import Nosy.ForwarderNetwork
import Nosy.Proofs.SharedNotifierCalls

/-! Where the threads are in a network of forwarding notifiers. What one thread sees of one
notifier is all that its own steps there change, so that each invariant is about one
thread and what it sees. -/

namespace Nosy.ForwarderNetwork
open SharedNotifier (Answer Outcome Record Request Ringing Rings Uses gather turn)
open Transition (Reaches Free exec)

variable {M : Type} {state after : State M} {thread other node source : Nat} {request : Request Target M}
variable {inside rest : List (Use M)} {use : Use M} {visits : List (Visit M)}

/-- The thread has the lock that it was waiting for. -/
def State.begun (state : State M) (thread node : Nat) (asked : Request Target M) (notifier : SharedNotifier.State Target M) :
    State M :=
  { state.put node notifier with
    waiting := Function.update state.waiting thread none
    inside := Function.update state.inside thread (⟨node, asked⟩ :: state.inside thread) }

/-- What each step does, and when it can be taken. -/
inductive Stepped [VecGrowth] (state : State M) : Action M → State M → Prop
  | call {thread node : Nat} {request : Request Target M} : state.waiting thread = none → state.inside thread = [] →
      state.owned node = true → Stepped state (.call thread node request) (state.enter thread node request)
  | forwards {thread source number node : Nat} {messages : List M} :
      state.facing thread = some (source, ⟨number, .forwarder node⟩, messages) → state.alive node = true →
      Stepped state (.upgrade thread) (state.enter thread node (.notifyMany messages))
  | refuses {thread source number node : Nat} {messages : List M} {notifier : SharedNotifier.State Target M} :
      state.facing thread = some (source, ⟨number, .forwarder node⟩, messages) → state.alive node = false →
      SharedNotifier.step (.answer thread (.ok false)) (state.nodes source) = some notifier →
      Stepped state (.upgrade thread) (state.put source notifier)
  | acquire {thread node : Nat} {request : Request Target M} {notifier : SharedNotifier.State Target M} :
      state.waiting thread = some (node, request) →
      SharedNotifier.step (.call thread (numbered (state.nodes node).registered request)) (state.nodes node) = some notifier →
      Stepped state (.acquire thread)
        (state.begun thread node (numbered (state.nodes node).registered request) notifier)
  | advance {thread : Nat} {use : Use M} {rest : List (Use M)} {notifier : SharedNotifier.State Target M} :
      state.waiting thread = none → state.inside thread = use :: rest →
      SharedNotifier.step (.advance thread) (state.nodes use.node) = some notifier →
      Stepped state (.advance thread) (state.put use.node notifier)
  | answer {thread source number id : Nat} {messages : List M} {answer : Answer} {notifier : SharedNotifier.State Target M} :
      state.facing thread = some (source, ⟨number, .other id⟩, messages) →
      SharedNotifier.step (.answer thread answer) (state.nodes source) = some notifier →
      Stepped state (.answer thread answer) (state.put source notifier)
  | exit {thread : Nat} {use : Use M} {outcome : Outcome} : state.waiting thread = none → state.inside thread = [use] →
      (state.nodes use.node).threads thread = .idle → state.ended thread use.node = some outcome →
      Stepped state (.leave thread) (state.exit thread use [] outcome)
  | back {thread : Nat} {use below : Use M} {others : List (Use M)} {outcome : Outcome}
      {notifier : SharedNotifier.State Target M} : state.waiting thread = none →
      state.inside thread = use :: below :: others → (state.nodes use.node).threads thread = .idle →
      state.ended thread use.node = some outcome →
      SharedNotifier.step (.answer thread (answerOf outcome)) (state.nodes below.node) = some notifier →
      Stepped state (.leave thread) ((state.exit thread use (below :: others) outcome).put below.node notifier)
  | drop {node : Nat} : state.owned node = true →
      Stepped state (.drop node) { state with owned := Function.update state.owned node false }

theorem step_cases [VecGrowth] {action : Action M} (stepped : step action state = some after) :
    Stepped state action after := by
  cases action with
  | call thread node request =>
    simp only [step] at stepped
    split at stepped
    next free outside =>
      split at stepped
      next owned =>
        cases stepped
        exact .call free outside owned
      · cases stepped
    · cases stepped
  | upgrade thread =>
    simp only [step] at stepped
    split at stepped
    next source number node messages facing =>
      split at stepped
      next alive =>
        cases stepped
        exact .forwards facing alive
      next gone =>
        obtain ⟨notifier, answered, rfl⟩ := Option.map_eq_some_iff.mp stepped
        exact .refuses facing (Bool.eq_false_iff.mpr gone) answered
    · cases stepped
  | acquire thread =>
    simp only [step] at stepped
    split at stepped
    next node request waits =>
      obtain ⟨notifier, called, rfl⟩ := Option.map_eq_some_iff.mp stepped
      exact .acquire waits called
    · cases stepped
  | advance thread =>
    simp only [step] at stepped
    split at stepped
    next use rest free last =>
      obtain ⟨notifier, advanced, rfl⟩ := Option.map_eq_some_iff.mp stepped
      exact .advance free last advanced
    · cases stepped
  | answer thread answer =>
    simp only [step] at stepped
    split at stepped
    next source number id messages facing =>
      obtain ⟨notifier, answered, rfl⟩ := Option.map_eq_some_iff.mp stepped
      exact .answer facing answered
    · cases stepped
  | leave thread =>
    simp only [step] at stepped
    split at stepped
    next use rest free last =>
      split at stepped
      next outcome idle ended =>
        cases stepped
        exact .exit free last idle ended
      next outcome below others idle ended =>
        obtain ⟨notifier, answered, rfl⟩ := Option.map_eq_some_iff.mp stepped
        exact .back free last idle ended answered
      · cases stepped
    · cases stepped
  | drop node =>
    simp only [step] at stepped
    split at stepped
    next owned =>
      cases stepped
      exact .drop owned
    · cases stepped

/-- What a thread has to do with a notifier. -/
structure View (M : Type) where
  call : Option (Registration Target × List M)
  phase : SharedNotifier.Phase Target M
  requests : List (Request Target M)
  outcomes : List Outcome
  replies : List ((Registration Target × List M) × Answer)

def viewOf (notifier : SharedNotifier.State Target M) (thread : Nat) : View M where
  call := notifier.within thread
  phase := notifier.threads thread
  requests := gather (fun record => [record.request]) thread notifier.history
  outcomes := gather (·.outcome.toList) thread notifier.history
  replies := gather Record.replies thread notifier.history

def State.view (state : State M) (thread node : Nat) : View M := viewOf (state.nodes node) thread

/-- What one step of the thread changes. -/
structure Turned (requests : List (Request Target M)) (heard : List Answer) (before after : View M) : Prop where
  turns : SharedNotifier.Turns heard before.call after.call
  asks : after.call.isSome = after.phase.asks
  requests : after.requests = before.requests ++ requests
  outcomes : ∃ ended : Option Outcome, (ended.isSome ↔ after.phase = .idle) ∧
    after.outcomes = before.outcomes ++ ended.toList
  replies : after.replies = before.replies ++ before.call.toList.zip heard

section Views
variable [VecGrowth] {action : SharedNotifier.Action Target M} {notifier next : SharedNotifier.State Target M}

private theorem turned (rung : Ringing notifier) (stepped : SharedNotifier.step action notifier = some next) :
    Turned action.requests (turn action).2 (viewOf notifier (turn action).1) (viewOf next (turn action).1) := by
  obtain ⟨still, rings⟩ := rung.step stepped
  obtain ⟨requests, ended, idle, outcomes⟩ := SharedNotifier.step_uses rung.valid.toBooked stepped
  constructor
  · exact rings.turns
  · exact still.waits _
  · simpa [viewOf] using requests (turn action).1
  · exact ⟨ended, idle, by simpa [viewOf] using outcomes (turn action).1⟩
  · simpa [viewOf] using rings.replies (turn action).1

private theorem view_elsewhere (rung : Ringing notifier) (stepped : SharedNotifier.step action notifier = some next)
    (different : other ≠ (turn action).1) : viewOf next other = viewOf notifier other := by
  obtain ⟨_, rings⟩ := rung.step stepped
  obtain ⟨requests, ended, _, outcomes⟩ := SharedNotifier.step_uses rung.valid.toBooked stepped
  have same := requests other
  have ends := outcomes other
  have replies := rings.replies other
  simp only [different, if_false, List.append_nil] at same ends replies
  simp only [viewOf, rings.elsewhere other different, rings.threads other different, same, ends, replies]

end Views

/-- The thread is in `receive` of a forwarder to this node. -/
def Called (view : View M) (node : Nat) (request : Request Target M) : Prop :=
  ∃ registration messages, view.call = some (registration, messages) ∧ registration.listener = .forwarder node ∧
    request = .notifyMany messages

def Calls (view : Nat → View M) (upper lower : Use M) : Prop := Called (view lower.node) upper.node upper.request

/-- The uses that a thread is in call one another, and it is in no other. -/
structure Placed (view : Nat → View M) (waiting : Option (Nat × Request Target M)) (inside : List (Use M))
    (visits : List (Visit M)) : Prop where
  asks : ∀ node, (view node).call.isSome = (view node).phase.asks
  distinct : (inside.map (·.node)).Nodup
  outside : ∀ node, node ∉ inside.map (·.node) → (view node).phase = .idle
  chain : inside.IsChain (Calls view)
  waits : ∀ node request, waiting = some (node, request) → ∀ use ∈ inside.head?, Called (view use.node) node request
  requests : ∀ node, (view node).requests = (visits.filter (·.node = node)).map (·.request) ++
    (inside.filter (·.node = node)).map (·.request)
  outcomes : ∀ node, ∃ ended : Option Outcome, (ended.isSome ↔ node ∈ inside.map (·.node) ∧ (view node).phase = .idle) ∧
    (view node).outcomes = (visits.filter (·.node = node)).map (·.outcome) ++ ended.toList

section Placed
variable {view next : Nat → View M} {waiting : Option (Nat × Request Target M)}

private theorem Called.busy {seen : View M} (called : Called seen node request)
    (asks : seen.call.isSome = seen.phase.asks) :
    seen.phase ≠ .idle := by
  obtain ⟨registration, messages, call, _⟩ := called
  intro idle
  rw [call, idle] at asks
  cases asks

/-- Whoever waits is in `receive` everywhere below. -/
private theorem Placed.busy {upper : Nat} {asked : Request Target M} (placed : Placed view waiting inside visits)
    (called : ∀ use ∈ inside.head?, Called (view use.node) upper asked) :
    ∀ use ∈ inside, (view use.node).phase ≠ .idle := by
  have chain := placed.chain
  revert called
  generalize inside = uses at chain
  intro called use member
  induction uses generalizing upper asked with
  | nil => cases member
  | cons top uses ih =>
    rw [List.isChain_cons] at chain
    rcases List.mem_cons.mp member with rfl | below
    · exact (called use rfl).busy (placed.asks use.node)
    · exact ih chain.2 chain.1 below

private theorem chain_elsewhere (chain : (use :: rest).IsChain (Calls view))
    (same : ∀ lower ∈ rest, next lower.node = view lower.node) : (use :: rest).IsChain (Calls next) := by
  induction rest generalizing use with
  | nil => exact .singleton use
  | cons below rest ih =>
    rw [List.isChain_cons_cons] at chain ⊢
    refine ⟨?_, ih chain.2 fun lower member => same lower (List.mem_cons_of_mem _ member)⟩
    rw [Calls, same below List.mem_cons_self]
    exact chain.1

private theorem Placed.turn {heard : List Answer} (placed : Placed view none (use :: rest) visits)
    (busy : (view use.node).phase ≠ .idle) (turned : Turned [] heard (view use.node) (next use.node))
    (elsewhere : ∀ node, node ≠ use.node → next node = view node) : Placed next none (use :: rest) visits := by
  have fresh : use.node ∉ rest.map (·.node) := (List.nodup_cons.mp placed.distinct).1
  constructor
  · intro node
    by_cases here : node = use.node
    · rw [here]
      exact turned.asks
    · rw [elsewhere node here]
      exact placed.asks node
  · exact placed.distinct
  · intro node apart
    have here : node ≠ use.node := by
      rintro rfl
      exact apart List.mem_cons_self
    rw [elsewhere node here]
    exact placed.outside node apart
  · apply chain_elsewhere placed.chain
    intro lower member
    apply elsewhere
    intro same
    exact fresh (same ▸ List.mem_map_of_mem member)
  · intro node request impossible
    cases impossible
  · intro node
    rw [← placed.requests node]
    by_cases here : node = use.node
    · rw [here, turned.requests, List.append_nil]
    · rw [elsewhere node here]
  · intro node
    obtain ⟨ended, iff, outcomes⟩ := placed.outcomes node
    by_cases here : node = use.node
    · subst here
      have unended : ended = none := by simpa [busy] using iff
      obtain ⟨now, idle, grown⟩ := turned.outcomes
      refine ⟨now, by simp [idle], ?_⟩
      rw [grown, outcomes, unended, Option.toList_none, List.append_nil]
    · refine ⟨ended, ?_, ?_⟩
      · rw [elsewhere node here]
        exact iff
      · rw [elsewhere node here]
        exact outcomes

private theorem Placed.enter {asked : Request Target M} (placed : Placed view (some (node, request)) inside visits)
    (idle : (view node).phase = .idle) (turned : Turned [asked] [] (view node) (next node))
    (same : ∀ messages, request = .notifyMany messages → asked = .notifyMany messages)
    (elsewhere : ∀ other, other ≠ node → next other = view other) :
    Placed next none (⟨node, asked⟩ :: inside) visits := by
  have calling := placed.waits node request rfl
  have apart : ∀ use ∈ inside, use.node ≠ node := by
    intro use member here
    have busy := placed.busy calling use member
    rw [here] at busy
    exact busy idle
  have fresh : node ∉ inside.map (·.node) := by
    intro member
    obtain ⟨use, present, here⟩ := List.mem_map.mp member
    exact apart use present here
  have unused : inside.filter (·.node = node) = [] := by simpa [List.filter_eq_nil_iff] using apart
  constructor
  · intro other
    by_cases here : other = node
    · rw [here]
      exact turned.asks
    · rw [elsewhere other here]
      exact placed.asks other
  · exact List.nodup_cons.mpr ⟨fresh, placed.distinct⟩
  · intro other away
    rw [List.map_cons, List.mem_cons, not_or] at away
    rw [elsewhere other away.1]
    exact placed.outside other away.2
  · cases inside with
    | nil => exact .singleton _
    | cons use rest =>
      obtain ⟨registration, messages, call, target, asks⟩ := calling use rfl
      rw [List.isChain_cons_cons]
      constructor
      · refine ⟨registration, messages, ?_, target, same messages asks⟩
        rw [elsewhere use.node (apart use List.mem_cons_self)]
        exact call
      · apply chain_elsewhere placed.chain
        intro lower member
        exact elsewhere lower.node (apart lower (List.mem_cons_of_mem _ member))
  · intro other request impossible
    cases impossible
  · intro other
    by_cases here : other = node
    · subst here
      rw [turned.requests, placed.requests]
      simp [unused]
    · rw [elsewhere other here, placed.requests]
      simp [Ne.symm here]
  · intro other
    obtain ⟨ended, iff, outcomes⟩ := placed.outcomes other
    by_cases here : other = node
    · subst here
      have unended : ended = none := by
        rw [← Option.not_isSome_iff_eq_none, iff]
        exact fun both => fresh both.1
      obtain ⟨now, idle, grown⟩ := turned.outcomes
      refine ⟨now, by simp [idle], ?_⟩
      rw [grown, outcomes, unended, Option.toList_none, List.append_nil]
    · refine ⟨ended, ?_, ?_⟩
      · rw [elsewhere other here, iff]
        simp [here]
      · rw [elsewhere other here]
        exact outcomes

private theorem Placed.leave {outcome : Outcome} (placed : Placed view none (use :: rest) visits)
    (ended : (view use.node).outcomes.getLast? = some outcome) (idle : (view use.node).phase = .idle)
    (from_ : Option Nat) : Placed view none rest (visits ++ [⟨from_, use.node, use.request, outcome⟩]) := by
  have fresh : use.node ∉ rest.map (·.node) := (List.nodup_cons.mp placed.distinct).1
  constructor
  · exact placed.asks
  · exact (List.nodup_cons.mp placed.distinct).2
  · intro node apart
    by_cases here : node = use.node
    · rw [here]
      exact idle
    · apply placed.outside node
      rw [List.map_cons, List.mem_cons, not_or]
      exact ⟨here, apart⟩
  · exact placed.chain.tail
  · intro node request impossible
    cases impossible
  · intro node
    rw [placed.requests node]
    by_cases here : use.node = node
    · subst here
      have unused : rest.filter (·.node = use.node) = [] := by
        rw [List.filter_eq_nil_iff]
        intro lower member same
        exact fresh (decide_eq_true_iff.mp same ▸ List.mem_map_of_mem member)
      simp [unused]
    · simp [here]
  · intro node
    obtain ⟨before, iff, outcomes⟩ := placed.outcomes node
    by_cases here : use.node = node
    · subst here
      obtain ⟨last, rfl⟩ := Option.isSome_iff_exists.mp (iff.mpr ⟨List.mem_cons_self, idle⟩)
      rw [outcomes, Option.toList_some, List.getLast?_concat] at ended
      cases ended
      refine ⟨none, ?_, by simp [outcomes]⟩
      simp only [Option.isSome_none, Bool.false_eq_true, false_iff]
      exact fun both => fresh both.1
    · refine ⟨before, ?_, ?_⟩
      · rw [iff]
        simp [Ne.symm here]
      · rw [outcomes]
        simp [here]

end Placed

/-- What the forwarders have returned is what became of the uses that they were for. -/
def Replied (view : Nat → View M) (visits : List (Visit M)) : Prop :=
  ∀ node target, forwarded target (view node).replies =
    (visits.filter fun visit => visit.source = some node ∧ visit.node = target).map fun visit =>
      (visit.request, answerOf visit.outcome)

private theorem forwarded_append (target : Nat) (replies : List ((Registration Target × List M) × Answer))
    (registration : Registration Target) (messages : List M) (answer : Answer) :
    forwarded target (replies ++ [((registration, messages), answer)]) = forwarded target replies ++
      if registration.listener = .forwarder target ∧ answer.refuses = false then [(.notifyMany messages, answer)] else [] := by
  by_cases here : registration.listener = .forwarder target <;> cases refuses : answer.refuses <;>
    simp [forwarded, here, refuses]

private theorem answerOf_accepts (outcome : Outcome) : (answerOf outcome).refuses = false := by
  rcases outcome with failure | value
  · cases failure <;> rfl
  · rfl

/-- Each notifier is in a run of its own. -/
def Run [VecGrowth] (state : State M) : Prop :=
  ∀ node, Reaches SharedNotifier.step Free SharedNotifier.initial (state.nodes node)

structure Linked [VecGrowth] (state : State M) : Prop where
  run : Run state
  placed : ∀ thread, Placed (state.view thread) (state.waiting thread) (state.inside thread) (state.visits thread)
  replied : ∀ thread, Replied (state.view thread) (state.visits thread)

/-- One thread takes a step in one notifier. -/
structure Moved [VecGrowth] (state after : State M) (thread node : Nat) (requests : List (Request Target M))
    (heard : List Answer) : Prop where
  run : Run after
  others : ∀ other, other ≠ thread → after.view other = state.view other
  elsewhere : ∀ other, other ≠ node → after.view thread other = state.view thread other
  turned : Turned requests heard (state.view thread node) (after.view thread node)

section Steps
variable [VecGrowth]

private theorem Linked.moved {action : SharedNotifier.Action Target M} {notifier : SharedNotifier.State Target M}
    (linked : Linked state) (stepped : SharedNotifier.step action (state.nodes node) = some notifier)
    (nodes : after.nodes = Function.update state.nodes node notifier) :
    Moved state after (turn action).1 node action.requests (turn action).2 := by
  have rung := SharedNotifier.run_ringing (linked.run node)
  constructor
  · rw [Run, nodes]
    apply (Function.forall_update_iff state.nodes fun _ => Reaches SharedNotifier.step Free SharedNotifier.initial).mpr
    exact ⟨(linked.run node).snoc trivial stepped, fun other _ => linked.run other⟩
  · intro other different
    funext place
    rw [State.view, State.view, nodes]
    by_cases here : place = node
    · rw [here, Function.update_self]
      exact view_elsewhere rung stepped different
    · rw [Function.update_of_ne here]
  · intro other different
    rw [State.view, State.view, nodes, Function.update_of_ne different]
  · rw [State.view, State.view, nodes, Function.update_self]
    exact turned rung stepped

private theorem Linked.of (linked : Linked state) (run : Run after)
    (others : ∀ other, other ≠ thread → after.view other = state.view other ∧ after.waiting other = state.waiting other ∧
      after.inside other = state.inside other ∧ after.visits other = state.visits other)
    (placed : Placed (after.view thread) (after.waiting thread) (after.inside thread) (after.visits thread))
    (replied : Replied (after.view thread) (after.visits thread)) : Linked after := by
  constructor
  · exact run
  · intro other
    by_cases own : other = thread
    · rw [own]
      exact placed
    · obtain ⟨view, waiting, inside, visits⟩ := others other own
      rw [view, waiting, inside, visits]
      exact linked.placed other
  · intro other
    by_cases own : other = thread
    · rw [own]
      exact replied
    · obtain ⟨view, _, _, visits⟩ := others other own
      rw [view, visits]
      exact linked.replied other

private theorem Moved.keeps {requests : List (Request Target M)} {heard : List Answer}
    (moved : Moved state after thread node requests heard) (replied : Replied (state.view thread) visits)
    (silent : ∀ answer call, heard = [answer] → (state.view thread node).call = some call →
      answer.refuses = true ∨ ∀ target, call.1.listener ≠ .forwarder target) : Replied (after.view thread) visits := by
  intro place target
  rw [← replied place target]
  by_cases here : place = node
  · subst here
    rw [moved.turned.replies]
    rcases moved.turned.turns with ⟨rfl, none⟩ | ⟨answer, ⟨registration, messages⟩, rfl, call, _⟩
    · rw [none, Option.toList_none, List.zip_nil_left, List.append_nil]
    · rw [call]
      refine (forwarded_append target _ registration messages answer).trans ?_
      rcases silent answer _ rfl call with refuses | different
      · simp [refuses]
      · simp [different target]
  · rw [moved.elsewhere place here]

omit [VecGrowth] in
private theorem facing_some {call : Registration Target × List M} (facing : state.facing thread = some (source, call)) :
    state.waiting thread = none ∧ ∃ use rest, state.inside thread = use :: rest ∧ use.node = source ∧
      (state.view thread source).call = some call := by
  unfold State.facing at facing
  split at facing
  next use rest waiting inside =>
    obtain ⟨found, call, same⟩ := Option.map_eq_some_iff.mp facing
    cases same
    exact ⟨waiting, use, rest, inside, rfl, call⟩
  · cases facing

omit [VecGrowth] in
private theorem Placed.await {view : Nat → View M} (placed : Placed view none inside visits)
    (called : ∀ use ∈ inside.head?, Called (view use.node) node request) :
    Placed view (some (node, request)) inside visits := by
  refine { placed with waits := ?_ }
  intro other asked same
  cases same
  exact called

private theorem Linked.enter (linked : Linked state) (free : state.waiting thread = none)
    (called : ∀ use ∈ (state.inside thread).head?, Called (state.view thread use.node) node request) :
    Linked (state.enter thread node request) := by
  have placed := linked.placed thread
  rw [free] at placed
  have run : Run (state.enter thread node request) := linked.run
  apply linked.of run
  · intro other different
    exact ⟨rfl, Function.update_of_ne different _ _, rfl, rfl⟩
  · simp only [State.enter, Function.update_self]
    exact placed.await called
  · exact linked.replied thread

private theorem Linked.turn {action : SharedNotifier.Action Target M} {notifier : SharedNotifier.State Target M}
    (linked : Linked state) (free : state.waiting thread = none) (last : state.inside thread = use :: rest)
    (stepped : SharedNotifier.step action (state.nodes use.node) = some notifier) (own : (SharedNotifier.turn action).1 = thread)
    (goes : action.requests = []) (busy : (state.view thread use.node).phase ≠ .idle)
    (silent : ∀ answer call, (SharedNotifier.turn action).2 = [answer] → (state.view thread use.node).call = some call →
      answer.refuses = true ∨ ∀ target, call.1.listener ≠ .forwarder target) : Linked (state.put use.node notifier) := by
  have moved : Moved state (state.put use.node notifier) (SharedNotifier.turn action).1 use.node action.requests
    (SharedNotifier.turn action).2 := linked.moved stepped rfl
  rw [own, goes] at moved
  have placed := linked.placed thread
  rw [free, last] at placed
  apply linked.of moved.run
  · intro other different
    exact ⟨moved.others other different, rfl, rfl, rfl⟩
  · rw [State.put, free, last]
    exact placed.turn busy moved.turned moved.elsewhere
  · exact moved.keeps (linked.replied thread) silent

private theorem Linked.acquire {notifier : SharedNotifier.State Target M} {asked : Request Target M}
    (linked : Linked state)
    (waits : state.waiting thread = some (node, request))
    (stepped : SharedNotifier.step (.call thread asked) (state.nodes node) = some notifier)
    (same : ∀ messages, request = .notifyMany messages → asked = .notifyMany messages) :
    Linked (state.begun thread node asked notifier) := by
  have moved : Moved state (state.begun thread node asked notifier) thread node [asked] [] := linked.moved stepped rfl
  have placed := linked.placed thread
  rw [waits] at placed
  have idle : (state.view thread node).phase = .idle := SharedNotifier.call_idle stepped
  apply linked.of moved.run
  · intro other different
    exact ⟨moved.others other different, Function.update_of_ne different _ _, Function.update_of_ne different _ _, rfl⟩
  · simp only [State.begun, Function.update_self]
    exact placed.enter idle moved.turned same moved.elsewhere
  · refine moved.keeps (linked.replied thread) ?_
    intro answer call heard
    cases heard

private theorem Linked.exit {outcome : Outcome} (linked : Linked state) (free : state.waiting thread = none)
    (last : state.inside thread = [use]) (idle : (state.nodes use.node).threads thread = .idle)
    (ended : state.ended thread use.node = some outcome) : Linked (state.exit thread use [] outcome) := by
  have placed := linked.placed thread
  rw [free, last] at placed
  have run : Run (state.exit thread use [] outcome) := linked.run
  apply linked.of run
  · intro other different
    exact ⟨rfl, rfl, Function.update_of_ne different _ _, Function.update_of_ne different _ _⟩
  · simp only [State.exit, free, Function.update_self]
    exact placed.leave ended idle none
  · intro place target
    refine (linked.replied thread place target).trans ?_
    simp [State.exit]

/-- A use is over, and the forwarder that it was for returns. -/
private theorem Linked.back {below : Use M} {others : List (Use M)} {outcome : Outcome}
    {notifier : SharedNotifier.State Target M}
    (linked : Linked state) (free : state.waiting thread = none) (last : state.inside thread = use :: below :: others)
    (idle : (state.nodes use.node).threads thread = .idle) (ended : state.ended thread use.node = some outcome)
    (stepped : SharedNotifier.step (.answer thread (answerOf outcome)) (state.nodes below.node) = some notifier) :
    Linked ((state.exit thread use (below :: others) outcome).put below.node notifier) := by
  have moved : Moved state ((state.exit thread use (below :: others) outcome).put below.node notifier) thread below.node []
    [answerOf outcome] := linked.moved stepped rfl
  have placed := linked.placed thread
  rw [free, last] at placed
  have calls := (List.isChain_cons_cons.mp placed.chain).1
  have left := placed.leave ended idle (some below.node)
  apply linked.of moved.run
  · intro other different
    exact ⟨moved.others other different, rfl, Function.update_of_ne different _ _, Function.update_of_ne different _ _⟩
  · simp only [State.put, State.exit, free, Function.update_self]
    exact left.turn (calls.busy (placed.asks below.node)) moved.turned moved.elsewhere
  · intro place target
    obtain ⟨registration, messages, call, listener, asked⟩ := calls
    simp only [State.put, State.exit, Function.update_self, List.filter_append, List.map_append]
    rw [← linked.replied thread place target]
    by_cases here : place = below.node
    · subst here
      refine (congrArg (forwarded target) moved.turned.replies).trans ?_
      rw [call]
      refine (forwarded_append target _ registration messages (answerOf outcome)).trans ?_
      rw [listener, answerOf_accepts, asked]
      by_cases same : use.node = target
      · simp [same]
      · simp [same]
    · refine (congrArg (fun seen => forwarded target seen.replies) (moved.elsewhere place here)).trans ?_
      simp [Ne.symm here]

omit [VecGrowth] in
private theorem numbered_send (registered : Nat) (request : Request Target M) (messages : List M)
    (sends : request = .notifyMany messages) : numbered registered request = .notifyMany messages := by
  rw [sends]
  rfl

theorem Linked.step {action : Action M} (linked : Linked state) (stepped : ForwarderNetwork.step action state = some after) :
    Linked after := by
  cases step_cases stepped with
  | call free outside _ =>
    apply linked.enter free
    rw [outside]
    intro use impossible
    cases impossible
  | @forwards thread source number node messages facing _ =>
    obtain ⟨free, use, rest, last, rfl, call⟩ := facing_some facing
    apply linked.enter free
    rw [last]
    intro lower same
    cases same
    exact ⟨_, messages, call, rfl, rfl⟩
  | @refuses thread source number node messages notifier facing _ answered =>
    obtain ⟨free, use, rest, last, rfl, call⟩ := facing_some facing
    apply linked.turn free last answered rfl rfl
    · exact Called.busy ⟨_, messages, call, rfl, rfl⟩ ((linked.placed thread).asks use.node)
    · intro answer _ heard _
      cases heard
      exact .inl rfl
  | acquire waits called => exact linked.acquire waits called (numbered_send _ _)
  | advance free last advanced =>
    apply linked.turn free last advanced rfl rfl
    · exact SharedNotifier.advance_busy advanced
    · intro answer _ heard
      cases heard
  | @answer thread source number id messages answer notifier facing answered =>
    obtain ⟨free, use, rest, last, rfl, call⟩ := facing_some facing
    apply linked.turn free last answered rfl rfl
    · intro idle
      have asks := (linked.placed thread).asks use.node
      rw [call, idle] at asks
      cases asks
    · intro _ other _ same
      rw [call] at same
      cases same
      exact .inr fun target => Target.noConfusion
  | exit free last idle ended => exact linked.exit free last idle ended
  | back free last idle ended answered => exact linked.back free last idle ended answered
  | drop _ => exact ⟨linked.run, linked.placed, linked.replied⟩

private theorem linked_initial : Linked (initial : State M) := by
  refine ⟨fun _ => .refl, ?_, ?_⟩
  · intro thread
    constructor
    · intro node
      rfl
    · exact List.nodup_nil
    · intro node _
      rfl
    · exact .nil
    · intro node request impossible
      cases impossible
    · intro node
      rfl
    · intro node
      exact ⟨none, by simp [initial], rfl⟩
  · intro thread node target
    rfl

theorem run_linked {allowed : Action M → State M → Prop} (run : Reaches ForwarderNetwork.step allowed initial state) :
    Linked state :=
  run.invariant (fun _ _ _ _ stepped linked => linked.step stepped) linked_initial

/-- Whatever holds of a shared notifier holds of each one in the network. A thread's uses
of one are its visits there, in their order, and then the one that it is in; what a
forwarder has returned, or panicked with, is what became of the visit that it was for. So
no batch is forwarded twice or lost on the way. -/
theorem forwards_conserve (run : Reaches ForwarderNetwork.step Free initial state) :
    (∀ node, Reaches SharedNotifier.step Free SharedNotifier.initial (state.nodes node)) ∧
    (∀ thread node, gather (fun record => [record.request]) thread (state.nodes node).history =
      ((state.visits thread).filter (·.node = node)).map (·.request) ++
        ((state.inside thread).filter (·.node = node)).map (·.request)) ∧
    (∀ thread node, (∀ use ∈ state.inside thread, use.node ≠ node) →
      gather (·.outcome.toList) thread (state.nodes node).history =
        ((state.visits thread).filter (·.node = node)).map (·.outcome)) ∧
    ∀ thread source target, forwarded target (gather Record.replies thread (state.nodes source).history) =
      ((state.visits thread).filter fun visit => visit.source = some source ∧ visit.node = target).map fun visit =>
        (visit.request, answerOf visit.outcome) := by
  have linked := run_linked run
  refine ⟨linked.run, fun thread => (linked.placed thread).requests, ?_, linked.replied⟩
  intro thread node outside
  obtain ⟨ended, iff, outcomes⟩ := (linked.placed thread).outcomes node
  have away : node ∉ (state.inside thread).map (·.node) := by
    intro member
    obtain ⟨use, present, here⟩ := List.mem_map.mp member
    exact outside use present here
  have unended : ended = none := by
    rw [← Option.not_isSome_iff_eq_none, iff]
    exact fun both => away both.1
  simpa [State.view, viewOf, unended] using outcomes

/-- A listener of one notifier, a forwarder to it from another, and a send through both. -/
def relay : List (Action Nat) :=
  [.call 0 1 (.listen ⟨0, .other 5⟩), .acquire 0, .answer 0 (.ok true), .advance 0, .advance 0, .leave 0,
    .call 0 0 (.listen ⟨0, .forwarder 1⟩), .acquire 0, .upgrade 0, .acquire 0, .advance 0, .answer 0 (.ok true),
    .advance 0, .advance 0, .leave 0, .advance 0, .advance 0, .leave 0,
    .call 1 0 (.notifyMany [7]), .acquire 1, .advance 1, .upgrade 1, .acquire 1, .advance 1, .answer 1 (.ok true),
    .advance 1, .advance 1, .leave 1, .advance 1, .advance 1, .leave 1]

omit [VecGrowth] in
theorem forwards_conserve_relay : ∃ state : State Nat, exec (@ForwarderNetwork.step _ .usual) relay initial = some state ∧
    gather (fun record => [record.request]) 1 (state.nodes 1).history = [.notifyMany [7]] ∧
      forwarded 1 (gather Record.replies 1 (state.nodes 0).history) = [(.notifyMany [7], .ok true)] := by
  have run : ∃ state : State Nat, exec (@ForwarderNetwork.step _ .usual) relay initial = some state ∧
      state.inside 1 = [] ∧
      state.visits 1 = [⟨some 0, 1, .notifyMany [7], .ok none⟩, ⟨none, 0, .notifyMany [7], .ok none⟩] := ⟨_, rfl, rfl, rfl⟩
  obtain ⟨state, executed, outside, visits⟩ := run
  obtain ⟨_, requests, _, replies⟩ := @forwards_conserve _ _ .usual (Transition.exec_reaches executed)
  refine ⟨state, executed, ?_, ?_⟩
  · rw [requests, outside, visits]
    rfl
  · rw [replies, visits]
    rfl

end Steps

end Nosy.ForwarderNetwork
