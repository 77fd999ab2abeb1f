import Nosy.Proofs.NotifierTable
import Nosy.SharedNotifier

/-! What a method does alone when the listeners answer by a script: for a send, the
flags it leaves; for a writer, that each of its accesses is a step of the function. -/

namespace Nosy.SharedNotifier
open EStateM (Result)
open RetainSwap (retain swapRemove)

variable {ι M W L : Type}

theorem answer_cases (answer : Answer) : (∃ message, answer = .error message) ∨ answer = .ok true ∨ answer = .ok false := by
  rcases answer with message | alive
  · exact .inl ⟨message, rfl⟩
  · cases alive
    · exact .inr (.inr rfl)
    · exact .inr (.inl rfl)

theorem answers_cases (answers : List Answer) : answers = [] ∨ (∃ message rest, answers = .error message :: rest) ∨
    (∃ rest, answers = .ok true :: rest) ∨ ∃ rest, answers = .ok false :: rest := by
  cases answers with
  | nil => exact .inl rfl
  | cons answer rest =>
    right
    rcases answer_cases answer with ⟨message, rfl⟩ | rfl | rfl
    · exact .inl ⟨message, rest, rfl⟩
    · exact .inr (.inl ⟨rest, rfl⟩)
    · exact .inr (.inr ⟨rest, rfl⟩)

/-- The answers stored in the flags of the first entries. -/
def marks : List Bool → List (NotifierEntry L) → List (NotifierEntry L)
  | alive :: told, entry :: entries => entry.fetchAnd alive :: marks told entries
  | _, entries => entries

def marked (told : List Bool) (raw : RawNotifier (Registration ι)) : RawNotifier (Registration ι) :=
  { raw with listeners := marks told raw.listeners }

def members (raw : RawNotifier (Registration ι)) : List (Registration ι) := raw.listeners.map (·.listener)

/-- The calls of a send that has reached this many entries. -/
def callsOf (messages : List M) (count : Nat) (raw : RawNotifier (Registration ι)) :
    List (Registration ι × List M) := ((members raw).take count).map fun registration => (registration, messages)

theorem marks_nil (entries : List (NotifierEntry L)) : marks [] entries = entries := by
  unfold marks
  rfl

private theorem fetchAnd_comm (entry : NotifierEntry L) (first second : Bool) :
    (entry.fetchAnd first).fetchAnd second = (entry.fetchAnd second).fetchAnd first := by
  simp only [NotifierEntry.fetchAnd, Bool.and_right_comm]

private theorem marks_listeners (told : List Bool) (entries : List (NotifierEntry L)) :
    (marks told entries).map (·.listener) = entries.map (·.listener) := by
  induction told generalizing entries with
  | nil => rw [marks_nil]
  | cons alive told ih =>
    cases entries with
    | nil => rfl
    | cons entry entries => simp [marks, ih]

private theorem marks_snoc (told : List Bool) (alive : Bool) (entries : List (NotifierEntry L)) :
    marks (told ++ [alive]) entries = (marks told entries).modify told.length (·.fetchAnd alive) := by
  induction told generalizing entries with
  | nil => cases entries <;> simp [marks]
  | cons first told ih =>
    cases entries with
    | nil => simp [marks]
    | cons entry entries => simp [marks, ih]

private theorem marks_modify (told : List Bool) (index : Nat) (alive : Bool) (entries : List (NotifierEntry L)) :
    marks told (entries.modify index (·.fetchAnd alive)) =
      (marks told entries).modify index (·.fetchAnd alive) := by
  induction told generalizing entries index with
  | nil => rw [marks_nil, marks_nil]
  | cons first told ih =>
    cases entries with
    | nil => simp [marks]
    | cons entry entries =>
      cases index with
      | zero => simp [marks, fetchAnd_comm]
      | succ index => simp [marks, ih]

theorem members_marked (told : List Bool) (raw : RawNotifier (Registration ι)) :
    members (marked told raw) = members raw := marks_listeners told raw.listeners

theorem members_mark (index : Nat) (alive : Bool) (raw : RawNotifier (Registration ι)) :
    members (mark index alive raw) = members raw := by
  apply List.ext_getElem?
  intro position
  simp only [members, mark, List.getElem?_map, List.getElem?_modify]
  split
  · cases raw.listeners[position]? <;> rfl
  · simp

theorem mark_marked (told : List Bool) (index : Nat) (alive : Bool) (raw : RawNotifier (Registration ι)) :
    marked told (mark index alive raw) = mark index alive (marked told raw) := by
  simp only [marked, mark, marks_modify]

theorem marked_snoc (told : List Bool) (alive : Bool) (raw : RawNotifier (Registration ι)) :
    marked (told ++ [alive]) raw = mark told.length alive (marked told raw) := by
  simp only [marked, mark, marks_snoc]

theorem deliver_modify (receive : Receive M L W) (messages : List M) (index : Nat) (alive : Bool)
    (entries : List (NotifierEntry L)) (world : W) :
    RawNotifier.deliver receive messages (entries.modify index (·.fetchAnd alive)) world =
      ((RawNotifier.deliver receive messages entries world).1.modify index (·.fetchAnd alive),
        (RawNotifier.deliver receive messages entries world).2) := by
  induction entries generalizing index world with
  | nil => simp [RawNotifier.deliver]
  | cons entry entries ih =>
    cases index with
    | zero =>
      simp only [List.modify_zero_cons, RawNotifier.deliver, RawNotifier.fetchAnd_listener]
      cases receive entry.listener messages world with
      | error failure after => simp
      | ok answer after => simp [fetchAnd_comm]
    | succ index =>
      simp only [List.modify_succ_cons, RawNotifier.deliver]
      cases receive entry.listener messages world with
      | error failure after => simp
      | ok answer after => simp [ih]

private theorem deliver_recites (messages : List M) (told : List Bool) (future : List Answer)
    (entries : List (NotifierEntry (Registration ι))) (calls : List (Registration ι × List M))
    (enough : told.length ≤ entries.length) :
    RawNotifier.deliver recite messages entries ⟨told.map .ok ++ future, calls⟩ =
      let rest := RawNotifier.deliver recite messages (entries.drop told.length)
        ⟨future, calls ++ (entries.take told.length).map fun entry => (entry.listener, messages)⟩
      (marks told (entries.take told.length) ++ rest.1, rest.2) := by
  induction told generalizing entries calls with
  | nil => simp [marks_nil]
  | cons alive told ih =>
    cases entries with
    | nil => simp at enough
    | cons entry entries =>
      have fewer : told.length ≤ entries.length := by simpa using enough
      simp only [RawNotifier.deliver, recite, List.map_cons, List.cons_append, List.length_cons,
        List.take_succ_cons, List.drop_succ_cons, marks]
      rw [ih entries _ fewer]
      simp

private theorem marks_take (told : List Bool) (entries : List (NotifierEntry L))
    (enough : told.length ≤ entries.length) :
    marks told (entries.take told.length) ++ entries.drop told.length = marks told entries := by
  induction told generalizing entries with
  | nil => simp [marks_nil]
  | cons alive told ih =>
    cases entries with
    | nil => simp at enough
    | cons entry entries => simp [marks, ih entries (by simpa using enough)]

/-- `callsOf` in the words of the loop. -/
theorem callsOf_entries (messages : List M) (count : Nat) (raw : RawNotifier (Registration ι)) :
    callsOf messages count raw = (raw.listeners.take count).map fun entry => (entry.listener, messages) := by
  simp [callsOf, members, ← List.map_take]

section Sends
variable [VecGrowth] {messages : List M} {told : List Bool} {raw : RawNotifier (Registration ι)}

theorem send_unfinished (more : told.length < raw.listeners.length) :
    (Request.notifyMany messages).run recite (.opened raw) ⟨told.map .ok, []⟩ =
      (.opened (marked told raw), .error .outOfFuel ⟨[], callsOf messages (told.length + 1) raw⟩) := by
  have delivered := deliver_recites messages told [] raw.listeners [] (by omega)
  rw [List.drop_eq_getElem_cons more] at delivered
  simp only [List.append_nil, List.nil_append, RawNotifier.deliver, recite] at delivered
  rw [← List.drop_eq_getElem_cons more, marks_take told raw.listeners (by omega)] at delivered
  simp only [Request.run, Notifier.notifyMany, RawNotifier.notifyMany, delivered, outcomeOf, marked,
    callsOf_entries, List.take_succ_eq_append_getElem more, List.map_append, List.map_cons, List.map_nil]

theorem send_finished (all : told.length = raw.listeners.length) (rest : List Answer) :
    (Request.notifyMany messages).run recite (.opened raw) ⟨told.map .ok ++ rest, []⟩ =
      (.opened (marked told raw), .ok none ⟨rest, callsOf messages told.length raw⟩) := by
  have delivered := deliver_recites messages told rest raw.listeners [] (by omega)
  have nothing : raw.listeners.drop told.length = [] := List.drop_eq_nil_of_le (by omega)
  simp only [nothing, List.append_nil, List.nil_append, RawNotifier.deliver] at delivered
  have whole := marks_take told raw.listeners (by omega)
  rw [nothing, List.append_nil] at whole
  simp only [Request.run, Notifier.notifyMany, RawNotifier.notifyMany, delivered, outcomeOf, whole, marked,
    callsOf_entries]

theorem send_unwound (more : told.length < raw.listeners.length) (message : String) (rest : List Answer) :
    (Request.notifyMany messages).run recite (.opened raw) ⟨told.map .ok ++ .error message :: rest, []⟩ =
      (.opened (marked told raw), .error (.panicked message) ⟨rest, callsOf messages (told.length + 1) raw⟩) := by
  have delivered := deliver_recites messages told (.error message :: rest) raw.listeners [] (by omega)
  rw [List.drop_eq_getElem_cons more] at delivered
  simp only [List.nil_append, RawNotifier.deliver, recite] at delivered
  rw [← List.drop_eq_getElem_cons more, marks_take told raw.listeners (by omega)] at delivered
  simp only [Request.run, Notifier.notifyMany, RawNotifier.notifyMany, delivered, outcomeOf, marked,
    callsOf_entries, List.take_succ_eq_append_getElem more, List.map_append, List.map_cons, List.map_nil]

omit [VecGrowth] in
/-- Any answers are those of the first entries, up to the last entry or a panic. -/
theorem answers_split (answers : List Answer) (count : Nat) :
    ∃ told : List Bool, (told.length = count ∧ ∃ rest, answers = told.map .ok ++ rest) ∨
      told.length < count ∧ (answers = told.map .ok ∨ ∃ message rest, answers = told.map .ok ++ .error message :: rest) := by
  induction count generalizing answers with
  | zero => exact ⟨[], .inl ⟨rfl, answers, rfl⟩⟩
  | succ count ih =>
    cases answers with
    | nil => exact ⟨[], .inr ⟨by simp, .inl rfl⟩⟩
    | cons answer rest =>
      cases answer with
      | error message => exact ⟨[], .inr ⟨by simp, .inr ⟨message, rest, rfl⟩⟩⟩
      | ok alive =>
        obtain ⟨told, ⟨all, later, rfl⟩ | ⟨fewer, rfl | ⟨message, later, rfl⟩⟩⟩ := ih rest
        · exact ⟨alive :: told, .inl ⟨by simp [all], later, rfl⟩⟩
        · exact ⟨alive :: told, .inr ⟨by simpa using fewer, .inl rfl⟩⟩
        · exact ⟨alive :: told, .inr ⟨by simpa using fewer, .inr ⟨message, later, rfl⟩⟩⟩

end Sends

section Writers
variable [VecGrowth]

/-- What is done once the loop over the entries has ended. -/
def conclude (goal : Goal ι) (raw : RawNotifier (Registration ι)) :
    List (NotifierEntry (Registration ι)) × Result Failure W Unit →
      Notifier (Registration ι) × Result Failure W (Option Nat)
  | (listeners, .error failure world) => (.opened { raw with listeners }, .error failure world)
  | (listeners, .ok () world) =>
    match goal with
    | .store registration =>
      (.opened (RawNotifier.push { raw with listeners } ⟨registration, true⟩), .ok none world)
    | .tally => (.opened { raw with listeners }, .ok (some listeners.length) world)

/-- `drop_dead_listeners` from this entry on, and what it is needed for. -/
def sweep (goal : Goal ι) (index : Nat) (raw : RawNotifier (Registration ι)) (script : Script ι M) :
    Notifier (Registration ι) × Result Failure (Script ι M) (Option Nat) :=
  conclude goal raw
    (retain (RawNotifier.stillAlive recite) (raw.listeners.length - index) index raw.listeners script)

/-- `receive` ends as the script says, and the method goes on. -/
def heard (raw : RawNotifier (Registration ι)) (script : Script ι M)
    (next : Bool → Script ι M → Notifier (Registration ι) × Result Failure (Script ι M) (Option Nat)) :
    Notifier (Registration ι) × Result Failure (Script ι M) (Option Nat) :=
  match script.answers with
  | [] => (.opened raw, .error .outOfFuel ⟨[], script.calls⟩)
  | .ok alive :: rest => next alive ⟨rest, script.calls⟩
  | .error message :: rest => (.opened raw, .error (.panicked message) ⟨rest, script.calls⟩)

/-- What is left of the function of a writer that has come this far. -/
def Phase.remaining (raw : RawNotifier (Registration ι)) (script : Script ι M) :
    Phase ι M → Notifier (Registration ι) × Result Failure (Script ι M) (Option Nat)
  | .offering registration => heard raw script fun alive script =>
    if alive then
      if raw.listeners.length ≥ raw.capacity then sweep (.store registration) 0 raw script
      else (.opened (raw.push ⟨registration, true⟩), .ok none script)
    else (.opened raw, .ok none script)
  | .pruning goal index => sweep goal index raw script
  | .asking goal index => heard raw script fun alive script =>
    if alive then sweep goal (index + 1) raw script else sweep goal index (discard index raw) script
  | .storing registration => (.opened (raw.push ⟨registration, true⟩), .ok none script)
  | _ => (.opened raw, .error .illTyped script)

def Effect.remaining (raw : RawNotifier (Registration ι)) (script : Script ι M) :
    Effect ι M → Notifier (Registration ι) × Result Failure (Script ι M) (Option Nat)
  | .goes after phase => phase.remaining after script
  | .calls registration messages phase =>
    phase.remaining raw { script with calls := script.calls ++ [(registration, messages)] }
  | .ends after outcome => (.opened after, outcome.result script)

private theorem sweep_done {goal : Goal ι} {index : Nat} {raw : RawNotifier (Registration ι)} {script : Script ι M}
    (finished : raw.listeners[index]? = none) :
    sweep goal index raw script = conclude goal raw (raw.listeners, .ok () script) := by
  have outside := List.getElem?_eq_none_iff.mp finished
  have nothing : raw.listeners.length - index = 0 := by omega
  rw [sweep, nothing, retain]

private theorem sweep_asks {goal : Goal ι} {index : Nat} {raw : RawNotifier (Registration ι)} {script : Script ι M}
    {entry : NotifierEntry (Registration ι)} (found : raw.listeners[index]? = some entry)
    (alive : entry.wasAlive = true) :
    sweep goal index raw script = Phase.remaining raw
      { script with calls := script.calls ++ [(entry.listener, [])] } (.asking goal index) := by
  obtain ⟨inside, _⟩ := List.getElem?_eq_some_iff.mp found
  have shorter := RetainSwap.swapRemove_length inside
  have more : raw.listeners.length - index = (raw.listeners.length - (index + 1)) + 1 := by omega
  have same : (discard index raw).listeners.length - index = raw.listeners.length - (index + 1) := by
    simp only [discard]
    omega
  obtain ⟨answers, calls⟩ := script
  rw [sweep, more, retain]
  simp only [found, RawNotifier.stillAlive, alive, if_true, Phase.remaining, heard, recite]
  cases answers with
  | nil => rfl
  | cons answer rest =>
    cases answer with
    | error message => rfl
    | ok answer =>
      cases answer with
      | true => rfl
      | false =>
        simp only [Bool.false_eq_true, if_false, sweep, same]
        rfl

private theorem sweep_drops {goal : Goal ι} {index : Nat} {raw : RawNotifier (Registration ι)} {script : Script ι M}
    {entry : NotifierEntry (Registration ι)} (found : raw.listeners[index]? = some entry)
    (dead : entry.wasAlive = false) :
    sweep goal index raw script = sweep goal index (discard index raw) script := by
  obtain ⟨inside, _⟩ := List.getElem?_eq_some_iff.mp found
  have shorter := RetainSwap.swapRemove_length inside
  have more : raw.listeners.length - index = (raw.listeners.length - (index + 1)) + 1 := by omega
  have same : (discard index raw).listeners.length - index = raw.listeners.length - (index + 1) := by
    simp only [discard]
    omega
  rw [sweep, more, retain]
  simp only [found, RawNotifier.stillAlive, dead, Bool.false_eq_true, if_false, sweep, same]
  rfl

/-- Each access of a writer is a step of the function. -/
theorem advance_remaining {phase : Phase ι M} {raw : RawNotifier (Registration ι)} {effect : Effect ι M}
    (writes : phase.access = some .exclusive) (advanced : phase.advance raw = some effect) (script : Script ι M) :
    phase.remaining raw script = effect.remaining raw script := by
  cases phase with
  | idle | sending | receiving | marking => cases writes
  | offering | asking => cases advanced
  | storing registration =>
    cases advanced
    rfl
  | pruning goal index =>
    cases found : raw.listeners[index]? with
    | some entry =>
      cases alive : entry.wasAlive with
      | true =>
        simp only [Phase.advance, found, alive, if_true] at advanced
        cases advanced
        exact sweep_asks found alive
      | false =>
        simp only [Phase.advance, found, alive, Bool.false_eq_true, if_false] at advanced
        cases advanced
        exact sweep_drops found alive
    | none =>
      simp only [Phase.advance, found] at advanced
      cases goal <;> cases advanced <;> exact sweep_done found

theorem answered_remaining {phase : Phase ι M} {raw : RawNotifier (Registration ι)} {effect : Effect ι M}
    {answer : Answer} (writes : phase.access = some .exclusive) (answered : phase.answered raw answer = some effect)
    (future : List Answer) (calls : List (Registration ι × List M)) :
    phase.remaining raw ⟨answer :: future, calls⟩ = effect.remaining raw ⟨future, calls⟩ := by
  cases phase with
  | idle | sending | receiving | marking => cases writes
  | pruning | storing => cases answer <;> simp [Phase.answered, Phase.returned, Phase.panicked] at answered
  | asking goal index =>
    cases answer with
    | error message =>
      cases answered
      rfl
    | ok alive => cases alive <;> cases answered <;> rfl
  | offering registration =>
    cases answer with
    | error message =>
      cases answered
      rfl
    | ok alive =>
      cases alive with
      | false =>
        cases answered
        rfl
      | true =>
        simp only [Phase.answered, Phase.returned] at answered
        split at answered
        next full =>
          cases answered
          simp [Phase.remaining, Effect.remaining, heard, full]
        next room =>
          cases answered
          simp [Phase.remaining, Effect.remaining, heard, room]

/-- The function of a writer that has just got the lock of an open notifier. -/
theorem start_remaining {request : Request ι M} {raw : RawNotifier (Registration ι)} {phase : Phase ι M}
    {calls : List (Registration ι × List M)} (writes : request.sends = false)
    (started : request.start (.opened raw) = .enters calls phase) (future : List Answer) :
    request.run recite (.opened raw) ⟨future, []⟩ = phase.remaining raw ⟨future, calls⟩ := by
  cases request with
  | notifyMany => cases writes
  | close => cases started
  | count =>
    cases started
    simp only [Request.run, Notifier.count, Notifier.dropDeadListeners, RawNotifier.dropDeadListeners,
      Phase.remaining, sweep, Nat.sub_zero]
    rcases retain (RawNotifier.stillAlive recite) raw.listeners.length 0 raw.listeners ⟨future, []⟩ with
      ⟨kept, outcome⟩
    cases outcome <;> rfl
  | listen registration =>
    cases started
    simp only [Request.run, Notifier.listen, RawNotifier.listen, RawNotifier.register, Phase.remaining, recite,
      heard, List.nil_append]
    cases future with
    | nil => rfl
    | cons answer future =>
      cases answer with
      | error message => rfl
      | ok alive =>
        cases alive with
        | false => rfl
        | true =>
          simp only [RawNotifier.dropDeadIfFull, if_true]
          by_cases full : raw.listeners.length ≥ raw.capacity
          · simp only [full, if_true, RawNotifier.dropDeadListeners, sweep, Nat.sub_zero]
            rcases retain (RawNotifier.stillAlive recite) raw.listeners.length 0 raw.listeners
              ⟨future, [(registration, [])]⟩ with ⟨kept, outcome⟩
            cases outcome <;> rfl
          · simp only [full, if_false]
            rfl

end Writers

end Nosy.SharedNotifier
