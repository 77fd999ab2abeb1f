import Nosy.Proofs.SharedNotifierScripts
import Nosy.Proofs.SharedNotifierSteps

/-! Every interleaving explains itself as uses of the notifier one after the other,
in the order in which they got the lock. Sends that run side by side only clear
flags, so each may be thought to end before the next begins. -/

namespace Nosy.SharedNotifier
open EStateM (Result)

variable {ι M W : Type}

/-- A running send that has stored these answers. -/
def Sends (messages : List M) (raw : RawNotifier (Registration ι)) (told : List Bool) (record : Record ι M) :
    Phase ι M → Prop
  | .sending sent index => sent = messages ∧ index = told.length ∧ told.length ≤ raw.listeners.length ∧
      record.calls = callsOf messages told.length raw ∧ record.answers = told.map .ok
  | .receiving sent index => sent = messages ∧ index = told.length ∧ told.length < raw.listeners.length ∧
      record.calls = callsOf messages (told.length + 1) raw ∧ record.answers = told.map .ok
  | .marking sent index alive => sent = messages ∧ index = told.length ∧ told.length < raw.listeners.length ∧
      record.calls = callsOf messages (told.length + 1) raw ∧ record.answers = (told ++ [alive]).map .ok
  | _ => False

/-- A use that has ended is explained as it stands; a running send by what it has
stored. -/
inductive Tells [VecGrowth] (threads : Nat → Phase ι M) (record : Record ι M)
    (before after : Notifier (Registration ι)) : Prop
  | explained : record.running = false → record.Explains before after → Tells threads record before after
  | sending {messages : List M} {raw : RawNotifier (Registration ι)} {told : List Bool} :
      record.running = true → record.request = .notifyMany messages → before = .opened raw →
      after = .opened (marked told raw) → Sends messages raw told record (threads record.thread) →
      Tells threads record before after

/-- The writer stands where its function is, run alone, after as many answers. -/
structure Writing [VecGrowth] (state : State ι M) (writer : Nat) (earlier : List (Record ι M)) (record : Record ι M)
    (before : Notifier (Registration ι)) (raw : RawNotifier (Registration ι)) : Prop where
  history : state.history = earlier ++ [record]
  thread : record.thread = writer
  running : record.running = true
  exclusive : record.request.sends = false
  finished : ∀ other ∈ earlier, other.running = false
  serial : Serial .new earlier before
  opened : state.notifier = .opened raw
  continues : ∀ future, record.request.run recite before ⟨record.answers ++ future, []⟩ =
    (state.threads writer).remaining raw ⟨future, record.calls⟩

structure Valid [VecGrowth] (state : State ι M) : Prop extends Booked state where
  told : state.lock.writer = none → Sequenced (Tells state.threads) .new state.history state.notifier
  writes : ∀ thread, state.lock.writer = some thread →
    ∃ earlier record before raw, Writing state thread earlier record before raw

/-- A stored answer, whatever the notifier is. -/
def flag (index : Nat) (alive : Bool) : Notifier (Registration ι) → Notifier (Registration ι)
  | .opened raw => .opened (mark index alive raw)
  | .closed => .closed

private theorem callsOf_congr {raw after : RawNotifier (Registration ι)} (messages : List M) (count : Nat)
    (same : members after = members raw) : callsOf messages count after = callsOf messages count raw := by
  simp only [callsOf, same]

theorem members_length (raw : RawNotifier (Registration ι)) : (members raw).length = raw.listeners.length := by
  simp [members]

section Sending
variable [VecGrowth] {threads : Nat → Phase ι M} {record : Record ι M} {before after : Notifier (Registration ι)}

/-- A send run on cleared flags leaves them cleared, and does the same otherwise. -/
theorem run_flag (index : Nat) (alive : Bool) (notifier : Notifier (Registration ι)) (world : W)
    (receive : Receive M (Registration ι) W) (messages : List M) :
    (Request.notifyMany messages).run receive (flag index alive notifier) world =
      (flag index alive ((Request.notifyMany messages).run receive notifier world).1,
        ((Request.notifyMany messages).run receive notifier world).2) := by
  cases notifier with
  | closed => rfl
  | opened raw =>
    simp only [Request.run, flag, Notifier.notifyMany, RawNotifier.notifyMany, mark, deliver_modify]
    rcases RawNotifier.deliver receive messages raw.listeners world with ⟨listeners, outcome⟩
    cases outcome <;> rfl

private theorem explains_flag (index : Nat) (alive : Bool) (sends : record.request.sends = true)
    (explains : record.Explains before after) :
    record.Explains (flag index alive before) (flag index alive after) := by
  obtain ⟨thread, request, calls, answers, ended⟩ := record
  cases request with
  | listen | count | close => cases sends
  | notifyMany messages =>
    have flagged := run_flag index alive before ⟨answers, []⟩ recite messages
    cases explains with
    | finished done ran =>
      apply Record.Explains.finished done
      rw [flagged, ran]
    | unfinished more made ran =>
      apply Record.Explains.unfinished more made
      rw [flagged, ran]

private theorem tells_flag (index : Nat) (alive : Bool) (sends : record.request.sends = true)
    (tells : Tells threads record before after) :
    Tells threads record (flag index alive before) (flag index alive after) := by
  cases tells with
  | explained done explains => exact .explained done (explains_flag index alive sends explains)
  | @sending messages raw told more sent first last sending =>
    have same := members_mark index alive raw
    have length : (mark index alive raw).listeners.length = raw.listeners.length := by
      rw [← members_length, same, members_length]
    have still : Sends messages (mark index alive raw) told record (threads record.thread) := by
      cases phase : threads record.thread <;>
        simp only [phase, Sends, callsOf_congr _ _ same, length] at sending ⊢ <;> exact sending
    apply Tells.sending more sent (by rw [first, flag]) _ still
    rw [last, flag, mark_marked]

private theorem explains_members {raw : RawNotifier (Registration ι)} (sends : record.request.sends = true)
    (explains : record.Explains (.opened raw) after) : ∃ left, after = .opened left ∧ members left = members raw := by
  obtain ⟨thread, request, calls, answers, ended⟩ := record
  cases request with
  | listen | count | close => cases sends
  | notifyMany messages =>
    have kept : members (raw.notifyMany recite messages (⟨answers, []⟩ : Script ι M)).1 = members raw :=
      RawNotifier.deliver_listeners raw.listeners _
    have ran : ((Request.notifyMany messages).run recite (.opened raw) (⟨answers, []⟩ : Script ι M)).1 = after := by
      cases explains with
      | finished _ ran | unfinished _ _ ran => rw [ran]
    refine ⟨(raw.notifyMany recite messages (⟨answers, []⟩ : Script ι M)).1, ?_, kept⟩
    rw [← ran]
    simp only [Request.run, Notifier.notifyMany, RawNotifier.notifyMany]
    rcases RawNotifier.deliver recite messages raw.listeners (⟨answers, []⟩ : Script ι M) with ⟨listeners, outcome⟩
    cases outcome <;> rfl

private theorem tells_members {raw : RawNotifier (Registration ι)} (sends : record.request.sends = true)
    (tells : Tells threads record (.opened raw) after) :
    ∃ left, after = .opened left ∧ members left = members raw := by
  cases tells with
  | explained _ explains => exact explains_members sends explains
  | sending _ _ first last _ =>
    cases first
    exact ⟨_, last, members_marked _ _⟩

private theorem tells_elsewhere {thread : Nat} (phase : Phase ι M)
    (other : ¬ (record.thread = thread ∧ record.running = true))
    (tells : Tells threads record before after) :
    Tells (Function.update threads thread phase) record before after := by
  cases tells with
  | explained done explains => exact .explained done explains
  | sending more sent first last sending =>
    apply Tells.sending more sent first last
    rwa [Function.update_of_ne]
    intro same
    exact other ⟨same, more⟩

omit [VecGrowth] in
private theorem callsOf_succ {raw : RawNotifier (Registration ι)} {registration : Registration ι} {count : Nat}
    (messages : List M) (found : (members raw)[count]? = some registration) :
    callsOf messages (count + 1) raw = callsOf messages count raw ++ [(registration, messages)] := by
  obtain ⟨inside, rfl⟩ := List.getElem?_eq_some_iff.mp found
  rw [callsOf, List.take_succ_eq_append_getElem inside, List.map_append]
  rfl

/-- How a running send goes on from what it has stored: it keeps that, stores one
more answer, or ends. -/
private def Follows (messages : List M) (raw current : RawNotifier (Registration ι)) (told : List Bool)
    (record : Record ι M) : Effect ι M → Prop
  | .goes after next =>
    (after = current ∧ Sends messages raw told record next) ∨
      ∃ alive, after = mark told.length alive current ∧ Sends messages raw (told ++ [alive]) record next
  | .calls registration sent next => Sends messages raw told (record.call registration sent) next
  | .ends after outcome =>
    after = current ∧ (record.finish outcome).Explains (.opened raw) (.opened (marked told raw))

/-- A send takes one answer after the other, in the order of the table, and ends
after the last or with the first panic. -/
private theorem sends_move {messages : List M} {raw current : RawNotifier (Registration ι)} {told : List Bool}
    {phase : Phase ι M} {heard : List Answer} {effect : Effect ι M} (request : record.request = .notifyMany messages)
    (sending : Sends messages raw told record phase) (same : members current = members raw)
    (moves : Moves current phase heard effect) : Follows messages raw current told (record.hears heard) effect := by
  have length : current.listeners.length = raw.listeners.length := by
    rw [← members_length, same, members_length]
  cases moves with
  | advance advanced =>
    cases phase with
    | idle | offering | pruning | asking | storing => cases sending
    | receiving => cases advanced
    | marking sent index alive =>
      obtain ⟨rfl, rfl, more, made, answers⟩ := sending
      cases advanced
      right
      refine ⟨alive, rfl, rfl, by simp, ?_, by simpa [Record.hears] using made, by simpa [Record.hears] using answers⟩
      simpa using Nat.succ_le_of_lt more
    | sending sent index =>
      obtain ⟨rfl, rfl, bounded, made, answers⟩ := sending
      cases found : current.listeners[told.length]? with
      | some entry =>
        simp only [Phase.advance, found] at advanced
        cases advanced
        obtain ⟨inside, _⟩ := List.getElem?_eq_some_iff.mp found
        have member : (members raw)[told.length]? = some entry.listener := by
          rw [← same, members, List.getElem?_map, found]
          rfl
        refine ⟨rfl, rfl, by omega, ?_, by simpa [Record.hears, Record.call] using answers⟩
        simp only [Record.hears, Record.call, made, callsOf_succ sent member]
      | none =>
        simp only [Phase.advance, found] at advanced
        cases advanced
        have outside := List.getElem?_eq_none_iff.mp found
        have all : told.length = raw.listeners.length := by omega
        refine ⟨rfl, .finished rfl ?_⟩
        simpa [Record.hears, Record.finish, request, made, answers, Outcome.result] using send_finished all []
  | @answer answer _ answered =>
    cases phase with
    | idle | offering | pruning | asking | storing => cases sending
    | sending | marking => cases answer <;> simp [Phase.answered, Phase.returned, Phase.panicked] at answered
    | receiving sent index =>
      obtain ⟨rfl, rfl, more, made, answers⟩ := sending
      cases answer with
      | ok alive =>
        cases answered
        left
        exact ⟨rfl, rfl, rfl, more, by simpa [Record.hears] using made, by simp [Record.hears, answers]⟩
      | error message =>
        cases answered
        refine ⟨rfl, .finished rfl ?_⟩
        simpa [Record.hears, Record.finish, request, made, answers, Outcome.result] using send_unwound more message []

end Sending

private theorem start_passes [VecGrowth] {request : Request ι M} {notifier after : Notifier (Registration ι)}
    {outcome : Outcome} (started : request.start notifier = .passes after outcome) (thread : Nat) :
    (⟨thread, request, [], [], some outcome⟩ : Record ι M).Explains notifier after := by
  cases request <;> cases notifier <;> cases started <;> exact .finished rfl rfl

private theorem serial_of_tells [VecGrowth] {threads : Nat → Phase ι M} {history : List (Record ι M)}
    {first last : Notifier (Registration ι)} (run : Sequenced (Tells threads) first history last)
    (finished : ∀ record ∈ history, record.running = false) : Serial first history last := by
  apply run.mono
  intro record member before after tells
  cases tells with
  | explained _ explains => exact explains
  | sending running => simp [finished record member] at running

private theorem Valid.begin [VecGrowth] {state after : State ι M} {thread : Nat} {request : Request ι M}
    (valid : Valid state) (idle : state.threads thread = .idle) (began : state.begin thread request = some after) :
    Valid after := by
  obtain ⟨lock, registered, acquired, _, ⟨calls, phase, started, rfl⟩ | ⟨notifier, outcome, started, rfl⟩⟩ :=
    begin_cases began
  all_goals obtain ⟨nobody, acquired⟩ := acquire_cases valid.held acquired
  · obtain ⟨⟨raw, opened⟩, access⟩ := start_enters started
    have busy : phase ≠ .idle := by
      intro outside
      simp [outside, Phase.access] at access
    have apart : ∀ record ∈ state.history, ¬ (record.thread = thread ∧ record.running = true) := by
      intro record member here
      exact valid.resting record member here.2 (here.1 ▸ idle)
    have others : Sequenced (Tells (Function.update state.threads thread phase)) .new state.history state.notifier := by
      apply (valid.told nobody).mono
      intro record member before after tells
      exact tells_elsewhere phase (apart record member) tells
    cases sends : request.sends with
    | true =>
      simp only [sends, if_true] at acquired access
      refine ⟨?_, ?_, ?_⟩
      · refine valid.toBooked.append idle rfl ?_ ?_ ?_ (.inl sends)
        · simp only [access_update, access]
          exact acquired.1
        · intro other different
          exact Function.update_of_ne different _ _
        · simpa [Record.running] using busy
      · intro _
        apply others.snoc
        cases request with
        | listen | count | close => cases sends
        | notifyMany messages =>
          rw [opened] at started ⊢
          cases started
          refine @Tells.sending _ _ _ _ _ _ _ messages raw [] rfl rfl rfl ?_ ?_
          · rw [marked, marks_nil]
          · simp [Sends, callsOf]
      · intro other writing
        simp [acquired.2] at writing
    | false =>
      simp only [sends, Bool.false_eq_true, if_false] at acquired access
      obtain ⟨agrees, empty, writer⟩ := acquired
      have finished := valid.all_finished nobody empty
      refine ⟨?_, ?_, ?_⟩
      · refine valid.toBooked.append idle rfl ?_ ?_ ?_ (.inr finished)
        · simp only [access_update, access]
          exact agrees
        · intro other different
          exact Function.update_of_ne different _ _
        · simpa [Record.running] using busy
      · intro none
        simp [writer] at none
      · intro other writing
        simp only [writer, Option.some.injEq] at writing
        subst other
        refine ⟨state.history, ⟨thread, request, calls, [], none⟩, state.notifier, raw, rfl, rfl, rfl, sends, finished,
          serial_of_tells (valid.told nobody) finished, opened, ?_⟩
        intro future
        rw [opened] at started ⊢
        simpa using start_remaining sends started future
  · have booked : Booked { state with
        notifier, registered, history := state.history ++ [⟨thread, request, [], [], some outcome⟩] } := by
      refine valid.toBooked.append idle rfl valid.held ?_ ?_ ?_
      · intro _ _
        rfl
      · simp [Record.running, idle]
      · split at acquired
        next sends => exact .inl sends
        · exact .inr (valid.all_finished nobody acquired.2.1)
    refine ⟨booked, ?_, ?_⟩
    · intro _
      exact (valid.told nobody).snoc (.explained rfl (start_passes started thread))
    · intro other writing
      rw [nobody] at writing
      cases writing

section Moving
variable [VecGrowth] {state : State ι M} {thread : Nat} {current : RawNotifier (Registration ι)}
  {heard : List Answer} {effect : Effect ι M}

/-- Where the record of a running send stands in the history, with what is before
and after it. The table has not changed since. -/
structure Reading (state : State ι M) (thread : Nat) (messages : List M) (earlier : List (Record ι M))
    (record : Record ι M) (later : List (Record ι M)) (raw left : RawNotifier (Registration ι)) (told : List Bool) :
    Prop extends Located state.history thread earlier record later where
  request : record.request = .notifyMany messages
  sending : Sends messages raw told record (state.threads thread)
  early : Sequenced (Tells state.threads) .new earlier (.opened raw)
  late : Sequenced (Tells state.threads) (.opened (marked told raw)) later state.notifier
  sends : ∀ other ∈ later, other.request.sends = true
  opened : state.notifier = .opened left
  same : members left = members raw

private theorem Valid.reading (valid : Valid state) (reads : (state.threads thread).access = some .shared) :
    ∃ messages earlier record later raw left told, Reading state thread messages earlier record later raw left told := by
  have busy : state.threads thread ≠ .idle := by
    intro idle
    simp [idle, Phase.access] at reads
  obtain ⟨earlier, record, later, located⟩ := valid.locate busy
  have ordered := valid.ordered
  rw [located.split, List.pairwise_append, List.pairwise_cons] at ordered
  have sends : ∀ other ∈ later, other.request.sends = true := fun other member =>
    ordered.2.1.1 other member located.running
  have run := valid.told (valid.held.no_writer reads)
  rw [located.split] at run
  obtain ⟨start, stop, early, tells, late⟩ := run.split_cons
  cases tells with
  | explained done => simp [located.running] at done
  | @sending messages raw told more sent first last sending =>
    subst start stop
    rw [located.owner] at sending
    obtain ⟨left, opened, same⟩ := late.invariant
      (fun _ notifier => ∃ left, notifier = .opened left ∧ members left = members raw)
      ⟨_, rfl, members_marked told raw⟩ (by
        intro _ other _ before after split tells stands
        obtain ⟨left, shape, kept⟩ := stands
        subst shape
        obtain ⟨next, opened, same⟩ := tells_members (sends other (by simp [split])) tells
        exact ⟨next, opened, same.trans kept⟩)
    exact ⟨messages, earlier, record, later, raw, left, told, located, sent, sending, early, late, sends, opened, same⟩

theorem Valid.is_open (valid : Valid state) (busy : state.threads thread ≠ .idle) :
    ∃ raw, state.notifier = .opened raw := by
  cases access : (state.threads thread).access with
  | none => exact absurd (access_idle access) busy
  | some kind =>
    cases kind with
    | shared =>
      obtain ⟨_, _, _, _, _, left, _, reading⟩ := valid.reading access
      exact ⟨left, reading.opened⟩
    | exclusive =>
      obtain ⟨_, _, _, raw, writing⟩ := valid.writes thread ((valid.held.writer thread).mpr access)
      exact ⟨raw, writing.opened⟩

/-- A move of a send: what it stores, every later send might have found already. -/
private theorem Valid.reader_moved (valid : Valid state) (opened : state.notifier = .opened current)
    (reads : (state.threads thread).access = some .shared) (moves : Moves current (state.threads thread) heard effect) :
    Sequenced (Tells (state.moved thread current heard effect).threads) .new
      (state.moved thread current heard effect).history (state.moved thread current heard effect).notifier := by
  obtain ⟨messages, earlier, record, later, raw, left, told, reading⟩ := valid.reading reads
  cases opened.symm.trans reading.opened
  have located := reading.toLocated
  have follows := sends_move reading.request reading.sending reading.same moves
  have owner : (effect.change heard record).thread = thread := (effect.change_thread heard record).trans located.owner
  have request : (effect.change heard record).request = .notifyMany messages :=
    (effect.change_request heard record).trans reading.request
  have late := reading.late
  rw [opened] at late
  have elsewhere : ∀ other ∈ earlier ++ later, ∀ before after, Tells state.threads other before after →
      Tells (Function.update state.threads thread effect.phase) other before after :=
    fun other member _ _ tells => tells_elsewhere effect.phase (located.others other member) tells
  have early := reading.early.mono fun other member => elsewhere other (List.mem_append_left _ member)
  have untouched := late.mono fun other member => elsewhere other (List.mem_append_right _ member)
  simp only [State.moved, located.amend]
  apply early.append
  cases effect with
  | goes after next =>
    have going : (Effect.change heard record (.goes after next)).running = true := located.running
    rcases follows with ⟨rfl, still⟩ | ⟨alive, rfl, stored⟩
    · apply Sequenced.cons _ untouched
      apply Tells.sending going request rfl rfl
      rwa [owner, Effect.phase, Function.update_self]
    · -- whoever ran beside it finds the answer stored already, and does not look
      have shifted := late.shift (flag told.length alive) fun other member before after tells =>
        tells_flag told.length alive (reading.sends other member)
          (elsewhere other (List.mem_append_right _ member) before after tells)
      apply Sequenced.cons _ shifted
      apply Tells.sending going request rfl
      · rw [flag, marked_snoc]
      · rwa [owner, Effect.phase, Function.update_self]
  | calls registration messages next =>
    have going : (Effect.change heard record (.calls registration messages next)).running = true := located.running
    apply Sequenced.cons _ untouched
    apply Tells.sending going request rfl rfl
    rwa [owner, Effect.phase, Function.update_self]
  | ends after outcome =>
    obtain ⟨rfl, explains⟩ := follows
    exact .cons (.explained rfl explains) untouched

private theorem moves_remaining (writes : (state.threads thread).access = some .exclusive)
    (moves : Moves current (state.threads thread) heard effect) (future : List Answer)
    (calls : List (Registration ι × List M)) :
    (state.threads thread).remaining current ⟨heard ++ future, calls⟩ = effect.remaining current ⟨future, calls⟩ := by
  cases moves with
  | advance advanced => exact advance_remaining writes advanced _
  | answer answered => exact answered_remaining writes answered future calls

private theorem Valid.writer_moved (valid : Valid state) (opened : state.notifier = .opened current)
    (writer : state.lock.writer = some thread) (moves : Moves current (state.threads thread) heard effect) :
    Valid (state.moved thread current heard effect) := by
  have writes := (valid.held.writer thread).mp writer
  obtain ⟨earlier, record, before, raw, writing⟩ := valid.writes thread writer
  have same : raw = current := by
    have both := writing.opened.symm.trans opened
    cases both
    rfl
  subst same
  have located : Located state.history thread earlier record [] := by
    refine ⟨writing.history, writing.thread, writing.running, ?_⟩
    intro other member here
    rw [List.append_nil] at member
    simp [writing.finished other member] at here
  have continues : ∀ future, record.request.run recite before ⟨(record.answers ++ heard) ++ future, []⟩ =
      effect.remaining raw ⟨future, record.calls⟩ := by
    intro future
    rw [List.append_assoc, writing.continues]
    exact moves_remaining writes moves future record.calls
  refine ⟨valid.toBooked.moved moves, ?_, ?_⟩
  · intro nobody
    simp only [State.moved, located.amend] at nobody ⊢
    cases effect with
    | goes | calls =>
      rw [Effect.lock, writer] at nobody
      cases nobody
    | ends after outcome =>
      have before := writing.serial.mono (S := Tells (Function.update state.threads thread .idle))
        fun other member _ _ explains => .explained (writing.finished other member) explains
      apply before.snoc
      apply Tells.explained rfl
      apply Record.Explains.finished rfl
      have ran := continues []
      rw [List.append_nil] at ran
      exact ran
  · intro other owner
    cases effect with
    | ends => simp [State.moved, Effect.lock, SharedLock.release, writer] at owner
    | goes after next =>
      simp only [State.moved, Effect.lock, writer, Option.some.injEq] at owner
      subst other
      refine ⟨earlier, Effect.change heard record (.goes after next), before, after, located.amend _, writing.thread,
        writing.running, writing.exclusive, writing.finished, writing.serial, rfl, ?_⟩
      simpa [State.moved, Effect.phase, Effect.change, Effect.remaining, Record.hears] using continues
    | calls registration messages next =>
      simp only [State.moved, Effect.lock, writer, Option.some.injEq] at owner
      subst other
      refine ⟨earlier, Effect.change heard record (.calls registration messages next), before, raw, located.amend _,
        writing.thread, writing.running, writing.exclusive, writing.finished, writing.serial, rfl, ?_⟩
      simpa [State.moved, Effect.phase, Effect.change, Effect.remaining, Record.hears, Record.call] using continues

theorem Valid.moved (valid : Valid state) (opened : state.notifier = .opened current)
    (moves : Moves current (state.threads thread) heard effect) : Valid (state.moved thread current heard effect) := by
  obtain ⟨inside, _⟩ := moves_access moves
  cases access : (state.threads thread).access with
  | none => exact absurd access inside
  | some kind =>
    cases kind with
    | exclusive => exact valid.writer_moved opened ((valid.held.writer thread).mpr access) moves
    | shared =>
      have nobody := valid.held.no_writer access
      refine ⟨valid.toBooked.moved moves, fun _ => valid.reader_moved opened access moves, ?_⟩
      intro other owner
      cases effect <;> simp [State.moved, Effect.lock, SharedLock.release, nobody] at owner

end Moving

theorem valid_initial [VecGrowth] : Valid (initial : State ι M) := by
  refine ⟨⟨.free, ?_, ?_, .nil, .nil⟩, fun _ => .nil, ?_⟩
  · intro thread busy
    exact absurd rfl busy
  · intro record member
    cases member
  · intro thread writing
    cases writing

theorem Valid.step [VecGrowth] {action : Action ι M} {state after : State ι M} (valid : Valid state)
    (stepped : step action state = some after) : Valid after := by
  obtain ⟨thread, request, rfl, idle, began⟩ | ⟨thread, current, heard, effect, _, opened, moves, rfl⟩ :=
    step_cases stepped
  · exact valid.begin idle began
  · exact valid.moved opened moves

theorem reaches_valid [VecGrowth] {state : State ι M}
    (run : Transition.Reaches step Transition.Free initial state) : Valid state :=
  run.invariant (fun _ _ _ _ stepped valid => valid.step stepped) valid_initial

/-- A running send without an answer in its hands is explained by its answers. -/
private theorem tells_explains [VecGrowth] {threads : Nat → Phase ι M} {record : Record ι M}
    {before after : Notifier (Registration ι)} (tells : Tells threads record before after)
    (settled : ∀ messages index alive, threads record.thread ≠ .marking messages index alive) :
    record.Explains before after := by
  cases tells with
  | explained _ explains => exact explains
  | @sending messages raw told more sent first last sending =>
    have unended : record.outcome = none := by simpa [Record.running] using more
    subst first last
    cases phase : threads record.thread with
    | marking batch index alive => exact absurd phase (settled batch index alive)
    | idle | offering | pruning | asking | storing =>
      rw [phase] at sending
      cases sending
    | receiving batch index =>
      rw [phase] at sending
      obtain ⟨_, _, inside, made, answers⟩ := sending
      refine @Record.Explains.unfinished _ _ _ _ _ _ (.error .outOfFuel) _ unended (by rw [made]) ?_
      rw [sent, answers]
      exact send_unfinished inside
    | sending batch index =>
      rw [phase] at sending
      obtain ⟨_, _, bounded, made, answers⟩ := sending
      rcases Nat.lt_or_eq_of_le bounded with inside | all
      · have begun : record.calls <+: callsOf messages (told.length + 1) raw := by
          rw [made]
          exact (List.take_prefix_take_left (Nat.le_succ _)).map _
        refine @Record.Explains.unfinished _ _ _ _ _ _ (.error .outOfFuel) _ unended begun ?_
        rw [sent, answers]
        exact send_unfinished inside
      · refine @Record.Explains.unfinished _ _ _ _ _ _ (.ok none) _ unended (by rw [made]) ?_
        rw [sent, answers]
        simpa [Outcome.result] using send_finished all []

/-- However the threads interleave, the uses of the notifier could have happened one
after the other in the order in which they got the lock: with the same calls, the
same answers, the same results, and the same listeners and flags in the end. -/
theorem uses_serialize [VecGrowth] {state : State ι M} (run : Transition.Reaches step Transition.Free initial state)
    (unlocked : state.lock.writer = none)
    (settled : ∀ thread messages index alive, state.threads thread ≠ .marking messages index alive) :
    Serial .new state.history state.notifier := by
  apply ((reaches_valid run).told unlocked).mono
  intro record _ before after tells
  exact tells_explains tells (settled record.thread)

/-- Two threads send side by side. One listener leaves while both call it, the other
one panics. -/
def crossing : List (Action Char Nat) :=
  [.call 0 (.listen ⟨0, 'a'⟩), .answer 0 (.ok true), .advance 0, .advance 0,
    .call 1 (.listen ⟨1, 'b'⟩), .answer 1 (.ok true), .advance 1,
    .call 0 (.notifyMany [7]), .call 1 (.notifyMany [8]), .advance 0, .advance 1, .answer 1 (.ok true),
    .answer 0 (.ok false), .advance 0, .advance 1, .advance 0, .answer 0 (.error "b"), .advance 1,
    .answer 1 (.ok true), .advance 1, .advance 1]

theorem uses_serialize_crossing : ∃ state : State Char Nat, state.history.length = 4 ∧
    state.notifier = .opened ⟨[⟨⟨0, 'a'⟩, false⟩, ⟨⟨1, 'b'⟩, true⟩], 4⟩ ∧
    @Serial _ _ .usual .new state.history state.notifier := by
  have run : ∃ state : State Char Nat, Transition.exec (@step _ _ .usual) crossing initial = some state ∧
      state.history.length = 4 ∧ state.notifier = .opened ⟨[⟨⟨0, 'a'⟩, false⟩, ⟨⟨1, 'b'⟩, true⟩], 4⟩ ∧
      state.lock.writer = none ∧ ∀ thread, state.threads thread = .idle := by
    refine ⟨_, rfl, rfl, rfl, rfl, ?_⟩
    intro thread
    match thread with
    | 0 | 1 | _ + 2 => rfl
  obtain ⟨state, executed, four, left, unlocked, idle⟩ := run
  refine ⟨state, four, left, @uses_serialize _ _ .usual _ (Transition.exec_reaches executed) unlocked ?_⟩
  intro thread messages index alive marking
  rw [idle thread] at marking
  cases marking

end Nosy.SharedNotifier
