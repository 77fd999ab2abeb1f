import Nosy.Proofs.SharedNotifierTables

/-! What holds of a shared notifier in every interleaving: whom a send reaches, what
`count` counts, and that nothing is delivered after `close`. -/

namespace Nosy.SharedNotifier
open EStateM (Result)
open Transition (Reaches Free)

variable {ι M : Type}

/-- Some call on it answered false. -/
def Denied (history : List (Record ι M)) (registration : Registration ι) : Prop :=
  ∃ record ∈ history, Denies record.replies registration

/-- The table holds what was stored and never denied. A clear flag says that it was
denied; once every use has ended, a set flag says that it was not. -/
structure Table (history : List (Record ι M)) (raw : RawNotifier (Registration ι)) : Prop where
  distinct : (members raw).Nodup
  stored : ∀ registration ∈ members raw, registration ∈ stored history
  kept : ∀ registration ∈ SharedNotifier.stored history, ¬ Denied history registration → registration ∈ members raw
  cleared : ∀ entry ∈ raw.listeners, entry.wasAlive = false → Denied history entry.listener
  honest : (∀ record ∈ history, record.running = false) → ∀ entry ∈ raw.listeners, entry.wasAlive = true →
    ¬ Denied history entry.listener
  asked : ∀ registration, Denied history registration → registration ∈ offered history

/-- What a history makes of the notifier. -/
def Stands (history : List (Record ι M)) : Notifier (Registration ι) → Prop
  | .opened raw => Table history raw ∧ ∀ record ∈ history, record.request ≠ .close
  | .closed => ∃ record ∈ history, record.request = .close

section Histories
variable {history : List (Record ι M)} {record : Record ι M} {registration : Registration ι}

private theorem denied_append : Denied (history ++ [record]) registration ↔
    Denied history registration ∨ Denies record.replies registration := by
  simp [Denied, or_and_right, exists_or]

private theorem stored_append : registration ∈ stored (history ++ [record]) ↔
    registration ∈ stored history ∨ record.stores = some registration := by
  cases stores : record.stores <;> simp [stored, stores, eq_comm]

private theorem stored_offered (member : registration ∈ stored history) : registration ∈ offered history := by
  obtain ⟨record, present, stores⟩ := List.mem_filterMap.mp member
  exact List.mem_filterMap.mpr ⟨record, present, stores_offers stores⟩

private theorem offered_append : registration ∈ offered (history ++ [record]) ↔
    registration ∈ offered history ∨ record.request.offers = some registration := by
  cases offers : record.request.offers <;> simp [offered, offers, eq_comm]

private theorem Table.append {before after : RawNotifier (Registration ι)} (table : Table history before)
    (treats : Treats record before after)
    (fresh : ∀ registration, record.request.offers = some registration → registration ∉ offered history) : Table (history ++ [record]) after := by
  constructor
  · exact treats.distinct
  · intro registration member
    apply stored_append.mpr
    exact (treats.members registration member).imp_left (table.stored registration)
  · intro registration member spared
    rcases stored_append.mp member with member | stores
    · have untouched : ¬ Denied history registration := fun denied => spared (denied_append.mpr (.inl denied))
      have present := table.kept registration member untouched
      obtain ⟨entry, inside, rfl⟩ := List.mem_map.mp present
      apply treats.kept entry inside
      · rw [← Bool.not_eq_false]
        intro dead
        exact untouched (table.cleared entry inside dead)
      · intro denied
        exact spared (denied_append.mpr (.inr denied))
    · exact treats.added registration stores
  · intro entry member dead
    apply denied_append.mpr
    rcases treats.cleared entry member dead with denied | ⟨old, inside, same, dead⟩
    · exact .inr denied
    · rw [← same]
      exact .inl (table.cleared old inside dead)
  · intro finished entry member alive denied
    have earlier : ∀ other ∈ history, other.running = false := fun other member =>
      finished other (List.mem_append_left _ member)
    obtain ⟨spared, origin⟩ := treats.honest (finished record (by simp)) entry member alive
    rcases denied_append.mp denied with denied | denied
    · rcases origin with ⟨old, inside, same, set⟩ | stores
      · rw [← same] at denied
        exact table.honest earlier old inside set denied
      · exact fresh _ (stores_offers stores) (table.asked _ denied)
    · exact spared denied
  · intro registration denied
    apply offered_append.mpr
    rcases denied_append.mp denied with denied | denied
    · exact .inl (table.asked registration denied)
    · exact (treats.asked registration denied).imp_left fun member => stored_offered (table.stored registration member)

private theorem tells_closed [VecGrowth] {threads : Nat → Phase ι M} {after : Notifier (Registration ι)}
    (tells : Tells threads record .closed after) : after = .closed ∧ record.calls = [] ∧ record.running = false := by
  cases tells with
  | sending _ _ first => cases first
  | explained done explains =>
    cases explains with
    | unfinished more => simp [Record.running, more] at done
    | @finished outcome ended ran =>
      obtain ⟨thread, request, calls, answers, _⟩ := record
      refine ⟨?_, ?_, done⟩
      all_goals cases request <;> cases outcome <;> cases ran <;> rfl

private theorem tells_ran [VecGrowth] {threads : Nat → Phase ι M} {before after : Notifier (Registration ι)}
    (tells : Tells threads record before after) (writes : record.request.sends = false) :
    ∃ outcome, record.outcome = some outcome ∧
      record.request.run recite before ⟨record.answers, []⟩ = (after, outcome.result ⟨[], record.calls⟩) := by
  cases tells with
  | sending _ request => simp [request, Request.sends] at writes
  | explained done explains =>
    cases explains with
    | finished ended ran => exact ⟨_, ended, ran⟩
    | unfinished more => simp [Record.running, more] at done

private theorem tells_stands [VecGrowth] {threads : Nat → Phase ι M} {before after : Notifier (Registration ι)}
    (tells : Tells threads record before after) (stands : Stands history before)
    (fresh : ∀ registration, record.request.offers = some registration → registration ∉ offered history) :
    Stands (history ++ [record]) after := by
  cases before with
  | closed =>
    obtain ⟨rfl, _, _⟩ := tells_closed tells
    obtain ⟨close, member, same⟩ := stands
    exact ⟨close, by simp [member], same⟩
  | opened raw =>
    obtain ⟨table, unclosed⟩ := stands
    have outside : ∀ registration, record.request.offers = some registration → registration ∉ members raw :=
      fun registration offers member => fresh registration offers (stored_offered (table.stored registration member))
    have still : record.request ≠ .close → ∀ other ∈ history ++ [record], other.request ≠ .close := by
      intro open_ other member
      rcases List.mem_append.mp member with member | member
      · exact unclosed other member
      · rw [List.mem_singleton] at member
        rwa [member]
    cases request : record.request with
    | notifyMany messages =>
      obtain ⟨told, count, pending, rfl, sent⟩ := tells_sent tells request
      have nothing : record.stores = none := by simp [Record.stores, request]
      exact ⟨table.append (sent.treats nothing table.distinct) fresh, still (by simp [request])⟩
    | close =>
      obtain ⟨outcome, _, ran⟩ := tells_ran tells (by rw [request]; rfl)
      rw [request] at ran
      have closed : .closed = after := congrArg Prod.fst ran
      subst closed
      exact ⟨record, by simp, request⟩
    | count =>
      obtain ⟨outcome, ended, ran⟩ := tells_ran tells (by rw [request]; rfl)
      obtain ⟨left, rfl, treats, _⟩ := count_treats request ended ran table.distinct
      exact ⟨table.append treats fresh, still (by simp [request])⟩
    | listen registration =>
      obtain ⟨outcome, ended, ran⟩ := tells_ran tells (by rw [request]; rfl)
      obtain ⟨left, rfl, treats⟩ := listen_treats request ended ran table.distinct (outside _ (by rw [request]; rfl))
      exact ⟨table.append treats fresh, still (by simp [request])⟩

end Histories

private theorem stands_initial : Stands ([] : List (Record ι M)) .new := by
  refine ⟨⟨List.nodup_nil, ?_, ?_, ?_, ?_, ?_⟩, ?_⟩
  · intro registration member
    cases member
  · intro registration member
    cases member
  · intro entry member
    cases member
  · intro _ entry member
    cases member
  · intro registration denied
    obtain ⟨record, member, _⟩ := denied
    cases member
  · intro record member
    cases member

/-- Uses that happened one after the other, each with a registration of its own. -/
theorem run_stands [VecGrowth] {threads : Nat → Phase ι M} {history : List (Record ι M)}
    {last : Notifier (Registration ι)} (run : Sequenced (Tells threads) .new history last)
    (fresh : (offered history).Nodup) : Stands history last := by
  apply run.invariant Stands stands_initial
  intro earlier record later before after split tells stands
  apply tells_stands tells stands
  intro registration offers member
  rw [split, offered, List.filterMap_append, List.filterMap_cons, offers, List.nodup_append] at fresh
  exact fresh.2.2 registration member registration (by simp) rfl

section Runs
variable [VecGrowth] {state : State ι M} {earlier later : List (Record ι M)} {record : Record ι M}

private theorem reaches_fresh (run : Reaches step Free (initial : State ι M) state) : (offered state.history).Nodup := by
  have initially : Numbered (initial : State ι M) := rfl
  have numbered : Numbered state := run.invariant (fun _ _ _ _ stepped held => held.step stepped) initially
  apply List.Nodup.of_map (·.number)
  rw [numbered]
  exact List.nodup_range

private theorem conclude_open {W : Type} (goal : Goal ι) (raw : RawNotifier (Registration ι))
    (ended : List (NotifierEntry (Registration ι)) × Result Failure W Unit) : ∃ left, (conclude goal raw ended).1 = .opened left := by
  obtain ⟨left, outcome⟩ := ended
  cases outcome with
  | error failure last => exact ⟨_, rfl⟩
  | ok _ last => cases goal <;> exact ⟨_, rfl⟩

private theorem remaining_open (raw : RawNotifier (Registration ι)) (script : Script ι M) (phase : Phase ι M) :
    ∃ left, (phase.remaining raw script).1 = .opened left := by
  obtain ⟨answers, calls⟩ := script
  cases phase with
  | idle | sending | receiving | marking | storing => exact ⟨_, rfl⟩
  | pruning goal index => exact conclude_open goal raw _
  | offering registration =>
    rcases answers_cases answers with rfl | ⟨message, rest, rfl⟩ | ⟨rest, rfl⟩ | ⟨rest, rfl⟩
    · exact ⟨_, rfl⟩
    · exact ⟨_, rfl⟩
    · simp only [Phase.remaining, heard, if_true]
      split
      · exact conclude_open _ raw _
      · exact ⟨_, rfl⟩
    · exact ⟨_, rfl⟩
  | asking goal index =>
    rcases answers_cases answers with rfl | ⟨message, rest, rfl⟩ | ⟨rest, rfl⟩ | ⟨rest, rfl⟩
    · exact ⟨_, rfl⟩
    · exact ⟨_, rfl⟩
    · exact conclude_open goal raw _
    · exact conclude_open goal (discard index raw) _

private theorem Writing.opens {writer : Nat} {before : Notifier (Registration ι)} {raw : RawNotifier (Registration ι)}
    (writing : Writing state writer earlier record before raw) : before ≠ .closed ∧ record.request ≠ .close := by
  obtain ⟨left, opened⟩ := remaining_open raw ⟨[], record.calls⟩ (state.threads writer)
  rw [← writing.continues []] at opened
  constructor
  · intro closed
    subst closed
    cases request : record.request <;> rw [request] at opened <;> cases opened
  · intro close
    rw [close] at opened
    cases opened

private theorem reaches_prefix (run : Reaches step Free (initial : State ι M) state)
    (split : state.history = earlier ++ record :: later)
    (settled : record.running = false ∨ record.request.sends = true) :
    ∃ before after, Sequenced (Tells state.threads) .new earlier before ∧ Tells state.threads record before after ∧
      Stands earlier before := by
  have valid := reaches_valid run
  have fresh := reaches_fresh run
  rw [split, offered, List.filterMap_append, List.nodup_append] at fresh
  have found : ∃ later last, Sequenced (Tells state.threads) .new (earlier ++ record :: later) last := by
    cases writer : state.lock.writer with
    | none =>
      have told := valid.told writer
      rw [split] at told
      exact ⟨later, _, told⟩
    | some thread =>
      obtain ⟨others, writes, before, raw, writing⟩ := valid.writes thread writer
      have shape := split.symm.trans writing.history
      rcases List.eq_nil_or_concat later with rfl | ⟨front, newest, rfl⟩
      · obtain ⟨_, same⟩ := List.append_inj' shape rfl
        cases same
        simp [writing.running, writing.exclusive] at settled
      · rw [List.concat_eq_append, ← List.cons_append, ← List.append_assoc] at shape
        obtain ⟨same, _⟩ := List.append_inj' shape rfl
        subst same
        exact ⟨front, before, writing.serial.mono fun other member _ _ explains =>
          .explained (writing.finished other member) explains⟩
  obtain ⟨later, last, whole⟩ := found
  obtain ⟨before, after, early, tells, _⟩ := whole.split_cons
  exact ⟨before, after, early, tells, run_stands early fresh.1⟩

/-- Whoever used the lock alone found everyone before it done. -/
private theorem earlier_finished (run : Reaches step Free (initial : State ι M) state)
    (split : state.history = earlier ++ record :: later) :
    ∀ other ∈ earlier, record.request.sends = false ∨ other.thread = record.thread → other.running = false := by
  have valid := reaches_valid run
  have ordered := valid.ordered
  have single := valid.single
  rw [split, List.pairwise_append] at ordered single
  intro other member kind
  rw [← Bool.not_eq_true]
  intro running
  rcases kind with writes | same
  · simp [ordered.2.2 other member record (by simp) running] at writes
  · exact single.2.2 other member record (by simp) running same

/-- A send that returns found the notifier open. -/
theorem returned_open (run : Reaches step Free (initial : State ι M) state)
    (split : state.history = earlier ++ record :: later) {messages : List M}
    (sends : record.request = .notifyMany messages) {value : Option Nat}
    (returned : record.outcome = some (.ok value)) : ∀ other ∈ earlier, other.request ≠ .close := by
  obtain ⟨before, after, _, tells, stands⟩ := reaches_prefix run split (.inr (by rw [sends]; rfl))
  cases before with
  | opened raw => exact stands.2
  | closed =>
    cases tells with
    | sending _ _ first => cases first
    | explained done explains =>
      cases explains with
      | unfinished more => cases returned.symm.trans more
      | finished ended ran =>
        cases returned.symm.trans ended
        rw [sends] at ran
        cases ran

section Counting
variable [DecidableEq ι]

omit [VecGrowth] [DecidableEq ι] in
theorem refuses_iff (answer : Answer) : answer.refuses = true ↔ answer = .ok false := by
  rcases answer_cases answer with ⟨message, rfl⟩ | rfl | rfl <;> simp [Answer.refuses]

omit [VecGrowth] in
theorem denies_iff (registration : Registration ι) (record : Record ι M) :
    record.denies registration = true ↔ Denies record.replies registration := by
  simp only [Record.denies, List.any_eq_true, Bool.and_eq_true, decide_eq_true_eq, refuses_iff]
  constructor
  · intro found
    obtain ⟨⟨⟨called, messages⟩, answer⟩, member, same, refused⟩ := found
    dsimp only at same refused
    subst same refused
    exact ⟨messages, member⟩
  · intro denies
    obtain ⟨messages, member⟩ := denies
    exact ⟨_, member, rfl, rfl⟩

omit [VecGrowth] in
theorem denied_iff (registration : Registration ι) (history : List (Record ι M)) :
    denied registration history = true ↔ Denied history registration := by
  simp only [denied, List.any_eq_true, denies_iff, Denied]

omit [VecGrowth] [DecidableEq ι] in
private theorem stored_sublist (history : List (Record ι M)) : (stored history).Sublist (offered history) := by
  induction history with
  | nil => exact .slnil
  | cons record history ih =>
    simp only [stored, offered, List.filterMap_cons] at ih ⊢
    cases stores : record.stores with
    | some registration =>
      rw [stores_offers stores]
      exact ih.cons_cons registration
    | none =>
      cases record.request.offers with
      | none => exact ih
      | some registration => exact ih.cons registration

/-- Whom a send calls: everyone in the table, in its order. -/
theorem sent_table (run : Reaches step Free (initial : State ι M) state)
    (split : state.history = earlier ++ record :: later) {messages : List M}
    (sends : record.request = .notifyMany messages) :
    ∃ table : List (Registration ι), table.Nodup ∧
      record.calls <+: (table.map fun registration => (registration, messages)) ∧
      (∀ value, record.outcome = some (.ok value) →
        record.calls = table.map fun registration => (registration, messages)) ∧
      (∀ registration ∈ table, registration ∈ stored earlier) ∧
      ((∀ other ∈ earlier, other.request ≠ .close) → ∀ registration ∈ stored earlier,
        denied registration earlier = false → registration ∈ table) := by
  obtain ⟨before, after, _, tells, stands⟩ := reaches_prefix run split (.inr (by rw [sends]; rfl))
  cases before with
  | closed =>
    obtain ⟨_, silent, _⟩ := tells_closed tells
    obtain ⟨close, member, request⟩ := stands
    refine ⟨[], List.nodup_nil, by simp [silent], fun _ _ => silent, fun _ member => absurd member List.not_mem_nil, ?_⟩
    intro unclosed
    exact absurd request (unclosed close member)
  | opened raw =>
    obtain ⟨table, _⟩ := stands
    obtain ⟨told, count, pending, _, sent⟩ := tells_sent tells sends
    refine ⟨members raw, table.distinct, ?_, ?_, table.stored, ?_⟩
    · rw [sent.calls, callsOf]
      exact (List.take_prefix count _).map _
    · intro value returned
      rw [sent.calls, callsOf, sent.complete value returned, ← members_length, List.take_length]
    · intro _ registration member spared
      apply table.kept registration member
      rw [← denied_iff, spared]
      exact Bool.false_ne_true

/-- A send calls the listeners in the order of the table, each once and with its
messages, and all of them if it returns. The table has every listener that was
stored before and never answered false. What one thread sends arrives in order: it
begins a send when its last one has ended. -/
theorem sends_deliver (run : Reaches step Free (initial : State ι M) state)
    (split : state.history = earlier ++ record :: later) {messages : List M}
    (sends : record.request = .notifyMany messages) :
    (∀ other ∈ earlier, other.thread = record.thread → other.outcome ≠ none) ∧
    ∃ table : List (Registration ι), table.Nodup ∧
      record.calls <+: (table.map fun registration => (registration, messages)) ∧
      (∀ value, record.outcome = some (.ok value) →
        record.calls = table.map fun registration => (registration, messages)) ∧
      (∀ registration ∈ table, registration ∈ stored earlier) ∧
      ((∀ other ∈ earlier, other.request ≠ .close) → ∀ registration ∈ stored earlier,
        denied registration earlier = false → registration ∈ table) := by
  refine ⟨?_, sent_table run split sends⟩
  intro other member same unended
  have done := earlier_finished run split other member (.inr same)
  simp [Record.running, unended] at done

omit [VecGrowth] in
theorem sends_deliver_crossing : ∃ record : Record Char Nat, record.thread = 1 ∧ record.outcome = some (.ok none) ∧
    ∃ table : List (Registration Char), table.Nodup ∧ table.length = 2 ∧
      record.calls = table.map fun registration => (registration, [8]) := by
  have run : ∃ (state : State Char Nat) (earlier later : List (Record Char Nat)) (record : Record Char Nat),
      Transition.exec (@step _ _ .usual) crossing initial = some state ∧
        state.history = earlier ++ record :: later ∧ record.request = .notifyMany [8] ∧ record.thread = 1 ∧
        record.outcome = some (.ok none) ∧ record.calls.length = 2 := by
    refine ⟨_, [_, _, _], [], _, rfl, rfl, rfl, rfl, rfl, rfl⟩
  obtain ⟨state, earlier, later, record, executed, split, sends, thread, returned, two⟩ := run
  obtain ⟨_, table, distinct, _, complete, _, _⟩ :=
    @sends_deliver _ _ .usual _ _ _ _ _ (Transition.exec_reaches executed) split _ sends
  have all := complete none returned
  refine ⟨record, thread, returned, table, distinct, ?_, all⟩
  rw [← two, all, List.length_map]

/-- `count` counts the listeners that were stored and have never answered false, the
answers it has asked for itself included; a closed notifier has none. -/
theorem count_exact (run : Reaches step Free (initial : State ι M) state)
    (split : state.history = earlier ++ record :: later) (counts : record.request = .count) {total : Nat}
    (returned : record.outcome = some (.ok (some total))) :
    ((∃ other ∈ earlier, other.request = .close) → total = 0) ∧
    ((∀ other ∈ earlier, other.request ≠ .close) → total =
      ((stored earlier).filter fun registration => !denied registration (earlier ++ [record])).length) := by
  have done : record.running = false := by simp [Record.running, returned]
  have writes : record.request.sends = false := by rw [counts]; rfl
  obtain ⟨before, after, _, tells, stands⟩ := reaches_prefix run split (.inl done)
  obtain ⟨outcome, ended, ran⟩ := tells_ran tells writes
  cases returned.symm.trans ended
  cases before with
  | closed =>
    rw [counts] at ran
    obtain ⟨same, _⟩ := Result.ok.inj (Prod.mk.inj ran).2
    cases same
    refine ⟨fun _ => rfl, ?_⟩
    intro unclosed
    obtain ⟨close, member, request⟩ := stands
    exact absurd request (unclosed close member)
  | opened raw =>
    obtain ⟨table, unclosed⟩ := stands
    constructor
    · intro closed
      obtain ⟨close, member, request⟩ := closed
      exact absurd request (unclosed close member)
    intro _
    obtain ⟨left, _, treats, exact_⟩ := count_treats counts ended ran table.distinct
    obtain ⟨rfl, alive⟩ := exact_ total rfl
    have fresh := reaches_fresh run
    rw [split, offered, List.filterMap_append, List.nodup_append] at fresh
    have nothing : record.stores = none := by simp [Record.stores, counts]
    have counted := table.append treats (by simp [counts, Request.offers])
    have finished : ∀ other ∈ earlier ++ [record], other.running = false := by
      intro other member
      rcases List.mem_append.mp member with member | member
      · exact earlier_finished run split other member (.inl writes)
      · rw [List.mem_singleton] at member
        rwa [member]
    have same : (members left).Perm
        ((stored earlier).filter fun registration => !denied registration (earlier ++ [record])) := by
      rw [List.perm_ext_iff_of_nodup counted.distinct ((stored_sublist earlier).nodup fresh.1 |>.filter _)]
      intro registration
      rw [List.mem_filter, Bool.not_eq_true', ← Bool.not_eq_true, denied_iff]
      constructor
      · intro member
        have stored := stored_append.mp (counted.stored registration member)
        simp only [nothing, reduceCtorEq, or_false] at stored
        obtain ⟨entry, inside, rfl⟩ := List.mem_map.mp member
        exact ⟨stored, counted.honest finished entry inside (alive entry inside)⟩
      · intro both
        obtain ⟨member, spared⟩ := both
        exact counted.kept registration (stored_append.mpr (.inl member)) spared
    rw [← same.length_eq, members_length]

/-- `crossing`, and then a count, `close`, and a send that comes too late. -/
def settling : List (Action Char Nat) := crossing ++
  [.call 2 .count, .advance 2, .advance 2, .answer 2 (.ok true), .advance 2, .call 0 .close, .call 1 (.notifyMany [9])]

omit [VecGrowth] in
theorem count_exact_settling : ∃ (earlier : List (Record Char Nat)) (record : Record Char Nat),
    record.outcome = some (.ok (some 1)) ∧ (stored earlier).length = 2 ∧
      1 = ((stored earlier).filter fun registration => !denied registration (earlier ++ [record])).length := by
  have run : ∃ (state : State Char Nat) (earlier later : List (Record Char Nat)) (record : Record Char Nat),
      Transition.exec (@step _ _ .usual) settling initial = some state ∧
        state.history = earlier ++ record :: later ∧ record.request = .count ∧
        record.outcome = some (.ok (some 1)) ∧ (stored earlier).length = 2 ∧
        ∀ other ∈ earlier, other.request ≠ .close := by
    refine ⟨_, [_, _, _, _], [_, _], _, rfl, rfl, rfl, rfl, rfl, ?_⟩
    decide
  obtain ⟨state, earlier, later, record, executed, split, counts, returned, two, unclosed⟩ := run
  exact ⟨earlier, record, returned, two,
    (@count_exact _ _ .usual _ _ _ _ _ (Transition.exec_reaches executed) split counts _ returned).2 unclosed⟩

end Counting

/-- `close` waits for every use before it, and no listener is called after it. -/
theorem close_final (run : Reaches step Free (initial : State ι M) state)
    (split : state.history = earlier ++ record :: later) (closes : record.request = .close) :
    (∀ other ∈ earlier, other.outcome ≠ none) ∧ (∀ other ∈ later, other.calls = [] ∧ other.outcome ≠ none) ∧
      state.notifier = .closed := by
  have writes : record.request.sends = false := by rw [closes]; rfl
  have valid := reaches_valid run
  have ended : ∀ other : Record ι M, other.running = false → other.outcome ≠ none := by
    intro other done unended
    simp [Record.running, unended] at done
  have closed : ∀ {records last}, Sequenced (Tells state.threads) .new (earlier ++ record :: records) last →
      last = .closed ∧ ∀ other ∈ records, other.calls = [] ∧ other.running = false := by
    intro records last whole
    obtain ⟨before, after, _, tells, late⟩ := whole.split_cons
    obtain ⟨outcome, _, ran⟩ := tells_ran tells writes
    have shut : after = .closed := by
      rw [closes] at ran
      exact (congrArg Prod.fst ran).symm
    subst shut
    apply late.invariant (fun records notifier => notifier = .closed ∧
      ∀ other ∈ records, other.calls = [] ∧ other.running = false) ⟨rfl, by simp⟩
    intro done other rest first next _ tells quiet
    obtain ⟨shut, silent⟩ := quiet
    subst shut
    obtain ⟨shut, calls, past⟩ := tells_closed tells
    refine ⟨shut, ?_⟩
    intro any member
    rcases List.mem_append.mp member with member | member
    · exact silent any member
    · rw [List.mem_singleton] at member
      subst member
      exact ⟨calls, past⟩
  refine ⟨fun other member => ended other (earlier_finished run split other member (.inl writes)), ?_⟩
  cases writer : state.lock.writer with
  | none =>
    have told := valid.told writer
    rw [split] at told
    obtain ⟨shut, silent⟩ := closed told
    exact ⟨fun other member => ⟨(silent other member).1, ended other (silent other member).2⟩, shut⟩
  | some thread =>
    -- a writer in the lock would work on a notifier that was open when it got there
    obtain ⟨others, newest, before, raw, writing⟩ := valid.writes thread writer
    have shape := split.symm.trans writing.history
    rcases List.eq_nil_or_concat later with rfl | ⟨front, last, rfl⟩
    · obtain ⟨_, same⟩ := List.append_inj' shape rfl
      cases same
      exact absurd closes writing.opens.2
    · rw [List.concat_eq_append, ← List.cons_append, ← List.append_assoc] at shape
      obtain ⟨same, _⟩ := List.append_inj' shape rfl
      subst same
      have told := writing.serial.mono (S := Tells state.threads) fun other member _ _ explains =>
        .explained (writing.finished other member) explains
      exact absurd (closed told).1 writing.opens.1

omit [VecGrowth] in
theorem close_final_settling : ∃ (state : State Char Nat) (later : List (Record Char Nat)),
    later.length = 1 ∧ (∀ other ∈ later, other.calls = [] ∧ other.outcome ≠ none) ∧ state.notifier = .closed := by
  have run : ∃ (state : State Char Nat) (earlier later : List (Record Char Nat)) (record : Record Char Nat),
      Transition.exec (@step _ _ .usual) settling initial = some state ∧
        state.history = earlier ++ record :: later ∧ record.request = .close ∧ later.length = 1 :=
    ⟨_, [_, _, _, _, _], [_], _, rfl, rfl, rfl, rfl⟩
  obtain ⟨state, earlier, later, record, executed, split, closes, one⟩ := run
  obtain ⟨_, silent, closed⟩ :=
    @close_final _ _ .usual _ _ _ _ (Transition.exec_reaches executed) split closes
  exact ⟨state, later, one, silent, closed⟩

end Runs

end Nosy.SharedNotifier
