import Nosy.Proofs.SharedNotifierSerial

/-! What each use of a shared notifier does to its table, whatever the listeners
answer, and when they panic. -/

namespace Nosy.SharedNotifier
open EStateM (Result)
open RetainSwap (retain swapRemove)

variable {ι M : Type}

/-- One of these calls was answered false. -/
def Denies (replies : List ((Registration ι × List M) × Answer)) (registration : Registration ι) : Prop :=
  ∃ messages, ((registration, messages), .ok false) ∈ replies

private theorem denies_nil (registration : Registration ι) :
    ¬ Denies ([] : List ((Registration ι × List M) × Answer)) registration := by
  intro denies
  obtain ⟨messages, member⟩ := denies
  exact List.not_mem_nil member

private theorem denies_append (first second : List ((Registration ι × List M) × Answer))
    (registration : Registration ι) :
    Denies (first ++ second) registration ↔ Denies first registration ∨ Denies second registration := by
  simp only [Denies, List.mem_append, exists_or]

private theorem denies_singleton (call : Registration ι × List M) (answer : Answer) (registration : Registration ι) :
    Denies [(call, answer)] registration ↔ call.1 = registration ∧ answer = .ok false := by
  constructor
  · intro denies
    obtain ⟨messages, member⟩ := denies
    rw [List.mem_singleton] at member
    cases member
    exact ⟨rfl, rfl⟩
  · intro refusal
    obtain ⟨same, refused⟩ := refusal
    subst same refused
    exact ⟨call.2, List.mem_singleton_self _⟩

/-- `drop_dead_listeners` keeps what is alive and says so, and removes what says no. -/
structure Swept (entries : List (NotifierEntry (Registration ι)))
    (replies : List ((Registration ι × List M) × Answer)) (left : List (NotifierEntry (Registration ι))) : Prop where
  subset : ∀ entry ∈ left, entry ∈ entries
  distinct : (left.map (·.listener)).Nodup
  kept : ∀ entry ∈ entries, entry.wasAlive = true → ¬ Denies replies entry.listener → entry ∈ left
  gone : ∀ entry ∈ left, ¬ Denies replies entry.listener
  asked : ∀ registration, Denies replies registration → registration ∈ entries.map (·.listener)

section Sweeping
variable {entries left : List (NotifierEntry (Registration ι))} {replies : List ((Registration ι × List M) × Answer)}
  {item : NotifierEntry (Registration ι)} {index : Nat}

private theorem Swept.refl (distinct : (entries.map (·.listener)).Nodup) :
    Swept entries ([] : List ((Registration ι × List M) × Answer)) entries := by
  exact ⟨fun _ member => member, distinct, fun _ member _ _ => member, fun _ _ => denies_nil _,
    fun _ denied => absurd denied (denies_nil _)⟩

private theorem Swept.heard {call : Registration ι × List M} {answer : Answer} (swept : Swept entries replies left)
    (spared : answer ≠ .ok false) : Swept entries (replies ++ [(call, answer)]) left := by
  have same : ∀ registration, Denies (replies ++ [(call, answer)]) registration ↔ Denies replies registration := by
    intro registration
    simp [denies_append, denies_singleton, spared]
  refine ⟨swept.subset, swept.distinct, ?_, ?_, ?_⟩
  · intro entry member alive spared
    exact swept.kept entry member alive (fun denied => spared ((same _).mpr denied))
  · intro entry member denied
    exact swept.gone entry member ((same _).mp denied)
  · intro registration denied
    exact swept.asked registration ((same _).mp denied)

private theorem Swept.removed {later : List ((Registration ι × List M) × Answer)} (swept : Swept entries replies left)
    (found : left[index]? = some item) (dead : item.wasAlive = true → Denies later item.listener)
    (only : ∀ registration, Denies later registration → registration = item.listener) :
    Swept entries (replies ++ later) (swapRemove left index) := by
  have permuted := RetainSwap.swapRemove_perm found
  have distinct := (permuted.map (·.listener)).nodup_iff.mp swept.distinct
  rw [List.map_cons, List.nodup_cons] at distinct
  have still : ∀ entry ∈ swapRemove left index, entry ∈ left := fun entry member =>
    permuted.mem_iff.mpr (List.mem_cons_of_mem _ member)
  refine ⟨fun entry member => swept.subset entry (still entry member), distinct.2, ?_, ?_, ?_⟩
  · intro entry member alive spared
    rw [denies_append] at spared
    have present := swept.kept entry member alive (fun denied => spared (.inl denied))
    rcases List.mem_cons.mp (permuted.mem_iff.mp present) with rfl | present
    · exact absurd (.inr (dead alive)) spared
    · exact present
  · intro entry member denied
    rcases (denies_append _ _ _).mp denied with denied | denied
    · exact swept.gone entry (still entry member) denied
    · apply distinct.1
      rw [← only entry.listener denied]
      exact List.mem_map_of_mem member
  · intro registration denied
    rcases (denies_append _ _ _).mp denied with denied | denied
    · exact swept.asked registration denied
    · rw [only registration denied]
      exact List.mem_map_of_mem (swept.subset item (List.mem_of_getElem? found))

/-- Where the loop stands, and which answers it has used up. -/
structure Sweeping (answers : List Answer) (calls : List (Registration ι × List M))
    (entries : List (NotifierEntry (Registration ι))) (index : Nat) (left : List (NotifierEntry (Registration ι)))
    (script : Script ι M) (used : List Answer) (made : List (Registration ι × List M)) : Prop where
  answers : answers = used ++ script.answers
  calls : script.calls = calls ++ made
  paired : used.length = made.length
  swept : Swept entries (made.zip used) left
  passed : ∀ entry ∈ left.take index, entry.wasAlive = true

private theorem zip_snoc {used : List Answer} {made : List (Registration ι × List M)}
    (paired : used.length = made.length)
    (answer : Answer) (call : Registration ι × List M) :
    (made ++ [call]).zip (used ++ [answer]) = made.zip used ++ [(call, answer)] := by
  rw [List.zip_append paired.symm]
  rfl

variable {answers used : List Answer} {calls made : List (Registration ι × List M)} {before after : Script ι M}

private theorem Sweeping.keep (sweeping : Sweeping answers calls entries index left before used made)
    (found : left[index]? = some item) (asked : RawNotifier.stillAlive recite item before = .ok true after) :
    ∃ used made, Sweeping answers calls entries (index + 1) left after used made := by
  unfold RawNotifier.stillAlive at asked
  split at asked
  next alive =>
    obtain ⟨future, begun⟩ := before
    unfold recite at asked
    rcases answers_cases future with rfl | ⟨message, rest, rfl⟩ | ⟨rest, rfl⟩ | ⟨rest, rfl⟩ <;> cases asked
    · refine ⟨used ++ [.ok true], made ++ [(item.listener, [])], ?_, ?_, ?_, ?_, ?_⟩
      · simpa using sweeping.answers
      · simpa using congrArg (· ++ [(item.listener, [])]) sweeping.calls
      · simpa using sweeping.paired
      · rw [zip_snoc sweeping.paired]
        exact sweeping.swept.heard (by simp)
      · intro entry member
        obtain ⟨inside, rfl⟩ := List.getElem?_eq_some_iff.mp found
        rw [List.take_succ_eq_append_getElem inside, List.mem_append, List.mem_singleton] at member
        rcases member with member | rfl
        · exact sweeping.passed entry member
        · exact alive
  · cases asked

private theorem Sweeping.drop (sweeping : Sweeping answers calls entries index left before used made)
    (found : left[index]? = some item) (asked : RawNotifier.stillAlive recite item before = .ok false after) :
    ∃ used made, Sweeping answers calls entries index (swapRemove left index) after used made := by
  have passed : ∀ entry ∈ (swapRemove left index).take index, entry.wasAlive = true := by
    rw [RetainSwap.swapRemove_take found]
    exact sweeping.passed
  unfold RawNotifier.stillAlive at asked
  split at asked
  next alive =>
    obtain ⟨future, begun⟩ := before
    unfold recite at asked
    rcases answers_cases future with rfl | ⟨message, rest, rfl⟩ | ⟨rest, rfl⟩ | ⟨rest, rfl⟩ <;> cases asked
    · refine ⟨used ++ [.ok false], made ++ [(item.listener, [])], ?_, ?_, ?_, ?_, passed⟩
      · simpa using sweeping.answers
      · simpa using congrArg (· ++ [(item.listener, [])]) sweeping.calls
      · simpa using sweeping.paired
      · rw [zip_snoc sweeping.paired]
        apply sweeping.swept.removed found
        · intro _
          exact (denies_singleton _ _ _).mpr ⟨rfl, rfl⟩
        · intro registration denied
          exact ((denies_singleton _ _ _).mp denied).1.symm
  next dead =>
    cases asked
    have removed : Swept entries (made.zip used ++ []) (swapRemove left index) := by
      apply sweeping.swept.removed found
      · intro alive
        exact absurd alive dead
      · intro registration denies
        exact absurd denies (denies_nil _)
    rw [List.append_nil] at removed
    exact ⟨used, made, sweeping.answers, sweeping.calls, sweeping.paired, removed, passed⟩

/-- The loop as a whole: it ends, or the answers run out, or a listener panics. -/
structure Performed (entries left : List (NotifierEntry (Registration ι))) (answers : List Answer)
    (calls : List (Registration ι × List M)) (last : Script ι M) (used : List Answer)
    (made : List (Registration ι × List M)) : Prop where
  answers : answers = used ++ last.answers
  calls : last.calls = calls ++ made
  paired : used.length ≤ made.length
  swept : Swept entries (made.zip used) left

private theorem retain_recites {result : Result Failure (Script ι M) Unit}
    (distinct : (entries.map (·.listener)).Nodup)
    (looped : retain (RawNotifier.stillAlive recite) entries.length 0 entries ⟨answers, calls⟩ = (left, result)) :
    match result with
    | .ok () last => (∀ entry ∈ left, entry.wasAlive = true) ∧
        ∃ used made, Performed entries left answers calls last used made
    | .error _ last => ∃ used made, Performed entries left answers calls last used made := by
  have initial : Sweeping answers calls entries 0 entries ⟨answers, calls⟩ [] [] :=
    ⟨rfl, (List.append_nil calls).symm, rfl, .refl distinct, fun _ member => absurd member List.not_mem_nil⟩
  have rule : RetainSwap.Ends (RawNotifier.stillAlive recite)
      (fun index left script => ∃ used made, Sweeping answers calls entries index left script used made)
      (retain (RawNotifier.stillAlive recite) entries.length 0 entries ⟨answers, calls⟩) := by
    refine RetainSwap.retain_rule _ (by omega) ⟨[], [], initial⟩ ?_ ?_
    · intro _ _ _ _ _ found asked reached
      obtain ⟨_, _, sweeping⟩ := reached
      exact sweeping.keep found asked
    · intro _ _ _ _ _ found asked reached
      obtain ⟨_, _, sweeping⟩ := reached
      exact sweeping.drop found asked
  rw [looped] at rule
  cases result with
  | ok _ last =>
    obtain ⟨stop, beyond, used, made, sweeping⟩ := rule
    refine ⟨?_, used, made, sweeping.answers, sweeping.calls, Nat.le_of_eq sweeping.paired, sweeping.swept⟩
    intro entry member
    apply sweeping.passed
    rwa [List.take_of_length_le beyond]
  | error failure last =>
    obtain ⟨stop, item, ⟨future, begun⟩, found, asked, used, made, sweeping⟩ := rule
    have paired := sweeping.paired
    have calls := congrArg (· ++ [(item.listener, [])]) sweeping.calls
    unfold RawNotifier.stillAlive at asked
    split at asked
    next alive =>
      unfold recite at asked
      rcases answers_cases future with rfl | ⟨message, rest, rfl⟩ | ⟨rest, rfl⟩ | ⟨rest, rfl⟩ <;> cases asked
      · refine ⟨used, made ++ [(item.listener, [])], sweeping.answers, by simpa using calls, by simp [paired], ?_⟩
        have same : (made ++ [(item.listener, [])]).zip used = made.zip used := by
          conv_lhs => rw [← List.append_nil used]
          rw [List.zip_append paired.symm]
          simp
        rw [same]
        exact sweeping.swept
      · refine ⟨used ++ [.error message], made ++ [(item.listener, [])], by simpa using sweeping.answers,
          by simpa using calls, by simp [paired], ?_⟩
        rw [zip_snoc paired]
        exact sweeping.swept.heard (by simp)
    · cases asked

end Sweeping

/-- What one use does to an open notifier that stays open. -/
structure Treats (record : Record ι M) (before after : RawNotifier (Registration ι)) : Prop where
  members : ∀ registration ∈ members after, registration ∈ members before ∨ record.stores = some registration
  distinct : (SharedNotifier.members after).Nodup
  added : ∀ registration, record.stores = some registration → registration ∈ SharedNotifier.members after
  kept : ∀ entry ∈ before.listeners, entry.wasAlive = true → ¬ Denies record.replies entry.listener →
    entry.listener ∈ SharedNotifier.members after
  cleared : ∀ entry ∈ after.listeners, entry.wasAlive = false → Denies record.replies entry.listener ∨
    ∃ old ∈ before.listeners, old.listener = entry.listener ∧ old.wasAlive = false
  honest : record.running = false → ∀ entry ∈ after.listeners, entry.wasAlive = true →
    ¬ Denies record.replies entry.listener ∧
      ((∃ old ∈ before.listeners, old.listener = entry.listener ∧ old.wasAlive = true) ∨
        record.stores = some entry.listener)
  asked : ∀ registration, Denies record.replies registration →
    registration ∈ SharedNotifier.members before ∨ record.request.offers = some registration

theorem stores_offers {record : Record ι M} {registration : Registration ι}
    (stores : record.stores = some registration) : record.request.offers = some registration := by
  obtain ⟨thread, request, calls, answers, outcome⟩ := record
  unfold Record.stores at stores
  split at stores
  next request outcome answers =>
    cases stores
    rw [request]
    rfl
  · cases stores

/-- A sweep, after what came first, and with what is pushed at the end. -/
private theorem Swept.treats {record : Record ι M} {before after : RawNotifier (Registration ι)}
    {left : List (NotifierEntry (Registration ι))} {first later : List ((Registration ι × List M) × Answer)}
    (swept : Swept before.listeners later left) (replies : record.replies = first ++ later)
    (fresh : ∀ registration, record.request.offers = some registration → registration ∉ members before)
    (offered : ∀ registration, Denies first registration →
      record.request.offers = some registration ∧ record.stores = none)
    (listeners : after.listeners = left ++ record.stores.toList.map fun registration => ⟨registration, true⟩) :
    Treats record before after := by
  have shape : ∀ registration, registration ∈ members after ↔
      registration ∈ left.map (·.listener) ∨ record.stores = some registration := by
    intro registration
    simp [members, listeners]
  have entries : ∀ entry, entry ∈ after.listeners ↔ entry ∈ left ∨ ∃ registration, record.stores = some registration ∧
      entry = ⟨registration, true⟩ := by
    intro entry
    simp [listeners, eq_comm]
  have old : ∀ registration ∈ left.map (·.listener), registration ∈ members before := by
    intro registration member
    obtain ⟨entry, inside, rfl⟩ := List.mem_map.mp member
    exact List.mem_map_of_mem (swept.subset entry inside)
  constructor
  · intro registration member
    exact ((shape registration).mp member).imp_left (old registration)
  · have split : members after = left.map (·.listener) ++ record.stores.toList := by
      simp [members, listeners, Function.comp_def]
    rw [split, List.nodup_append]
    refine ⟨swept.distinct, ?_, ?_⟩
    · cases record.stores <;> simp
    · intro first member second pushed same
      rw [Option.mem_toList] at pushed
      subst same
      exact fresh first (stores_offers pushed) (old first member)
  · intro registration stores
    exact (shape registration).mpr (.inr stores)
  · intro entry member alive spared
    apply (shape _).mpr
    left
    apply List.mem_map_of_mem
    apply swept.kept entry member alive
    intro denied
    apply spared
    rw [replies, denies_append]
    exact .inr denied
  · intro entry member dead
    rcases (entries entry).mp member with member | ⟨registration, _, rfl⟩
    · exact .inr ⟨entry, swept.subset entry member, rfl, dead⟩
    · cases dead
  · intro _ entry member alive
    rw [replies, denies_append]
    rcases (entries entry).mp member with member | ⟨registration, stores, rfl⟩
    · refine ⟨?_, .inl ⟨entry, swept.subset entry member, rfl, alive⟩⟩
      rintro (denied | denied)
      · exact fresh _ (offered _ denied).1 (old _ (List.mem_map_of_mem member))
      · exact swept.gone entry member denied
    · refine ⟨?_, .inr stores⟩
      rintro (denied | denied)
      · rw [(offered _ denied).2] at stores
        cases stores
      · exact fresh _ (stores_offers stores) (swept.asked _ denied)
  · intro registration denied
    rw [replies, denies_append] at denied
    rcases denied with denied | denied
    · exact .inr (offered registration denied).1
    · exact .inl (swept.asked registration denied)

private theorem untouched {record : Record ι M} {raw : RawNotifier (Registration ι)} (distinct : (members raw).Nodup)
    (fresh : ∀ registration, record.request.offers = some registration → registration ∉ members raw)
    (nothing : record.stores = none)
    (offered : ∀ registration, Denies record.replies registration → record.request.offers = some registration) :
    Treats record raw raw := by
  apply (Swept.refl distinct).treats (List.append_nil record.replies).symm fresh
  · intro registration denied
    exact ⟨offered registration denied, nothing⟩
  · simp [nothing]

section Writers
variable [VecGrowth] {raw : RawNotifier (Registration ι)} {after : Notifier (Registration ι)} {record : Record ι M}
  {answers : List Answer} {calls all : List (Registration ι × List M)} {outcome : Outcome}

private theorem sweep_ends {goal : Goal ι} (distinct : (members raw).Nodup)
    (swept : sweep goal 0 raw ⟨answers, calls⟩ = (after, outcome.result ⟨[], all⟩)) :
    ∃ left made, all = calls ++ made ∧ Swept raw.listeners (made.zip answers) left ∧
      ((∃ failure, outcome = .error failure ∧ after = .opened { raw with listeners := left }) ∨
        (∀ entry ∈ left, entry.wasAlive = true) ∧
          match goal with
          | .store registration => outcome = .ok none ∧
            after = .opened (RawNotifier.push { raw with listeners := left } ⟨registration, true⟩)
          | .tally => outcome = .ok (some left.length) ∧ after = .opened { raw with listeners := left }) := by
  rw [sweep, Nat.sub_zero] at swept
  rcases looped : retain (RawNotifier.stillAlive recite) raw.listeners.length 0 raw.listeners
    ⟨answers, calls⟩ with ⟨left, result⟩
  have performed := retain_recites distinct looped
  rw [looped] at swept
  cases result with
  | error failure last =>
    obtain ⟨used, made, performed⟩ := performed
    cases outcome with
    | ok value => cases swept
    | error raised =>
      cases swept
      have same : answers = used := by simpa using performed.answers
      subst same
      exact ⟨left, made, performed.calls, performed.swept, .inl ⟨failure, rfl, rfl⟩⟩
  | ok _ last =>
    obtain ⟨alive, used, made, performed⟩ := performed
    have same : ∀ script, script = last → script.answers = ([] : List Answer) → answers = used := by
      intro script same empty
      subst same
      simpa [empty] using performed.answers
    cases goal with
    | store registration =>
      cases outcome with
      | error raised => cases swept
      | ok value =>
        cases swept
        have same := same _ rfl rfl
        subst same
        exact ⟨left, made, performed.calls, performed.swept, .inr ⟨alive, rfl, rfl⟩⟩
    | tally =>
      cases outcome with
      | error raised => cases swept
      | ok value =>
        cases swept
        have same := same _ rfl rfl
        subst same
        exact ⟨left, made, performed.calls, performed.swept, .inr ⟨alive, rfl, rfl⟩⟩

theorem count_treats (request : record.request = .count) (ended : record.outcome = some outcome)
    (ran : record.request.run recite (.opened raw) ⟨record.answers, []⟩ = (after, outcome.result ⟨[], record.calls⟩))
    (distinct : (members raw).Nodup) :
    ∃ left, after = .opened left ∧ Treats record raw left ∧ ∀ total, outcome = .ok (some total) →
      total = left.listeners.length ∧ ∀ entry ∈ left.listeners, entry.wasAlive = true := by
  obtain ⟨thread, _, calls, answers, _⟩ := record
  dsimp only at request ended
  subst request ended
  rw [start_remaining rfl rfl] at ran
  obtain ⟨left, made, shape, swept, ends⟩ := sweep_ends distinct ran
  rw [List.nil_append] at shape
  subst made
  have replies : (⟨thread, .count, calls, answers, some outcome⟩ : Record ι M).replies = [] ++ calls.zip answers := rfl
  have treats : Treats (⟨thread, .count, calls, answers, some outcome⟩ : Record ι M) raw
      { raw with listeners := left } := by
    apply swept.treats replies
    · intro registration offered
      cases offered
    · intro registration denies
      exact absurd denies (denies_nil _)
    · exact (List.append_nil left).symm
  rcases ends with ⟨failure, rfl, rfl⟩ | ⟨alive, rfl, rfl⟩
  · refine ⟨_, rfl, treats, ?_⟩
    intro total returned
    cases returned
  · refine ⟨_, rfl, treats, ?_⟩
    intro total returned
    cases returned
    exact ⟨rfl, alive⟩

theorem listen_treats {registration : Registration ι} (request : record.request = .listen registration)
    (ended : record.outcome = some outcome)
    (ran : record.request.run recite (.opened raw) ⟨record.answers, []⟩ = (after, outcome.result ⟨[], record.calls⟩))
    (distinct : (members raw).Nodup) (fresh : registration ∉ members raw) :
    ∃ left, after = .opened left ∧ Treats record raw left := by
  obtain ⟨thread, _, calls, answers, _⟩ := record
  dsimp only at request ended
  subst request ended
  rw [start_remaining rfl rfl] at ran
  have fresh : ∀ offered, (Request.listen registration : Request ι M).offers = some offered → offered ∉ members raw := by
    intro offered same
    cases same
    exact fresh
  simp only [Phase.remaining, heard] at ran
  rcases answers_cases answers with rfl | ⟨message, rest, rfl⟩ | ⟨rest, rfl⟩ | ⟨rest, rfl⟩
  · cases outcome with
    | ok value => cases ran
    | error failure =>
      cases ran
      refine ⟨raw, rfl, untouched distinct fresh rfl ?_⟩
      intro offered denied
      exact absurd denied (denies_nil _)
  · cases outcome with
    | ok value => cases ran
    | error failure =>
      cases ran
      refine ⟨raw, rfl, untouched distinct fresh rfl ?_⟩
      intro offered denied
      cases ((denies_singleton _ _ _).mp denied).2
  · have spared : ∀ offered, Denies [((registration, ([] : List M)), .ok true)] offered →
        (Request.listen registration : Request ι M).offers = some offered ∧
          (⟨thread, .listen registration, calls, .ok true :: rest, some outcome⟩ : Record ι M).stores = none := by
      intro offered denied
      cases ((denies_singleton _ _ _).mp denied).2
    dsimp only at ran
    by_cases full : raw.listeners.length ≥ raw.capacity
    · simp only [full, if_true] at ran
      obtain ⟨left, made, shape, swept, ends⟩ := sweep_ends distinct ran
      subst shape
      rcases ends with ⟨failure, rfl, rfl⟩ | ⟨alive, rfl, rfl⟩
      · exact ⟨_, rfl, swept.treats rfl fresh spared (List.append_nil left).symm⟩
      · exact ⟨_, rfl, swept.treats rfl fresh spared rfl⟩
    · simp only [full, if_false, if_true] at ran
      cases outcome with
      | error failure => cases ran
      | ok value =>
        cases ran
        exact ⟨_, rfl, (Swept.refl distinct).treats rfl fresh spared rfl⟩
  · cases outcome with
    | error failure => cases ran
    | ok value =>
      cases ran
      refine ⟨raw, rfl, untouched distinct fresh rfl ?_⟩
      intro offered denied
      rw [← ((denies_singleton _ _ _).mp denied).1]
      rfl

end Writers

/-- What a send has done: called the first entries in order, heard of some of them,
and stored what it heard. -/
structure Sent (record : Record ι M) (messages : List M) (raw : RawNotifier (Registration ι)) (told : List Bool)
    (count : Nat) (pending : List Answer) : Prop where
  heard : told.length ≤ count
  bounded : count ≤ raw.listeners.length
  calls : record.calls = callsOf messages count raw
  answers : record.answers = told.map .ok ++ pending
  /-- An answer is waiting to be stored only while the send is running. -/
  settled : record.running = false → ∀ alive, .ok alive ∉ pending
  complete : ∀ value, record.outcome = some (.ok value) → count = raw.listeners.length

private theorem explains_sent [VecGrowth] {record : Record ι M} {messages : List M} {raw : RawNotifier (Registration ι)}
    {after : Notifier (Registration ι)} {outcome : Outcome} (request : record.request = .notifyMany messages)
    (ended : record.outcome = some outcome)
    (ran : record.request.run recite (.opened raw) ⟨record.answers, []⟩ = (after, outcome.result ⟨[], record.calls⟩)) :
    ∃ told count pending, after = .opened (marked told raw) ∧ Sent record messages raw told count pending := by
  obtain ⟨thread, _, calls, answers, _⟩ := record
  dsimp only at request ended ran
  subst request ended
  obtain ⟨told, ⟨all, rest, rfl⟩ | ⟨fewer, rfl | ⟨message, rest, rfl⟩⟩⟩ := answers_split answers raw.listeners.length
  · rw [send_finished all rest] at ran
    cases outcome with
    | error failure => cases ran
    | ok value =>
      cases ran
      exact ⟨told, told.length, [], rfl, Nat.le_refl _, Nat.le_of_eq all, rfl, rfl, fun _ _ => List.not_mem_nil,
        fun _ _ => all⟩
  · rw [send_unfinished fewer] at ran
    cases outcome with
    | ok value => cases ran
    | error failure =>
      cases ran
      exact ⟨told, told.length + 1, [], rfl, Nat.le_succ _, fewer, rfl, (List.append_nil _).symm,
        fun _ _ => List.not_mem_nil, fun _ same => by cases same⟩
  · rw [send_unwound fewer message rest] at ran
    cases outcome with
    | ok value => cases ran
    | error failure =>
      cases ran
      exact ⟨told, told.length + 1, [.error message], rfl, Nat.le_succ _, fewer, rfl, rfl,
        fun _ _ => by simp, fun _ same => by cases same⟩

theorem tells_sent [VecGrowth] {threads : Nat → Phase ι M} {record : Record ι M} {messages : List M}
    {raw : RawNotifier (Registration ι)} {after : Notifier (Registration ι)}
    (tells : Tells threads record (.opened raw) after) (request : record.request = .notifyMany messages) :
    ∃ told count pending, after = .opened (marked told raw) ∧ Sent record messages raw told count pending := by
  cases tells with
  | explained done explains =>
    cases explains with
    | finished ended ran => exact explains_sent request ended ran
    | unfinished more => simp [Record.running, more] at done
  | @sending batch table told more sent first last sending =>
    cases first
    cases request.symm.trans sent
    have unended : ∀ value, record.outcome ≠ some (.ok value) := by
      intro value ended
      simp [Record.running, ended] at more
    cases phase : threads record.thread with
    | idle | offering | pruning | asking | storing =>
      rw [phase] at sending
      cases sending
    | sending _ index =>
      rw [phase] at sending
      obtain ⟨_, _, bounded, made, answers⟩ := sending
      exact ⟨told, told.length, [], last, Nat.le_refl _, bounded, made, by simpa using answers,
        fun _ _ => List.not_mem_nil, fun value ended => absurd ended (unended value)⟩
    | receiving _ index =>
      rw [phase] at sending
      obtain ⟨_, _, bounded, made, answers⟩ := sending
      exact ⟨told, told.length + 1, [], last, Nat.le_succ _, bounded, made, by simpa using answers,
        fun _ _ => List.not_mem_nil, fun value ended => absurd ended (unended value)⟩
    | marking _ index alive =>
      rw [phase] at sending
      obtain ⟨_, _, bounded, made, answers⟩ := sending
      refine ⟨told, told.length + 1, [.ok alive], last, Nat.le_succ _, bounded, made, by simpa using answers, ?_,
        fun value ended => absurd ended (unended value)⟩
      intro done
      simp [more] at done

/-- What the flags are after a send. -/
private theorem marks_getElem? {L : Type} (told : List Bool) (entries : List (NotifierEntry L)) (index : Nat) :
    (marks told entries)[index]? = (entries[index]?).map fun entry =>
      match told[index]? with
      | some alive => entry.fetchAnd alive
      | none => entry := by
  induction told generalizing entries index with
  | nil => simp [marks_nil]
  | cons alive told ih =>
    cases entries with
    | nil => simp [marks]
    | cons entry entries =>
      cases index with
      | zero => simp [marks]
      | succ index => simpa [marks] using ih entries index

private theorem Sent.denies {record : Record ι M} {messages : List M} {raw : RawNotifier (Registration ι)}
    {told : List Bool}
    {count index : Nat} {pending : List Answer} {entry : NotifierEntry (Registration ι)}
    (sent : Sent record messages raw told count pending) (found : raw.listeners[index]? = some entry)
    (refused : told[index]? = some false) : Denies record.replies entry.listener := by
  obtain ⟨inside, _⟩ := List.getElem?_eq_some_iff.mp refused
  refine ⟨messages, List.mem_iff_getElem?.mpr ⟨index, List.getElem?_zip_eq_some.mpr ⟨?_, ?_⟩⟩⟩
  · rw [sent.calls, callsOf_entries, List.getElem?_map, List.getElem?_take_of_lt (by have := sent.heard; omega), found]
    rfl
  · rw [sent.answers, List.getElem?_append_left (by simpa using inside), List.getElem?_map, refused]
    rfl

/-- Once nothing is waiting to be stored, what was refused is in the flags. -/
private theorem Sent.denied {record : Record ι M} {messages : List M} {raw : RawNotifier (Registration ι)}
    {told : List Bool}
    {count : Nat} {pending : List Answer} {registration : Registration ι}
    (sent : Sent record messages raw told count pending) (settled : ∀ alive, .ok alive ∉ pending)
    (denies : Denies record.replies registration) :
    ∃ index : Nat, told[index]? = some false ∧ (members raw)[index]? = some registration := by
  obtain ⟨batch, member⟩ := denies
  obtain ⟨index, found⟩ := List.mem_iff_getElem?.mp member
  obtain ⟨called, answered⟩ := List.getElem?_zip_eq_some.mp found
  refine ⟨index, ?_, ?_⟩
  · rw [sent.answers, List.getElem?_append] at answered
    split at answered
    · rw [List.getElem?_map] at answered
      obtain ⟨alive, stored, same⟩ := Option.map_eq_some_iff.mp answered
      cases same
      exact stored
    · exact absurd (List.mem_of_getElem? answered) (settled false)
  · rw [sent.calls, callsOf, List.getElem?_map] at called
    obtain ⟨other, taken, same⟩ := Option.map_eq_some_iff.mp called
    cases same
    obtain ⟨inside, _⟩ := List.getElem?_eq_some_iff.mp taken
    rwa [List.getElem?_take_of_lt (by simp at inside; omega)] at taken

theorem Sent.treats {record : Record ι M} {messages : List M} {raw : RawNotifier (Registration ι)} {told : List Bool}
    {count : Nat} {pending : List Answer} (sent : Sent record messages raw told count pending)
    (nothing : record.stores = none) (distinct : (members raw).Nodup) : Treats record raw (marked told raw) := by
  have same := members_marked told raw
  constructor
  · intro registration member
    rw [same] at member
    exact .inl member
  · rwa [same]
  · intro registration stores
    rw [nothing] at stores
    cases stores
  · intro entry member _ _
    rw [same]
    exact List.mem_map_of_mem member
  · intro entry member dead
    obtain ⟨index, found⟩ := List.mem_iff_getElem?.mp member
    rw [marked, marks_getElem?] at found
    obtain ⟨old, present, rfl⟩ := Option.map_eq_some_iff.mp found
    cases stored : told[index]? with
    | none =>
      simp only [stored] at dead ⊢
      exact .inr ⟨old, List.mem_of_getElem? present, rfl, dead⟩
    | some alive =>
      simp only [stored, RawNotifier.fetchAnd_listener] at dead ⊢
      cases alive with
      | false => exact .inl (sent.denies present stored)
      | true =>
        refine .inr ⟨old, List.mem_of_getElem? present, rfl, ?_⟩
        simpa [NotifierEntry.fetchAnd] using dead
  · intro done entry member alive
    obtain ⟨index, found⟩ := List.mem_iff_getElem?.mp member
    rw [marked, marks_getElem?] at found
    obtain ⟨old, present, rfl⟩ := Option.map_eq_some_iff.mp found
    have here : (members raw)[index]? = some old.listener := by
      rw [members, List.getElem?_map, present]
      rfl
    obtain ⟨inside, _⟩ := List.getElem?_eq_some_iff.mp here
    have spared : told[index]? ≠ some false → ¬ Denies record.replies old.listener := by
      intro unmarked denied
      obtain ⟨other, refused, there⟩ := sent.denied (sent.settled done) denied
      rw [(List.getElem?_inj inside distinct).mp (here.trans there.symm)] at unmarked
      exact unmarked refused
    cases stored : told[index]? with
    | none =>
      simp only [stored] at alive ⊢
      exact ⟨spared (by simp [stored]), .inl ⟨old, List.mem_of_getElem? present, rfl, alive⟩⟩
    | some answer =>
      simp only [stored, NotifierEntry.fetchAnd, Bool.and_eq_true] at alive ⊢
      exact ⟨spared (by simp [stored, alive.2]), .inl ⟨old, List.mem_of_getElem? present, rfl, alive.1⟩⟩
  · intro registration denied
    obtain ⟨batch, member⟩ := denied
    have called := (List.of_mem_zip member).1
    rw [sent.calls, callsOf] at called
    obtain ⟨other, taken, same⟩ := List.mem_map.mp called
    cases same
    exact .inl (List.mem_of_mem_take taken)

end Nosy.SharedNotifier
