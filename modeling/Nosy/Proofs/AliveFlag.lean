import Nosy.Proofs.ExactPruning
import Nosy.Proofs.ListenCost

/-! `was_alive` is true iff every call made since the entry was stored has returned
true, in every run in which `RawNotifier::count` has no false answer to record. -/

namespace Nosy.AliveFlag
open RetainSwap RawNotifier
open Broadcast (Accepting table)
open EStateM (Result)

variable {ι M W : Type} [DecidableEq ι] {registration : Registration ι}
variable {calls more : List (Call (Registration ι) M)} {entries updated : List (NotifierEntry (Registration ι))}
variable {asked : List (NotifierEntry (Registration ι) × Bool)} {messages : List M} {registered : Nat}

@[simp] theorem mem_callsOn {call : Call (Registration ι) M} :
    call ∈ callsOn registration calls ↔ call ∈ calls ∧ call.listener = registration := by
  simp [callsOn]

@[simp] theorem callsOn_append :
    callsOn registration (calls ++ more) = callsOn registration calls ++ callsOn registration more :=
  List.filter_append ..

private theorem callsOn_absent (absent : ∀ call ∈ calls, call.listener ≠ registration) : callsOn registration calls = [] := by
  rw [callsOn, List.filter_eq_nil_iff]
  simpa using absent

omit [DecidableEq ι] in
private theorem mem_made {call : Call (Registration ι) M} :
    call ∈ made messages asked ↔ ∃ entry answer, (entry, answer) ∈ asked ∧ call = ⟨entry.listener, messages, answer⟩ := by
  simp [made, eq_comm]

/-- A pass over distinct registrations calls each of them once. -/
theorem answers_iff {entry : NotifierEntry (Registration ι)} {answer : Bool}
    (distinct : (asked.map fun item => item.1.listener).Nodup) (member : (entry, answer) ∈ asked) :
    (∀ call ∈ callsOn entry.listener (made messages asked), call.answer = true) ↔ answer = true := by
  constructor
  · intro all
    exact all ⟨entry.listener, messages, answer⟩ (mem_callsOn.mpr ⟨mem_made.mpr ⟨entry, answer, member, rfl⟩, rfl⟩)
  · intro yes call called
    obtain ⟨inside, same⟩ := mem_callsOn.mp called
    obtain ⟨other, reply, listed, rfl⟩ := mem_made.mp inside
    cases List.inj_on_of_nodup_map distinct listed member same
    exact yes

/-- Entries have registrations of their own, whose first call returned true, and
their flags tell what all their calls have returned. -/
structure Records (entries : List (NotifierEntry (Registration ι))) (calls : List (Call (Registration ι) M))
    (registered : Nat) : Prop where
  distinct : (entries.map (·.listener)).Nodup
  numbered : ∀ entry ∈ entries, entry.listener.number < registered
  logged : ∀ call ∈ calls, call.listener.number < registered
  stored : ∀ entry ∈ entries, ∃ since, callsOn entry.listener calls = ⟨entry.listener, [], true⟩ :: since
  flags : ∀ entry ∈ entries, entry.wasAlive = true ↔ ∀ call ∈ callsOn entry.listener calls, call.answer = true

theorem Records.callsSince_append (records : Records entries calls registered) {entry : NotifierEntry (Registration ι)}
    (member : entry ∈ entries) :
    callsSince entry.listener (calls ++ more) = callsSince entry.listener calls ++ callsOn entry.listener more := by
  obtain ⟨since, shape⟩ := records.stored entry member
  rw [callsSince, callsSince, callsOn_append, shape, List.cons_append, List.tail_cons, List.tail_cons]

theorem Records.faithful {system : System ι M W}
    (records : Records system.handle.entries system.record.calls system.registered) : Faithful system := by
  intro entry member
  obtain ⟨since, shape⟩ := records.stored entry member
  rw [records.flags entry member, callsSince, shape]
  simp

private theorem Records.extend (records : Records entries calls registered)
    (distinct : (updated.map (·.listener)).Nodup)
    (known : ∀ call ∈ more, ∃ entry ∈ entries, entry.listener = call.listener)
    (origin : ∀ entry ∈ updated, ∃ old ∈ entries, old.listener = entry.listener ∧
      (entry.wasAlive = true ↔ old.wasAlive = true ∧ ∀ call ∈ callsOn old.listener more, call.answer = true)) :
    Records updated (calls ++ more) registered := by
  refine ⟨distinct, ?_, ?_, ?_, ?_⟩
  · intro entry member
    obtain ⟨old, stored, same, _⟩ := origin entry member
    rw [← same]
    exact records.numbered old stored
  · intro call member
    rcases List.mem_append.mp member with earlier | later
    · exact records.logged call earlier
    · obtain ⟨entry, stored, same⟩ := known call later
      rw [← same]
      exact records.numbered entry stored
  · intro entry member
    obtain ⟨old, stored, same, _⟩ := origin entry member
    obtain ⟨since, shape⟩ := records.stored old stored
    rw [← same]
    exact ⟨since ++ callsOn old.listener more, by rw [callsOn_append, shape, List.cons_append]⟩
  · intro entry member
    obtain ⟨old, stored, same, flag⟩ := origin entry member
    rw [flag, records.flags old stored, ← same, callsOn_append]
    simp only [List.forall_mem_append]

section Operations
variable {machine : ι → List M → W → Bool × W} {raw after : RawNotifier (Registration ι)}
variable {first last : Recorded (Registration ι) M W}

theorem Records.delivered (records : Records entries first.calls registered)
    (delivered : deliver (receive machine) messages entries first = (updated, .ok () last)) :
    Records updated last.calls registered := by
  obtain ⟨asked, rfl, pass, rfl⟩ := deliver_asks delivered
  have distinct : (asked.map fun item => item.1.listener).Nodup := by
    simpa [Function.comp_def] using records.distinct
  rw [pass_calls pass]
  apply records.extend
  · simpa [Function.comp_def] using distinct
  · intro call called
    obtain ⟨entry, answer, listed, rfl⟩ := mem_made.mp called
    exact ⟨entry, List.mem_map.mpr ⟨_, listed, rfl⟩, rfl⟩
  · intro entry member
    obtain ⟨⟨old, answer⟩, listed, rfl⟩ := List.mem_map.mp member
    refine ⟨old, List.mem_map.mpr ⟨_, listed, rfl⟩, rfl, ?_⟩
    rw [answers_iff distinct listed]
    simp [NotifierEntry.fetchAnd]

/-- A query reaches each entry whose flag is set, and no other. -/
theorem Records.queried (records : Records entries calls registered)
    (same : (asked.map (·.1)).Perm (entries.filter (·.wasAlive))) :
    (asked.map fun item => item.1.listener).Nodup ∧
      (∀ item ∈ asked, item.1 ∈ entries ∧ item.1.wasAlive = true) ∧
      ∀ call ∈ made ([] : List M) asked, ∃ entry ∈ entries, entry.listener = call.listener := by
  have reached : ∀ item ∈ asked, item.1 ∈ entries ∧ item.1.wasAlive = true := by
    intro item listed
    rw [← List.mem_filter, ← same.mem_iff]
    exact List.mem_map.mpr ⟨item, listed, rfl⟩
  refine ⟨?_, reached, ?_⟩
  · have chosen : (asked.map fun item => item.1.listener).Perm ((entries.filter (·.wasAlive)).map (·.listener)) := by
      simpa [Function.comp_def] using same.map (·.listener)
    exact chosen.nodup_iff.mpr (records.distinct.sublist (List.filter_sublist.map _))
  · intro call called
    obtain ⟨entry, answer, listed, rfl⟩ := mem_made.mp called
    exact ⟨entry, (reached _ listed).1, rfl⟩

theorem Records.pruned (records : Records raw.listeners first.calls registered)
    (dropped : raw.dropDeadListeners (receive machine) first = (after, .ok () last)) :
    Records after.listeners last.calls registered ∧
      (∀ entry ∈ after.listeners, entry ∈ raw.listeners ∧ entry.wasAlive = true) ∧
      ∃ more, last.calls = first.calls ++ more ∧ ∀ call ∈ more, ∃ entry ∈ raw.listeners, entry.listener = call.listener := by
  obtain ⟨asked, same, pass, left, _⟩ := dropDeadListeners_asks dropped
  obtain ⟨distinct, reached, known⟩ := records.queried same
  have kept : ∀ entry ∈ after.listeners, (entry, true) ∈ asked := by
    intro entry member
    rw [left] at member
    simpa using member
  rw [pass_calls pass]
  refine ⟨?_, fun entry member => reached _ (kept entry member), _, rfl, known⟩
  apply records.extend
  · rw [left, List.map_map]
    exact distinct.sublist (List.filter_sublist.map _)
  · exact known
  · intro entry member
    have listed := kept entry member
    refine ⟨entry, (reached _ listed).1, rfl, ?_⟩
    rw [answers_iff distinct listed]
    simp

/-- A count that hears no false answer has nothing to record. -/
theorem Records.counted (records : Records entries calls registered)
    (same : (asked.map (·.1)).Perm (entries.filter (·.wasAlive))) (all : ∀ item ∈ asked, item.2 = true) :
    Records entries (calls ++ made [] asked) registered := by
  obtain ⟨_, _, known⟩ := records.queried same
  apply records.extend records.distinct known
  · intro entry member
    refine ⟨entry, member, rfl, fun flag => ⟨flag, ?_⟩, And.left⟩
    intro call called
    obtain ⟨other, answer, listed, rfl⟩ := mem_made.mp (mem_callsOn.mp called).1
    exact all _ listed

private theorem Records.fresh (records : Records entries calls registered) (listener : ι) :
    (∀ entry ∈ entries, entry.listener ≠ ⟨registered, listener⟩) ∧ ∀ call ∈ calls, call.listener ≠ ⟨registered, listener⟩ := by
  constructor
  · intro entry member same
    have number := records.numbered entry member
    rw [same] at number
    exact Nat.lt_irrefl _ number
  · intro call member same
    have number := records.logged call member
    rw [same] at number
    exact Nat.lt_irrefl _ number

private theorem Records.introduce (records : Records entries calls registered) (listener : ι) (answer : Bool) :
    Records entries (calls ++ [⟨⟨registered, listener⟩, [], answer⟩]) (registered + 1) := by
  have silent : ∀ entry ∈ entries,
      callsOn entry.listener (calls ++ [⟨⟨registered, listener⟩, [], answer⟩]) = callsOn entry.listener calls := by
    intro entry member
    have new := (records.fresh listener).1 entry member
    simp [callsOn, new.symm]
  refine ⟨records.distinct, ?_, ?_, ?_, ?_⟩
  · exact fun entry member => Nat.lt_succ_of_lt (records.numbered entry member)
  · intro call member
    rcases List.mem_append.mp member with earlier | new
    · exact Nat.lt_succ_of_lt (records.logged call earlier)
    · rw [List.mem_singleton.mp new]
      exact Nat.lt_succ_self _
  · intro entry member
    rw [silent entry member]
    exact records.stored entry member
  · intro entry member
    rw [silent entry member]
    exact records.flags entry member

private theorem Records.push (records : Records entries calls registered) (known : registration.number < registered)
    (new : ∀ entry ∈ entries, entry.listener ≠ registration)
    (first : callsOn registration calls = [⟨registration, [], true⟩]) :
    Records (entries ++ [⟨registration, true⟩]) calls registered := by
  refine ⟨?_, ?_, records.logged, ?_, ?_⟩
  · rw [List.map_append, List.nodup_append]
    refine ⟨records.distinct, by simp, ?_⟩
    intro stored member added single
    obtain ⟨entry, inside, rfl⟩ := List.mem_map.mp member
    rw [List.mem_singleton.mp single]
    exact new entry inside
  all_goals
    intro entry member
    rcases List.mem_append.mp member with old | single
  · exact records.numbered entry old
  · rwa [List.mem_singleton.mp single]
  · exact records.stored entry old
  · rw [List.mem_singleton.mp single]
    exact ⟨[], first⟩
  · exact records.flags entry old
  · rw [List.mem_singleton.mp single, first]
    simp

private theorem Records.prunedIfFull (records : Records raw.listeners first.calls registered)
    (dropped : raw.dropDeadIfFull (receive machine) first = (after, .ok () last)) :
    Records after.listeners last.calls registered ∧ (∀ entry ∈ after.listeners, entry ∈ raw.listeners) ∧
      ∃ more, last.calls = first.calls ++ more ∧ ∀ call ∈ more, ∃ entry ∈ raw.listeners, entry.listener = call.listener := by
  unfold dropDeadIfFull at dropped
  split at dropped
  · obtain ⟨records, kept, known⟩ := records.pruned dropped
    exact ⟨records, fun entry member => (kept entry member).1, known⟩
  · cases dropped
    exact ⟨records, fun _ member => member, [], (List.append_nil _).symm, by simp⟩

theorem Records.registers [VecGrowth] {listener : ι} (records : Records raw.listeners first.calls registered)
    (stored : raw.register (receive machine) ⟨registered, listener⟩ first = (after, .ok () last)) :
    Records after.listeners last.calls (registered + 1) := by
  cases asked : machine listener [] first.world with
  | mk alive world =>
    have called : receive machine ⟨registered, listener⟩ [] first =
        .ok alive ⟨world, first.calls ++ [⟨⟨registered, listener⟩, [], alive⟩]⟩ := by
      simp only [receive, respond, asked]
    have introduced := records.introduce listener alive
    unfold register at stored
    rw [called] at stored
    cases alive with
    | false =>
      cases stored
      exact introduced
    | true =>
      dsimp only at stored
      split at stored
      · cases stored
      next table middle dropped =>
        cases stored
        obtain ⟨kept, subset, more, shape, known⟩ := introduced.prunedIfFull dropped
        obtain ⟨new, unlogged⟩ := records.fresh listener
        apply kept.push (Nat.lt_succ_self _)
        · exact fun entry member => new entry (subset entry member)
        · have before : callsOn ⟨registered, listener⟩ first.calls = [] := callsOn_absent unlogged
          have later : callsOn ⟨registered, listener⟩ more = [] := by
            apply callsOn_absent
            intro call member same
            obtain ⟨entry, inside, only⟩ := known call member
            exact new entry inside (only.trans same)
          rw [shape, callsOn_append, callsOn_append, before, later]
          simp [callsOn]

/-- Only entries whose every call returned true are queried. -/
theorem Records.trusted (records : Records entries calls registered)
    (same : (asked.map (·.1)).Perm (entries.filter (·.wasAlive))) {call : Call (Registration ι) M}
    (called : call ∈ made [] asked) : ∀ earlier ∈ callsOn call.listener calls, earlier.answer = true := by
  obtain ⟨_, reached, _⟩ := records.queried same
  obtain ⟨entry, answer, listed, rfl⟩ := mem_made.mp called
  obtain ⟨stored, flag⟩ := reached _ listed
  exact (records.flags entry stored).mp flag

omit [DecidableEq ι] in
private theorem unanimous_asked {entry : NotifierEntry (Registration ι)} {rest : List (NotifierEntry (Registration ι))}
    {world : W} (flag : entry.wasAlive = true) : unanimous machine (entry :: rest) world =
      ((machine entry.listener.listener [] world).1 &&
        unanimous machine rest (machine entry.listener.listener [] world).2) := by
  simp [unanimous, flag]

omit [DecidableEq ι] in
theorem unanimous_iff (same : asked.map (·.1) = entries.filter (·.wasAlive))
    (pass : Pass (fun entry => receive machine entry.listener []) asked first last) :
    unanimous machine entries first.world = true ↔ ∀ item ∈ asked, item.2 = true := by
  induction entries generalizing asked first with
  | nil =>
    have none : asked = [] := List.map_eq_nil_iff.mp same
    simp [none, unanimous]
  | cons entry rest ih =>
    cases flag : entry.wasAlive with
    | false =>
      rw [List.filter_cons_of_neg (by simp [flag])] at same
      rw [← ih same pass]
      simp [unanimous, flag]
    | true =>
      rw [List.filter_cons_of_pos (by simp [flag])] at same
      obtain ⟨⟨head, answer⟩, later, rfl, equal, others⟩ := List.map_eq_cons_iff.mp same
      subst equal
      cases pass with
      | ask called remaining =>
        cases called
        have set : head.wasAlive = true := flag
        rw [List.forall_mem_cons, ← ih others remaining, unanimous_asked set, Bool.and_eq_true]

end Operations

end Nosy.AliveFlag
