import Nosy.Proofs.BroadcastRefinement
import Nosy.Proofs.Pruning

/-! How many liveness queries `listen` makes. A registration in a full table queries
every entry. That is paid for by later registrations only if the pass removes many
entries, or none, when the table doubles. -/

namespace Nosy.Broadcast
open RawNotifier RetainSwap Transition Pruning
open EStateM (Result)

variable {ι M : Type} [DecidableEq ι] {lawful : ι → LawfulMachine M}

private theorem pass_queries {asked : List (NotifierEntry (Registration ι) × Bool)}
    {first last : World (machines lawful)}
    (pass : Pass (fun entry => call (machines lawful) entry.listener []) asked first last) :
    last.calls = first.calls ++ (asked.map (·.1)).map fun entry => (entry.listener, []) := by
  induction pass with
  | done => exact (List.append_nil _).symm
  | ask called _ ih =>
    cases called
    rw [ih, List.append_assoc]
    rfl

/-- A pass queries every entry that has never answered false, once, and no other. -/
theorem dropDeadListeners_calls {raw after : RawNotifier (Registration ι)} {first last : World (machines lawful)}
    (pruned : raw.dropDeadListeners (call (machines lawful)) first = (after, .ok () last)) :
    ∃ queries, queries.Perm ((raw.listeners.filter (·.wasAlive)).map fun entry => (entry.listener, ([] : List M))) ∧
      last.calls = first.calls ++ queries := by
  obtain ⟨asked, same, pass, _⟩ := dropDeadListeners_asks pruned
  exact ⟨_, same.map _, pass_queries pass⟩

section Register
variable [VecGrowth] {raw after : RawNotifier (Registration ι)} {registration : Registration ι}
  {states : (i : ι) → (lawful i).State} {first last : World (machines lawful)}

/-- What a registration costs and does: nothing for a listener that is dead, a push
into a table with room, or a pass first. -/
inductive Registered (alive : ι → Bool) (registration : Registration ι) (raw : RawNotifier (Registration ι)) :
    RawNotifier (Registration ι) → Nat → Prop where
  | dead : alive registration.listener = false → Registered alive registration raw raw 1
  | room : alive registration.listener = true → raw.listeners.length < raw.capacity →
      Registered alive registration raw (raw.push ⟨registration, true⟩) 1
  | pass {pruned : RawNotifier (Registration ι)} : alive registration.listener = true →
      raw.capacity ≤ raw.listeners.length → pruned.capacity = raw.capacity →
      pruned.listeners.Perm (raw.listeners.filter fun entry => entry.wasAlive && alive entry.listener.listener) →
      Registered alive registration raw (pruned.push ⟨registration, true⟩)
        (1 + (raw.listeners.filter (·.wasAlive)).length)

theorem register_cost (initial : Queried states first)
    (registered : raw.register (call (machines lawful)) registration first = (after, .ok () last)) :
    ∃ cost, Registered (fun i => (lawful i).alive (states i)) registration raw after cost ∧
      last.calls.length = first.calls.length + cost := by
  have asks := call_answers states
  unfold register at registered
  cases asked : call (machines lawful) registration [] first with
  | error failure stopped => cases asked
  | ok alive middle =>
    have counted : middle.calls.length = first.calls.length + 1 := by
      cases asked
      simp
    obtain ⟨answer, kept⟩ := asks registration first alive middle initial asked
    simp only [asked] at registered
    cases alive with
    | false =>
      cases registered
      exact ⟨1, .dead answer.symm, counted⟩
    | true =>
      unfold dropDeadIfFull at registered
      by_cases full : raw.listeners.length ≥ raw.capacity
      · simp only [if_pos full] at registered
        cases pruned : raw.dropDeadListeners (call (machines lawful)) middle with
        | mk table outcome =>
          simp only [pruned] at registered
          cases outcome with
          | error failure stopped => simp at registered
          | ok _ ended =>
            cases registered
            obtain ⟨queries, same, calls⟩ := dropDeadListeners_calls pruned
            obtain ⟨permuted, capacity, _⟩ := dropDeadListeners_ok asks kept pruned
            refine ⟨_, .pass answer.symm full capacity permuted, ?_⟩
            rw [calls, List.length_append, same.length_eq, List.length_map, counted]
            omega
      · simp only [if_neg full] at registered
        cases registered
        exact ⟨1, .room answer.symm (Nat.lt_of_not_le full), counted⟩

end Register

/-- Runs of `listen` and `listen_raw`, with listeners that may die in between. -/
def Listening (op : Op (machines lawful)) (_ : System (machines lawful)) : Prop :=
  match op with
  | .listen _ | .listenRaw _ | .evolve _ _ => True
  | _ => False

/-- Stored entries whose listener is dead. -/
def System.dead (system : System (machines lawful)) : Nat :=
  system.handle.entries.countP fun entry => !system.alive entry.listener.listener

/-- A pass of `listen` would find no dead listener, or one in every `share` at least. -/
def System.worthwhile (share : Nat) (system : System (machines lawful)) : Bool :=
  capacity system.handle ≤ system.handle.entries.length →
    system.dead = 0 ∨ system.handle.entries.length ≤ share * system.dead

def Thrifty (share : Nat) (op : Op (machines lawful)) (system : System (machines lawful)) : Prop :=
  match op with
  | .listen listener | .listenRaw listener => system.alive listener = true → system.worthwhile share = true
  | .evolve _ _ => True
  | _ => False

instance (share : Nat) (op : Op (machines lawful)) (system : System (machines lawful)) :
    Decidable (Thrifty share op system) :=
  match op with
  | .listen listener | .listenRaw listener =>
    inferInstanceAs (Decidable (system.alive listener = true → system.worthwhile share = true))
  | .evolve _ _ => .isTrue trivial
  | .notify _ | .notifyMany _ | .count => .isFalse id

section Handles
variable [VecGrowth] {L W : Type} {receive : Receive M L W} {handle after : Handle L} {first last : W}

/-- The table of a notifier; a closed one has none. -/
def table : Handle L → RawNotifier L
  | .raw raw | .shared (.opened raw) => raw
  | .shared .closed => .new

omit [VecGrowth] in
theorem entries_table (handle : Handle L) : handle.entries = (table handle).listeners := by
  rcases handle with raw | (raw | _) <;> rfl

omit [VecGrowth] in
private theorem capacity_table (handle : Handle L) : capacity handle = (table handle).capacity := by
  rcases handle with raw | (raw | _) <;> rfl

theorem listen_table {listener : L} (accepting : Accepting handle)
    (registered : handle.listen receive listener first = (after, .ok () last)) :
    Accepting after ∧ (table handle).register receive listener first = (table after, .ok () last) := by
  rcases handle with raw | (raw | _)
  · cases stored : raw.register receive listener first with
    | mk pushed outcome =>
      simp only [Handle.listen, RawNotifier.listen, stored] at registered
      cases registered
      exact ⟨trivial, stored⟩
  · cases stored : raw.register receive listener first with
    | mk pushed outcome =>
      simp only [Handle.listen, Notifier.listen, RawNotifier.listen, stored] at registered
      cases registered
      exact ⟨trivial, stored⟩
  · exact accepting.elim

end Handles

section Accounts
variable [VecGrowth] {L : Type} {raw pruned : RawNotifier L} {listener : L}
  {share pushes grown registered queried gone spent : Nat}

/-- What has been paid: one query for each registration, `share` queries for each
entry that is gone, and `grown` queries for the passes that ended in a larger table. -/
structure Accounts (share : Nat) (raw : RawNotifier L) (pushes grown registered queried : Nat) : Prop where
  table : Bounded raw pushes
  flags : ∀ entry ∈ raw.listeners, entry.wasAlive = true
  stored : raw.listeners.length ≤ pushes
  counted : pushes ≤ registered
  doubled : grown ≤ raw.capacity - VecGrowth.minCap
  paid : queried ≤ registered + share * (pushes - raw.listeners.length) + grown

private theorem Accounts.new : Accounts share (.new : RawNotifier L) 0 0 0 0 :=
  ⟨.new, by simp [RawNotifier.new], Nat.le_refl _, Nat.le_refl _, Nat.zero_le _, Nat.zero_le _⟩

private theorem Accounts.total (accounts : Accounts share raw pushes grown registered queried) :
    queried ≤ (share + 3) * registered := by
  obtain ⟨⟨_, _, bounded⟩, _, _, counted, doubled, paid⟩ := accounts
  have removed : share * (pushes - raw.listeners.length) ≤ share * registered :=
    Nat.mul_le_mul_left share (by omega)
  have bound : (share + 3) * registered = share * registered + 3 * registered := Nat.add_mul ..
  omega

private theorem flags_push (flags : ∀ entry ∈ raw.listeners, entry.wasAlive = true) :
    ∀ entry ∈ (raw.push ⟨listener, true⟩).listeners, entry.wasAlive = true := by
  intro entry member
  rcases List.mem_append.mp member with old | new
  · exact flags entry old
  · rw [List.mem_singleton.mp new]

private theorem Accounts.push (accounts : Accounts share raw pushes grown registered queried)
    (room : raw.listeners.length < raw.capacity) :
    Accounts share (raw.push ⟨listener, true⟩) (pushes + 1) grown (registered + 1) (queried + 1) := by
  obtain ⟨table, flags, stored, counted, doubled, paid⟩ := accounts
  have larger : Bounded raw (pushes + 1) := table.shrink (Nat.le_refl _) rfl (Nat.le_succ _)
  have length : (raw.push ⟨listener, true⟩).listeners.length = raw.listeners.length + 1 := List.length_append
  have same : (raw.push ⟨listener, true⟩).capacity = raw.capacity := if_neg (Nat.ne_of_lt room)
  refine ⟨larger.push _ fun full => ?_, flags_push flags, ?_, ?_, ?_, ?_⟩
  · omega
  · omega
  · omega
  · rwa [same]
  · rw [length, Nat.add_sub_add_right]
    omega

/-- The pass before has removed nothing, and its cost is covered by the new capacity. -/
private theorem Accounts.grow (accounts : Accounts share raw pushes grown registered queried)
    (full : raw.listeners.length = raw.capacity) :
    Accounts share (raw.push ⟨listener, true⟩) (pushes + 1) (grown + raw.listeners.length) (registered + 1)
      (queried + (1 + raw.listeners.length)) := by
  obtain ⟨table, flags, stored, counted, doubled, paid⟩ := accounts
  have larger : Bounded raw (pushes + 1) := table.shrink (Nat.le_refl _) rfl (Nat.le_succ _)
  have length : (raw.push ⟨listener, true⟩).listeners.length = raw.listeners.length + 1 := List.length_append
  have twice : (raw.push ⟨listener, true⟩).capacity =
      max (max (2 * raw.capacity) (raw.listeners.length + 1)) VecGrowth.minCap := if_pos full
  have used := table.grown
  refine ⟨larger.push _ fun _ => ?_, flags_push flags, ?_, ?_, ?_, ?_⟩
  · omega
  · omega
  · omega
  · rw [twice]
    omega
  · rw [length, Nat.add_sub_add_right]
    omega

/-- Queries are paid for by the entries that are removed, `share` by each. -/
private theorem Accounts.prune (accounts : Accounts share raw pushes grown registered queried)
    (subset : ∀ entry ∈ pruned.listeners, entry ∈ raw.listeners) (same : pruned.capacity = raw.capacity)
    (removed : pruned.listeners.length + gone = raw.listeners.length)
    (enough : spent ≤ share * gone) : Accounts share pruned pushes grown registered (queried + spent) := by
  obtain ⟨table, flags, stored, counted, doubled, paid⟩ := accounts
  refine ⟨table.shrink (by omega) same (Nat.le_refl _), ?_, ?_, counted, ?_, ?_⟩
  · intro entry member
    exact flags entry (subset entry member)
  · omega
  · rwa [same]
  · have split : pushes - pruned.listeners.length = (pushes - raw.listeners.length) + gone := by omega
    rw [split, Nat.mul_add]
    omega

end Accounts

/-- A listener that is alive while its switch is on. -/
def switch : LawfulMachine Unit where
  State := Bool
  receive on _ := (on, on)
  dead_stays := by
    intro on first later off
    exact off
  query_inert := fun _ => rfl

abbrev switches : Nat → Machine Unit := machines fun _ => switch

section Runs
variable [VecGrowth] {states : (i : ι) → (lawful i).State}

omit [DecidableEq ι] [VecGrowth] in
private theorem pruned_length {alive : ι → Bool} {raw pruned : RawNotifier (Registration ι)}
    (flags : ∀ entry ∈ raw.listeners, entry.wasAlive = true)
    (permuted : pruned.listeners.Perm (raw.listeners.filter fun entry => entry.wasAlive && alive entry.listener.listener)) :
    pruned.listeners.length + raw.listeners.countP (fun entry => !alive entry.listener.listener) =
      raw.listeners.length := by
  have survivors : raw.listeners.countP (fun entry => entry.wasAlive && alive entry.listener.listener) =
      raw.listeners.countP fun entry => alive entry.listener.listener :=
    List.countP_congr fun entry member => by rw [flags entry member, Bool.true_and]
  rw [permuted.length_eq, ← List.countP_eq_length_filter, survivors,
    List.length_eq_countP_add_countP (fun entry => alive entry.listener.listener) (l := raw.listeners)]
  simp only [Bool.not_eq_true, Bool.decide_eq_false]

omit [DecidableEq ι] in
theorem register_accounts {alive : ι → Bool} {registration : Registration ι} {raw after : RawNotifier (Registration ι)}
    {share pushes grown registered queried cost : Nat} (accounts : Accounts share raw pushes grown registered queried)
    (worthwhile : alive registration.listener = true → raw.capacity ≤ raw.listeners.length →
      raw.listeners.countP (fun entry => !alive entry.listener.listener) = 0 ∨
        raw.listeners.length ≤ share * raw.listeners.countP fun entry => !alive entry.listener.listener)
    (spent : Registered alive registration raw after cost) :
    ∃ pushes grown, Accounts share after pushes grown (registered + 1) (queried + cost) := by
  cases spent with
  | dead =>
    obtain ⟨table, flags, stored, counted, doubled, paid⟩ := accounts
    exact ⟨pushes, grown, table, flags, stored, Nat.le_succ_of_le counted, doubled, by omega⟩
  | room _ room => exact ⟨_, _, accounts.push room⟩
  | @pass pruned answered full same permuted =>
    have fits := accounts.table.fits
    have flagged : raw.listeners.filter (·.wasAlive) = raw.listeners := List.filter_eq_self.mpr accounts.flags
    have subset (entry) (member : entry ∈ pruned.listeners) : entry ∈ raw.listeners :=
      List.mem_of_mem_filter (permuted.mem_iff.mp member)
    have removed := pruned_length accounts.flags permuted
    rw [flagged]
    by_cases none : raw.listeners.countP (fun entry => !alive entry.listener.listener) = 0
    · -- the table stays full and doubles
      have kept : Accounts share pruned pushes grown registered (queried + 0) :=
        accounts.prune subset same removed (Nat.zero_le _)
      have length : pruned.listeners.length = raw.listeners.length := by omega
      rw [← length]
      exact ⟨_, _, kept.grow (by omega)⟩
    · have enough := (worthwhile answered full).resolve_left none
      have kept := accounts.prune subset same removed enough
      rw [Nat.add_comm 1, ← Nat.add_assoc]
      exact ⟨_, _, kept.push (by omega)⟩

/-- The queries of a system are paid for. -/
def Paid (share : Nat) (system : System (machines lawful)) : Prop :=
  Accepting system.handle ∧
    ∃ pushes grown, Accounts share (table system.handle) pushes grown system.registered system.queried.length

/-- What a call of `listen` does to a system, and what it costs. -/
structure Spends (system : System (machines lawful)) (listener : ι) (after : System (machines lawful)) (cost : Nat) : Prop where
  accepting : Accepting after.handle
  states : after.states = system.states
  registered : after.registered = system.registered + 1
  queried : after.queried.length = system.queried.length + cost
  origin : ∀ entry ∈ after.handle.entries,
    entry ∈ system.handle.entries ∨ entry = ⟨⟨system.registered, listener⟩, true⟩
  table : Registered system.alive ⟨system.registered, listener⟩ (table system.handle) (table after.handle) cost

theorem listen_spends {system after : System (machines lawful)} {listener : ι} (accepting : Accepting system.handle)
    (stepped : step (.listen listener) system = some after) : ∃ cost, Spends system listener after cost := by
  simp only [step] at stepped
  cases asked : system.handle.listen (call (machines lawful)) ⟨system.registered, listener⟩ system.world with
  | mk handle outcome =>
    rw [asked] at stepped
    rcases outcome with ⟨_, world⟩ | _
    case error => cases stepped
    simp only [System.asked, Option.some.injEq] at stepped
    subst after
    have initial : Queried system.states system.world := ⟨rfl, by simp [System.world]⟩
    obtain ⟨_, ⟨states, _⟩, registers⟩ := listen_ok (call_answers system.states) initial accepting asked
    obtain ⟨still, registered⟩ := listen_table accepting asked
    obtain ⟨cost, spent, calls⟩ := register_cost initial registered
    refine ⟨cost, still, states, rfl, ?_, registers.origin, spent⟩
    simp only [List.length_append, calls, System.world, List.length_nil, Nat.zero_add]

theorem listen_paid {share : Nat} {system after : System (machines lawful)} {listener : ι} (paid : Paid share system)
    (thrifty : system.alive listener = true → system.worthwhile share = true)
    (stepped : step (.listen listener) system = some after) : Paid share after := by
  obtain ⟨accepting, pushes, grown, accounts⟩ := paid
  obtain ⟨cost, spends⟩ := listen_spends accepting stepped
  refine ⟨spends.accepting, ?_⟩
  rw [spends.registered, spends.queried]
  refine register_accounts accounts (fun alive full => ?_) spends.table
  have worth := thrifty alive
  simp only [System.worthwhile, decide_eq_true_eq, System.dead, entries_table, capacity_table] at worth
  exact worth full

theorem step_paid {share : Nat} {op : Op (machines lawful)} {system after : System (machines lawful)}
    (paid : Paid share system) (thrifty : Thrifty share op system) (stepped : step op system = some after) :
    Paid share after := by
  cases op with
  | listen listener => exact listen_paid paid thrifty stepped
  | listenRaw listener =>
    simp only [step, listenRaw_eq] at stepped
    exact listen_paid paid thrifty stepped
  | evolve listener next =>
    simp only [step] at stepped
    split at stepped
    · cases stepped
    · cases stepped
      exact paid
  | notify message => exact thrifty.elim
  | notifyMany messages => exact thrifty.elim
  | count => exact thrifty.elim

omit [DecidableEq ι] in
private theorem initial_paid (share : Nat) (shared : Bool) : Paid share (initial (.new shared) states) := by
  cases shared <;> exact ⟨trivial, 0, 0, .new⟩

theorem run_queries {share : Nat} {shared : Bool} {last : System (machines lawful)}
    (run : Reaches step (Thrifty share) (initial (.new shared) states) last) :
    last.queried.length ≤ (share + 3) * last.registered := by
  have paid : Paid share last := by
    apply run.invariant _ (initial_paid share shared)
    intro op before after thrifty stepped paid
    exact step_paid paid thrifty stepped
  obtain ⟨_, pushes, grown, accounts⟩ := paid
  exact accounts.total

end Runs

/-- For each `share` there is one constant for all runs, whatever is registered: when every
pass removes one entry in `share`, or none, all queries together are at most so many for
each call of `listen`. -/
theorem thrifty_queries_linear (share : Nat) : ∃ constant, ∀ {ι M : Type} [DecidableEq ι] [VecGrowth]
    {lawful : ι → LawfulMachine M} (states : (i : ι) → (lawful i).State) (shared : Bool)
    (last : System (machines lawful)), Reaches step (Thrifty share) (initial (.new shared) states) last →
      last.queried.length ≤ constant * last.registered :=
  ⟨share + 3, fun _ _ _ run => run_queries run⟩

/-- Four registrations, of which one is gone when the fifth finds the table full. -/
def oneInFour : List (Op switches) :=
  [.listen 0, .listen 1, .listenRaw 2, .listen 3, .evolve 1 false, .listen 4]

theorem thrifty_queries_linear_one_in_four : ∃ constant, ∃ last : System switches,
    Reaches (@step _ _ _ _ .usual) (Thrifty 4) (initial (.new true) fun _ => true) last ∧
      last.registered = 5 ∧ last.queried.length = 9 ∧ last.queried.length ≤ constant * last.registered := by
  have run : ∃ last, exec (guarded (@step _ _ _ _ .usual) (Thrifty 4)) oneInFour
      (initial (.new true) fun _ => true) = some last ∧ last.registered = 5 ∧ last.queried.length = 9 :=
    ⟨_, rfl, rfl, rfl⟩
  obtain ⟨last, executed, registered, queried⟩ := run
  obtain ⟨constant, linear⟩ := thrifty_queries_linear 4
  have reached : Reaches (@step _ _ _ _ .usual) (Thrifty 4) (initial (.new true) fun _ => true) last :=
    guarded_reaches executed
  exact ⟨constant, last, reached, registered, queried, @linear _ _ _ .usual _ _ true last reached⟩

/-- Every entry was registered for a listener of its own, and more are to come. -/
structure Fresh (system : System switches) : Prop where
  tracked : ∃ naive, Tracks system naive
  flags : ∀ entry ∈ system.handle.entries, entry.wasAlive = true
  numbered : ∀ entry ∈ system.handle.entries, entry.listener.listener = entry.listener.number
  alive : ∀ i, system.registered ≤ i → system.alive i = true

structure Churning (system : System switches) (length capacity dead : Nat) : Prop extends Fresh system where
  length : system.handle.entries.length = length
  capacity : Pruning.capacity system.handle = capacity
  dead : system.dead = dead

section Churn
variable [VecGrowth] {system : System switches} {length capacity dead : Nat}

theorem listen_fresh (churning : Fresh system) :
    ∃ after cost, step (.listen system.registered) system = some after ∧ Fresh after ∧
      Spends system system.registered after cost ∧ after.alive = system.alive := by
  obtain ⟨⟨naive, tracks⟩, flags, numbered, alive⟩ := churning
  obtain ⟨after, stepped⟩ := step_enabled (.listen system.registered) tracks (fun _ _ impossible => nomatch impossible)
  obtain ⟨cost, spends⟩ := listen_spends tracks.accepting stepped
  have same : after.alive = system.alive := by
    funext i
    simp only [System.alive, spends.states]
  refine ⟨after, cost, stepped, ⟨⟨_, (step_tracks tracks stepped).1⟩, ?_, ?_, ?_⟩, spends, same⟩
  · intro entry member
    rcases spends.origin entry member with old | rfl
    · exact flags entry old
    · rfl
  · intro entry member
    rcases spends.origin entry member with old | rfl
    · exact numbered entry old
    · rfl
  · intro i later
    rw [same]
    rw [spends.registered] at later
    exact alive i (Nat.le_of_succ_le later)

private theorem room_churning (churning : Churning system length capacity dead) (room : length < capacity) :
    ∃ after, step (.listen system.registered) system = some after ∧ Churning after (length + 1) capacity dead ∧
      after.registered = system.registered + 1 ∧ after.queried.length = system.queried.length + 1 := by
  obtain ⟨before, rfl, rfl, rfl⟩ := churning
  obtain ⟨after, cost, stepped, fresh, spends, same⟩ := listen_fresh before
  have alive := before.alive _ (Nat.le_refl _)
  have spent := spends.table
  rw [entries_table, capacity_table] at room
  generalize stored : table after.handle = pushed at spent
  cases spent with
  | dead answered => rw [alive] at answered; cases answered
  | pass _ full => omega
  | room =>
    have entries : after.handle.entries = system.handle.entries ++ [⟨⟨system.registered, system.registered⟩, true⟩] := by
      rw [entries_table, entries_table, stored]
      rfl
    refine ⟨after, stepped, ⟨fresh, ?_, ?_, ?_⟩, spends.registered, spends.queried⟩
    · simp [entries]
    · rw [capacity_table, capacity_table, stored]
      exact if_neg (Nat.ne_of_lt room)
    · simp [System.dead, entries, same, alive]

private theorem full_churning (churning : Churning system length capacity dead) (full : capacity ≤ length) :
    ∃ after, step (.listen system.registered) system = some after ∧
      Churning after (length - dead + 1)
        (if length - dead = capacity then max (max (2 * capacity) (length - dead + 1)) VecGrowth.minCap else capacity) 0 ∧
      after.registered = system.registered + 1 ∧ after.queried.length = system.queried.length + (1 + length) := by
  obtain ⟨before, rfl, rfl, rfl⟩ := churning
  obtain ⟨after, cost, stepped, fresh, spends, same⟩ := listen_fresh before
  have alive := before.alive _ (Nat.le_refl _)
  have spent := spends.table
  have queried := spends.queried
  rw [entries_table, capacity_table] at full
  generalize stored : table after.handle = pushed at spent
  cases spent with
  | dead answered => rw [alive] at answered; cases answered
  | room _ room => omega
  | @pass pruned _ _ sized permuted =>
    have flagged : (table system.handle).listeners.filter (·.wasAlive) = (table system.handle).listeners := by
      rw [← entries_table]
      exact List.filter_eq_self.mpr before.flags
    have entries : after.handle.entries = pruned.listeners ++ [⟨⟨system.registered, system.registered⟩, true⟩] := by
      rw [entries_table, stored]
      rfl
    have left : pruned.listeners.length = system.handle.entries.length - system.dead := by
      have removed := pruned_length (entries_table system.handle ▸ before.flags) permuted
      rw [System.dead, entries_table]
      omega
    refine ⟨after, stepped, ⟨fresh, ?_, ?_, ?_⟩, spends.registered, ?_⟩
    · simp [entries, left]
    · rw [capacity_table, capacity_table, stored, ← left]
      simp only [RawNotifier.push, sized]
    · simp [System.dead, entries, same, alive, permuted.countP_eq]
    · rw [queried, flagged, entries_table]

omit [VecGrowth] in
private theorem evolved_alive (system : System (machines lawful)) (listener : ι) (next : (lawful listener).State)
    (i : ι) :
    System.alive { system with states := Function.update system.states listener next } i =
      if i = listener then (lawful listener).alive next else system.alive i := by
  by_cases same : i = listener
  · subst same
    simp only [System.alive, if_true, Function.update_self]
  · simp only [System.alive, if_neg same, Function.update_of_ne same]

private theorem die_churning (churning : Churning system length capacity 0) (stored : 0 < length) :
    ∃ victim after, step (.evolve victim false) system = some after ∧ Churning after length capacity 1 ∧
      after.registered = system.registered ∧ after.queried = system.queried := by
  obtain ⟨⟨⟨naive, tracks⟩, flags, numbered, alive⟩, rfl, rfl, none⟩ := churning
  obtain ⟨entry, member⟩ := List.exists_mem_of_length_pos stored
  have stepped := step_enabled (.evolve entry.listener.listener false) tracks (by
    intro listener next same revived
    cases same
    exact Bool.noConfusion revived.1)
  obtain ⟨after, stepped⟩ := stepped
  refine ⟨entry.listener.listener, after, stepped, ?_⟩
  have next := (step_tracks tracks stepped).1
  simp only [step] at stepped
  split at stepped
  · cases stepped
  cases stepped
  refine ⟨⟨⟨⟨_, next⟩, flags, numbered, ?_⟩, rfl, rfl, ?_⟩, rfl, rfl⟩
  · intro i later
    have below := tracks.numbered entry member
    rw [← numbered entry member] at below
    have other : i ≠ entry.listener.listener := by
      change system.registered ≤ i at later
      omega
    exact (evolved_alive system _ _ i).trans ((if_neg other).trans (alive i later))
  · have once : (system.handle.entries.map (·.listener)).count entry.listener = 1 :=
      List.count_eq_one_of_mem tracks.distinct (List.mem_map_of_mem member)
    rw [← once, List.count, List.countP_map]
    apply List.countP_congr
    intro other inside
    have living := List.countP_eq_zero.mp none other inside
    simp only [Bool.not_eq_true, Bool.not_eq_false'] at living
    have named : other.listener.listener = entry.listener.listener ↔ other.listener = entry.listener := by
      have first := numbered other inside
      have second := numbered entry member
      constructor
      · intro same
        cases registration : other.listener
        cases victim : entry.listener
        simp_all only
      · exact congrArg _
    have off := evolved_alive system entry.listener.listener false other.listener.listener
    simp only [Bool.not_eq_true', off, Function.comp_apply, beq_iff_eq, ← named, living]
    split
    next same => simp [same, Machine.alive, switch]
    next different => simp [different]

private theorem fill_churning (room : Nat) (churning : Churning system length capacity 0)
    (left : length + room = capacity) :
    ∃ last, Reaches step Listening system last ∧ Churning last capacity capacity 0 ∧
      last.registered = system.registered + room := by
  induction room generalizing system length with
  | zero =>
    obtain rfl : length = capacity := left
    exact ⟨system, .refl, churning, rfl⟩
  | succ room ih =>
    obtain ⟨after, stepped, next, registered, _⟩ := room_churning churning (by omega)
    obtain ⟨last, run, filled, total⟩ := ih next (by omega)
    exact ⟨last, .head ⟨.listen _, trivial, stepped⟩ run, filled, by omega⟩

private theorem grow_churning (shared : Bool) (least : Nat) :
    ∃ capacity last, least ≤ capacity ∧ Reaches step Listening (initial (.new shared) fun _ => true) last ∧
      Churning last capacity capacity 0 ∧ last.registered = capacity := by
  induction least with
  | zero =>
    refine ⟨0, _, Nat.le_refl _, .refl, ⟨⟨⟨_, initial_tracks shared _⟩, ?_, ?_, fun _ _ => rfl⟩, ?_, ?_, ?_⟩, rfl⟩
    all_goals cases shared <;> simp [initial, Handle.new, Handle.entries, RawNotifier.new, Notifier.new,
      Pruning.capacity, System.dead]
  | succ least ih =>
    obtain ⟨capacity, full, enough, grown, churning, registered⟩ := ih
    obtain ⟨pushed, stepped, next, counted, _⟩ := full_churning churning (Nat.le_refl _)
    rw [Nat.sub_zero, if_pos rfl] at next
    obtain ⟨last, run, filled, total⟩ := fill_churning
      (max (max (2 * capacity) (capacity + 1)) VecGrowth.minCap - (capacity + 1)) next (by omega)
    refine ⟨_, last, ?_, grown.trans (.head ⟨.listen _, trivial, stepped⟩ run), filled, ?_⟩
    · omega
    · omega

/-- Each round one listener dies and another registers, which queries the whole table
and leaves it full. -/
private theorem rounds_churning (rounds : Nat) (churning : Churning system capacity capacity 0)
    (stored : 0 < capacity) :
    ∃ last, Reaches step Listening system last ∧ last.registered = system.registered + rounds ∧
      last.queried.length = system.queried.length + rounds * (1 + capacity) := by
  induction rounds generalizing system with
  | zero => exact ⟨system, .refl, rfl, by simp⟩
  | succ rounds ih =>
    obtain ⟨victim, fewer, died, dying, same, silent⟩ := die_churning churning stored
    obtain ⟨after, stepped, next, counted, asked⟩ := full_churning dying (Nat.le_refl _)
    rw [if_neg (by omega), Nat.sub_add_cancel stored] at next
    obtain ⟨last, run, registered, queried⟩ := ih next
    refine ⟨last, .head ⟨.evolve victim false, trivial, died⟩ (.head ⟨.listen _, trivial, stepped⟩ run), by omega, ?_⟩
    rw [queried, asked, silent, Nat.succ_mul]
    omega

/-- Whatever the constants: queries outgrow the calls of `listen`. -/
theorem queries_superlinear (shared : Bool) (constant : Nat) :
    ∃ last : System switches, Reaches step Listening (initial (.new shared) fun _ => true) last ∧
      constant * last.registered < last.queried.length := by
  obtain ⟨capacity, full, enough, grown, churning, registered⟩ := grow_churning shared (2 * constant + 1)
  obtain ⟨last, run, total, queried⟩ := rounds_churning capacity churning (by omega)
  refine ⟨last, grown.trans run, ?_⟩
  rw [total, registered, queried]
  calc constant * (capacity + capacity)
      = 2 * constant * capacity := by rw [← Nat.two_mul, ← Nat.mul_assoc, Nat.mul_comm constant]
    _ ≤ capacity * capacity := Nat.mul_le_mul_right _ (by omega)
    _ < capacity * (1 + capacity) := Nat.mul_lt_mul_of_pos_left (by omega) (by omega)
    _ ≤ full.queried.length + capacity * (1 + capacity) := Nat.le_add_left ..

end Churn

theorem listens_not_linear : ¬ ∃ constant, ∀ last : System switches,
    Reaches (@step _ _ _ _ .usual) Listening (initial (.new false) fun _ => true) last →
      last.queried.length ≤ constant * last.registered := by
  rintro ⟨constant, linear⟩
  obtain ⟨last, run, more⟩ := @queries_superlinear .usual false constant
  exact absurd (linear last run) (Nat.not_le_of_lt more)

end Nosy.Broadcast
