import Nosy.Delivery
import Nosy.Proofs.ForwardingReturns

/-! The contract of `Listener::receive`, for every listener the library can
build. Each call performs the deliveries of its batch and nothing else; along a
route these depend on the concatenation of the batches only. -/

namespace Nosy
open RawNotifier Listener
open EStateM (Result)

variable {M C : Type}

theorem leafDelivery_dead (leaf : Leaf) (messages : List M) : leafDelivery false leaf messages = [] := rfl

private theorem deliveries_dead {world : World M C} {forwarded : Nat → List M → List (Delivery M)}
    {listener : Listener M}
    (dead : listener.alive world = false) (messages : List M) :
    listener.deliveries world forwarded messages = [] := by
  induction listener generalizing messages with
  | flag id | storeLock id | weak id =>
    simp only [alive] at dead
    simp only [deliveries, dead, leafDelivery_dead]
  | null => rfl
  | filter function zeroSized batch positive target ih => simp [deliveries, ih dead]
  | gate id target ih =>
    simp only [deliveries]
    split
    next isOpen => exact ih (by simpa [alive, isOpen] using dead) messages
    · rfl
  | pair first second left right =>
    obtain ⟨one, two⟩ := Bool.or_eq_false_iff.mp dead
    simp [deliveries, left one, right two]
  | forward id =>
    simp only [alive] at dead
    simp [deliveries, dead]

theorem deliveries_same {before after : World M C} (same : Same before after)
    {forwarded : Nat → List M → List (Delivery M)} (listener : Listener M) (messages : List M) :
    listener.deliveries after forwarded messages = listener.deliveries before forwarded messages := by
  induction listener generalizing messages with
  | flag id => simp only [deliveries, same.flags]
  | storeLock id | weak id => simp only [deliveries, same.stores]
  | null => rfl
  | filter function zeroSized batch positive target ih =>
    have each : deliveries after forwarded target = deliveries before forwarded target := funext ih
    simp only [deliveries, each]
  | gate id target ih => simp only [deliveries, same.gates, ih]
  | pair first second left right => simp only [deliveries, left, right]
  | forward id => simp only [deliveries, same.owned]

theorem forwarded_same {before after : World M C} (same : Same before after) (fuel : Nat) :
    after.forwarded fuel = before.forwarded fuel := by
  induction fuel with
  | zero => rfl
  | succ fuel ih =>
    funext id messages
    simp only [World.forwarded, same.table, ih, deliveries_same same]

/-- Along each route, a batch is worth its parts. -/
structure Additive (each : List M → List (Delivery M)) : Prop where
  empty : each [] = []
  append : ∀ route first second, along route (each (first ++ second)) = along route (each first) ++ along route (each second)

private theorem leafDelivery_additive (alive : Bool) (leaf : Leaf) : Additive (M := M) (leafDelivery alive leaf) := by
  constructor
  · simp [leafDelivery]
  · intro route first second
    cases alive with
    | false => rfl
    | true => cases first <;> cases second <;> by_cases here : [] = route <;> simp [leafDelivery, along, here]

private theorem Additive.flatten {each : List M → List (Delivery M)} (additive : Additive each) (route : List Hop)
    (batches : List (List M)) : along route (batches.flatMap each) = along route (each batches.flatten) := by
  induction batches with
  | nil => rw [List.flatMap_nil, List.flatten_nil, additive.empty]
  | cons batch rest ih =>
    rw [List.flatMap_cons, along_append, ih, List.flatten_cons, additive.append]

private theorem Additive.filter {each : List M → List (Delivery M)} (additive : Additive each) (function : M → Option M)
    (zeroSized : Bool) (batch : Nat) : Additive fun messages =>
      (if zeroSized then [messages.filterMap function]
        else Filter.batches batch (messages.filterMap function) []).flatMap each := by
  have flat (messages : List M) (route : List Hop) :
      along route ((if zeroSized then [messages.filterMap function]
        else Filter.batches batch (messages.filterMap function) []).flatMap each) =
        along route (each (messages.filterMap function)) := by
    rw [additive.flatten]
    split
    · simp
    · rw [Filter.batches_flatten, List.nil_append]
  constructor
  · cases zeroSized <;> simp [Filter.batches, additive.empty]
  · intro route first second
    rw [flat, flat, flat, List.filterMap_append, additive.append]

private theorem Additive.pair {left right : List M → List (Delivery M)} (one : Additive left) (two : Additive right) :
    Additive fun messages => (left messages).map (.via .first) ++ (right messages).map (.via .second) := by
  constructor
  · simp [one.empty, two.empty]
  · intro route first second
    by_cases leftward : ∃ rest, route = .first :: rest
    · obtain ⟨rest, rfl⟩ := leftward
      have nothing := @along_other M .second (.first :: rest) nofun
      simp only [along_append, along_via, nothing, List.append_nil, one.append]
    · have skipped := @along_other M .first route fun rest same => leftward ⟨rest, same⟩
      by_cases rightward : ∃ rest, route = .second :: rest
      · obtain ⟨rest, rfl⟩ := rightward
        simp only [along_append, along_via, skipped, List.nil_append, two.append]
      · have nothing := @along_other M .second route fun rest same => rightward ⟨rest, same⟩
        simp only [along_append, skipped, nothing, List.append_nil]

private theorem Additive.entries {each : List M → Listener M → List (Delivery M)} {listeners : List (Listener M)}
    (additive : ∀ listener, Additive (each · listener)) (id start : Nat) :
    Additive fun messages => entryDeliveries id start (each messages) listeners := by
  constructor
  · induction listeners generalizing start with
    | nil => rfl
    | cons listener rest ih => simp [entryDeliveries, (additive listener).empty, ih]
  · intro route first second
    rcases along_entries id route listeners start with nothing | ⟨listener, _, rest, same⟩
    · simp only [nothing, List.append_nil]
    · simp only [same, (additive listener).append]

theorem deliveries_additive {world : World M C} {forwarded : Nat → List M → List (Delivery M)}
    (forwards : ∀ id, Additive (forwarded id)) (listener : Listener M) :
    Additive (listener.deliveries world forwarded) := by
  induction listener with
  | flag id => exact leafDelivery_additive _ _
  | storeLock id | weak id => exact leafDelivery_additive _ _
  | null => exact ⟨rfl, fun _ _ _ => rfl⟩
  | filter function zeroSized batch positive target ih => exact ih.filter function zeroSized batch
  | gate id target ih =>
    by_cases isOpen : world.gates id
    · simpa only [deliveries, isOpen, if_true] using ih
    · constructor <;> simp [deliveries, isOpen]
  | pair first second left right => exact left.pair right
  | forward id =>
    by_cases owned : (world.notifiers id).owned
    · have same : deliveries world forwarded (.forward id) = forwarded id := by
        funext messages
        simp only [deliveries, owned, if_true]
      rw [same]
      exact forwards id
    · constructor <;> simp [deliveries, owned]

theorem forwarded_additive (world : World M C) (fuel id : Nat) : Additive (world.forwarded fuel id) := by
  induction fuel generalizing id with
  | zero => exact ⟨rfl, fun _ _ _ => rfl⟩
  | succ fuel ih =>
    cases table : world.table id with
    | none => constructor <;> simp [World.forwarded, table]
    | some listeners =>
      have same : world.forwarded (fuel + 1) id = fun messages => entryDeliveries id 0
          (fun listener => listener.deliveries world (world.forwarded fuel) messages) listeners := by
        funext messages
        simp only [World.forwarded, table]
      rw [same]
      exact Additive.entries (deliveries_additive ih) id 0

section Performing
variable {stores : Nat → Store M C} {world : World M C}

/-- The call returns this answer and performs these deliveries. -/
def Performs {α : Type} (stores : Nat → Store M C) (world : World M C) (reply : α) (deliveries : List (Delivery M))
    (before : World M C) (result : Result Failure (World M C) α) : Prop :=
  ∃ after, result = .ok reply after ∧ Same world after ∧
    after.destinations = performAll stores deliveries before.destinations

private theorem leafDelivery_flag {messages : List M} {id : Nat} {before : World M C} (same : Same world before)
    (alive : (world.flags id).alive = true) :
    Performs stores world true (leafDelivery (world.flags id).alive (.flag id) messages) before
      (.ok true (if messages.isEmpty then before else before.setFlag id)) := by
  refine ⟨_, rfl, ?_⟩
  cases empty : messages.isEmpty with
  | true => simpa [leafDelivery, empty] using ⟨same, rfl⟩
  | false =>
    simp only [leafDelivery, alive, empty, Bool.not_false, Bool.and_self, if_true]
    exact ⟨same.trans (.setFlag before id), rfl⟩

private theorem leafDelivery_store {messages : List M} {id : Nat} {before : World M C} (same : Same world before)
    (alive : (world.stores id).alive = true) :
    Performs stores world true (leafDelivery (world.stores id).alive (.store id) messages) before
      (.ok true (if messages.isEmpty then before else before.record (stores id) id messages)) := by
  refine ⟨_, rfl, ?_⟩
  cases empty : messages.isEmpty with
  | true => simpa [leafDelivery, empty] using ⟨same, rfl⟩
  | false =>
    simp only [leafDelivery, alive, empty, Bool.not_false, Bool.and_self, if_true]
    exact ⟨same.trans (.record before (stores id) id messages), rfl⟩

private theorem Filter.buffered_performs {function : M → Option M} {batch : Nat} {alive : Bool}
    {target : List M → EStateM Failure (World M C) Bool} {each : List M → List (Delivery M)}
    (performs : ∀ messages before, Same world before →
      Performs stores world alive (each messages) before (target messages before))
    (dead : alive = false → ∀ messages, each messages = [])
    (messages buffer : List M) {before : World M C} (same : Same world before) :
    Performs stores world alive ((Filter.batches batch (messages.filterMap function) buffer).flatMap each) before
      (Filter.buffered function batch target messages buffer before) := by
  induction messages generalizing buffer before with
  | nil => simpa [Filter.buffered, Filter.batches] using performs buffer before same
  | cons message rest ih =>
    simp only [Filter.buffered, List.filterMap_cons]
    cases function message with
    | none => exact ih buffer same
    | some filtered =>
      simp only [Filter.batches]
      split
      · obtain ⟨middle, called, still, flushed⟩ := performs buffer before same
        simp only [called]
        cases alive with
        | false =>
          -- a dead target gets nothing, from this batch or the ones skipped
          have nothing (batches : List (List M)) : batches.flatMap each = [] := by simp [dead]
          refine ⟨middle, rfl, still, ?_⟩
          rw [nothing]
          simpa only [dead] using flushed
        | true =>
          obtain ⟨last, returned, ended, performed⟩ := ih [filtered] still
          refine ⟨last, returned, ended, ?_⟩
          rw [performed, flushed, List.flatMap_cons, performAll_append]
      · exact ih _ same

theorem receive_performs {notifyMany : Nat → List M → EStateM Failure (World M C) Unit}
    {forwarded : Nat → List M → List (Delivery M)} {listener : Listener M}
    (sends : ∀ id ∈ listener.targets, ¬ Blocked world id → ∀ messages before, Same world before →
      Performs stores world () (forwarded id messages) before (notifyMany id messages before))
    (unblocked : ¬ ReachesClosed world listener) (messages : List M) {before : World M C} (same : Same world before) :
    Performs stores world (listener.alive world) (listener.deliveries world forwarded messages) before
      (listener.receive stores notifyMany messages before) := by
  induction listener generalizing messages before with
  | flag id =>
    simp only [Listener.receive, same.flags, alive, deliveries]
    split
    next living =>
      simp only [living]
      simpa only [living] using leafDelivery_flag same living
    next dying =>
      simp only [dying]
      exact ⟨before, rfl, same, rfl⟩
  | storeLock id =>
    simp only [Listener.receive, same.stores, alive, deliveries]
    split
    next living =>
      simp only [living]
      simpa only [living] using leafDelivery_store same living
    next dying =>
      simp only [dying]
      exact ⟨before, rfl, same, rfl⟩
  | weak id =>
    simp only [Listener.receive, same.stores, alive, deliveries]
    cases living : (world.stores id).alive with
    | true =>
      have performed : Performs stores world true _ before (.ok true _) :=
        @leafDelivery_store _ _ stores world messages id before same living
      cases empty : messages.isEmpty <;> simpa [living, empty] using performed
    | false =>
      refine ⟨before, ?_, same, rfl⟩
      split <;> simp
  | null => exact ⟨before, rfl, same, rfl⟩
  | filter function zeroSized batch positive target ih =>
    have each := ih sends fun reaches => unblocked (.filter reaches)
    simp only [Listener.receive, Filter.receive, alive, deliveries]
    split
    · simpa using each _ same
    · exact Filter.buffered_performs (fun messages _ same => each messages same) deliveries_dead messages [] same
  | gate id target ih =>
    simp only [Listener.receive, same.gates, alive, deliveries]
    split
    next isOpen =>
      simpa only [isOpen, Bool.true_and] using ih sends (fun reaches => unblocked (.gate isOpen reaches)) messages same
    next shut =>
      refine ⟨before, ?_, same, rfl⟩
      simp only [shut, Bool.false_and]
  | pair first second left right =>
    obtain ⟨middle, called, still, one⟩ := left (fun id member => sends id (List.mem_append_left _ member))
      (fun reaches => unblocked (.first reaches)) messages same
    obtain ⟨last, answered, ended, two⟩ := right (fun id member => sends id (List.mem_append_right _ member))
      (fun reaches => unblocked (.second reaches)) messages still
    refine ⟨last, by simp only [Listener.receive, called, answered, alive], ended, ?_⟩
    simp only [deliveries, performAll_append, performAll_via, two, one]
  | forward id =>
    simp only [Listener.receive, same.owned, alive, deliveries]
    split
    next owned =>
      have clear : ¬ Blocked world id := fun blocked => unblocked (reachesClosed_forward.mpr ⟨owned, blocked⟩)
      obtain ⟨after, called, still, performed⟩ := sends id (by simp [targets]) clear messages before same
      exact ⟨after, by simp only [called, owned], still, performed⟩
    next dropped =>
      refine ⟨before, ?_, same, rfl⟩
      simp only [dropped]

private theorem deliver_performs {receive : Receive M (Listener M) (World M C)} {messages : List M}
    {each : Listener M → List (Delivery M)} {entries : List (NotifierEntry (Listener M))} (id start : Nat)
    (performs : ∀ entry ∈ entries, ∀ before, Same world before →
      Performs stores world (entry.listener.alive world) (each entry.listener) before
        (receive entry.listener messages before))
    {before : World M C} (same : Same world before) :
    Performs stores world () (entryDeliveries id start each (entries.map (·.listener))) before
      (deliver receive messages entries before).2 := by
  induction entries generalizing start before with
  | nil => exact ⟨before, rfl, same, rfl⟩
  | cons entry rest ih =>
    obtain ⟨middle, called, still, one⟩ := performs entry (by simp) before same
    obtain ⟨last, delivered, ended, others⟩ :=
      ih (start + 1) (fun other member => performs other (by simp [member])) still
    refine ⟨last, by simp only [deliver, called, delivered], ended, ?_⟩
    rw [others, one, List.map_cons, entryDeliveries, performAll_append, performAll_via]

theorem notifyMany_performs {rank : Nat → Nat} (ranks : Ranks rank world) {fuel id : Nat} (enough : rank id < fuel)
    (clear : ¬ Blocked world id) (messages : List M) {before : World M C} (same : Same world before) :
    Performs stores world () (world.forwarded fuel id messages) before
      (World.notifyMany stores fuel id messages before) := by
  induction fuel generalizing id messages before with
  | zero => omega
  | succ fuel ih =>
    obtain ⟨listeners, table, unblocked⟩ : ∃ listeners, world.table id = some listeners ∧
        ∀ listener ∈ listeners, ¬ ReachesClosed world listener := by
      simpa [Blocked] using clear
    cases found : (before.notifiers id).notifier with
    | closed =>
      have closed : before.table id = none := by rw [World.table, found]
      rw [same.table, table] at closed
      cases closed
    | opened raw =>
      have stored := World.table_opened found
      rw [same.table, table] at stored
      cases stored
      have performs : ∀ entry ∈ raw.listeners, ∀ before, Same world before →
          Performs stores world (entry.listener.alive world)
            (entry.listener.deliveries world (world.forwarded fuel) messages) before
            (Listener.receive stores (World.notifyMany stores fuel) entry.listener messages before) := by
        intro entry member before same
        have inside := List.mem_map_of_mem (f := fun entry => entry.listener) member
        refine receive_performs (fun target forwards clear messages before same => ?_)
          (unblocked entry.listener inside) messages same
        have smaller := ranks id _ table entry.listener inside target forwards
        exact ih (by omega) clear messages same
      obtain ⟨after, delivered, still, performed⟩ := @deliver_performs _ _ _ _ _ messages
        (fun listener => listener.deliveries world (world.forwarded fuel) messages) _ id 0 performs _ same
      have kept : (deliver (Listener.receive stores (World.notifyMany stores fuel)) messages raw.listeners before).1.map
          (·.listener) = raw.listeners.map (·.listener) := deliver_listeners raw.listeners before
      simp only [World.notifyMany, World.operate, found, Notifier.notifyMany, RawNotifier.notifyMany, delivered,
        World.forwarded, table]
      refine ⟨_, rfl, still.trans ?_, performed⟩
      exact @Same.setNotifier _ _ _ _ raw _ ((still.table id).trans table) kept

/-- The faithful `receive` is the abstract one. -/
theorem World.receive_performs {rank : Nat → Nat} (ranks : Ranks rank world) {fuel : Nat} {listener : Listener M}
    (within : listener.Within rank fuel) (unblocked : ¬ ReachesClosed world listener) (messages : List M) :
    Performs stores world (listener.alive world) (world.deliveries fuel listener messages) world
      (World.receive stores fuel listener messages world) :=
  Nosy.receive_performs
    (fun _ forwards clear messages _ same => notifyMany_performs ranks (within _ forwards) clear messages same)
    unblocked messages (.refl world)

end Performing

end Nosy
