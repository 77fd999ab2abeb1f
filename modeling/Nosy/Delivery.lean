import Nosy.Proofs.ListenerSkeleton

/-! What a call of `receive` is for: which batches it hands to which live
destinations, and along which route. This is the abstract meaning of a listener;
the skeleton of the world alone decides it. -/

namespace Nosy
variable {M C : Type}

/-- A choice on the way from a listener to a leaf. Filters and gates offer none. -/
inductive Hop where
  | first
  | second
  /-- Through a notifier, to the entry at this index of its table. -/
  | entry (notifier index : Nat)
deriving DecidableEq, Repr

inductive Leaf where
  | flag (id : Nat)
  | store (id : Nat)
deriving DecidableEq, Repr

/-- A batch handed to a leaf that is alive. -/
structure Delivery (M : Type) where
  route : List Hop
  leaf : Leaf
  messages : List M
deriving DecidableEq, Repr

def Delivery.via (hop : Hop) (delivery : Delivery M) : Delivery M :=
  { delivery with route := hop :: delivery.route }

/-- All messages that went along a route, in order. -/
def along (route : List Hop) (deliveries : List (Delivery M)) : List M :=
  (deliveries.filter (·.route = route)).flatMap (·.messages)

/-- Everything that deliveries can change. -/
abbrev Destinations (C : Type) : Type := (Nat → Destination Bool) × (Nat → Destination C)

def World.destinations (world : World M C) : Destinations C := (world.flags, world.stores)

def Delivery.perform (stores : Nat → Store M C) (destinations : Destinations C) (delivery : Delivery M) :
    Destinations C :=
  let (flags, contents) := destinations
  match delivery.leaf with
  | .flag id => (Function.update flags id { flags id with contents := true }, contents)
  | .store id =>
    (flags, Function.update contents id
      { contents id with contents := (stores id).receive delivery.messages (contents id).contents })

def performAll (stores : Nat → Store M C) (deliveries : List (Delivery M)) (destinations : Destinations C) :
    Destinations C :=
  deliveries.foldl (Delivery.perform stores) destinations

/-- The batches a buffer of `batch` messages is emptied into, the last one always
at the end. -/
def Filter.batches (batch : Nat) : List M → List M → List (List M)
  | [], buffer => [buffer]
  | message :: rest, buffer =>
    if buffer.length = batch then buffer :: batches batch rest [message]
    else batches batch rest (buffer ++ [message])

/-- An empty batch is not delivered, it only asks. -/
def leafDelivery (alive : Bool) (leaf : Leaf) (messages : List M) : List (Delivery M) :=
  if alive && !messages.isEmpty then [⟨[], leaf, messages⟩] else []

/-- The deliveries of one batch; `forwarded` are those of a notifier. -/
def Listener.deliveries (world : World M C) (forwarded : Nat → List M → List (Delivery M)) :
    Listener M → List M → List (Delivery M)
  | .flag id, messages => leafDelivery (world.flags id).alive (.flag id) messages
  | .storeLock id, messages | .weak id, messages => leafDelivery (world.stores id).alive (.store id) messages
  | .null, _ => []
  | .filter function zeroSized batch _ target, messages =>
    let filtered := messages.filterMap function
    (if zeroSized then [filtered] else Filter.batches batch filtered []).flatMap (deliveries world forwarded target)
  | .gate id target, messages => if world.gates id then deliveries world forwarded target messages else []
  | .pair first second, messages =>
    (deliveries world forwarded first messages).map (.via .first) ++
      (deliveries world forwarded second messages).map (.via .second)
  | .forward id, messages => if (world.notifiers id).owned then forwarded id messages else []

/-- The deliveries to the entries of a table, from index `start` on. -/
def entryDeliveries (id start : Nat) (each : Listener M → List (Delivery M)) : List (Listener M) → List (Delivery M)
  | [] => []
  | listener :: rest => (each listener).map (.via (.entry id start)) ++ entryDeliveries id (start + 1) each rest

def World.forwarded (world : World M C) : Nat → Nat → List M → List (Delivery M)
  | 0, _, _ => []
  | fuel + 1, id, messages =>
    match world.table id with
    | none => []
    | some listeners =>
      entryDeliveries id 0 (fun listener => listener.deliveries world (forwarded world fuel) messages) listeners

def World.deliveries (world : World M C) (fuel : Nat) (listener : Listener M) (messages : List M) :
    List (Delivery M) :=
  listener.deliveries world (world.forwarded fuel) messages

@[simp] theorem along_nil (route : List Hop) : along route ([] : List (Delivery M)) = [] := rfl

@[simp] theorem along_append (route : List Hop) (first second : List (Delivery M)) :
    along route (first ++ second) = along route first ++ along route second := by
  simp [along]

theorem along_via (hop : Hop) (route : List Hop) (deliveries : List (Delivery M)) :
    along (hop :: route) (deliveries.map (.via hop)) = along route deliveries := by
  simp [along, List.filter_map, Function.comp_def, Delivery.via, List.flatMap_map]

theorem along_other {hop : Hop} {route : List Hop} (other : ∀ rest, route ≠ hop :: rest)
    (deliveries : List (Delivery M)) : along route (deliveries.map (.via hop)) = [] := by
  have none : ∀ delivery ∈ deliveries, ¬ (delivery.via hop).route = route :=
    fun delivery _ same => other delivery.route same.symm
  simp only [along, List.filter_map]
  rw [List.filter_eq_nil_iff.mpr (by simpa using none)]
  rfl

/-- A route leads to at most one entry of a table. -/
theorem along_entries (id : Nat) (route : List Hop) (listeners : List (Listener M)) (start : Nat) :
    (∀ each, along route (entryDeliveries id start each listeners) = []) ∨
      ∃ listener ∈ listeners, ∃ rest, ∀ each,
        along route (entryDeliveries id start each listeners) = along rest (each listener) := by
  induction listeners generalizing start with
  | nil => exact .inl fun _ => rfl
  | cons listener others ih =>
    by_cases here : ∃ rest, route = .entry id start :: rest
    · obtain ⟨rest, rfl⟩ := here
      refine .inr ⟨listener, by simp, rest, fun each => ?_⟩
      have later : ∀ next, start < next →
          along (.entry id start :: rest) (entryDeliveries id next each others) = [] := by
        clear ih
        induction others with
        | nil => exact fun _ _ => rfl
        | cons other others ih =>
          intro next larger
          rw [entryDeliveries, along_append, ih (next + 1) (by omega),
            along_other (fun rest same => by injection same with same; injection same; omega)]
          rfl
      rw [entryDeliveries, along_append, along_via, later _ (Nat.lt_succ_self _), List.append_nil]
    · have skipped : ∀ each, along route (entryDeliveries id start each (listener :: others)) =
          along route (entryDeliveries id (start + 1) each others) := by
        intro each
        rw [entryDeliveries, along_append, along_other fun rest same => here ⟨rest, same⟩, List.nil_append]
      rcases ih (start + 1) with nothing | ⟨other, member, rest, same⟩
      · exact .inl fun each => (skipped each).trans (nothing each)
      · exact .inr ⟨other, List.mem_cons_of_mem _ member, rest, fun each => (skipped each).trans (same each)⟩

theorem performAll_append (stores : Nat → Store M C) (first second : List (Delivery M))
    (destinations : Destinations C) :
    performAll stores (first ++ second) destinations =
      performAll stores second (performAll stores first destinations) := List.foldl_append

@[simp] theorem performAll_via (stores : Nat → Store M C) (hop : Hop) (deliveries : List (Delivery M))
    (destinations : Destinations C) :
    performAll stores (deliveries.map (.via hop)) destinations = performAll stores deliveries destinations :=
  List.foldl_map

theorem Filter.batches_flatten (batch : Nat) (messages buffer : List M) :
    (Filter.batches batch messages buffer).flatten = buffer ++ messages := by
  induction messages generalizing buffer with
  | nil => simp [batches]
  | cons message rest ih =>
    simp only [batches]
    split <;> simp [ih]

end Nosy
