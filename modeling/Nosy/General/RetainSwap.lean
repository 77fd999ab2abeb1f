import Mathlib.Data.List.Basic
import Mathlib.Data.List.Perm.Basic

/-! Filtering a vector in place with `swap_remove`, for a test that may itself
change a state or fail. The loop walks an index over a vector that shrinks under
it; here it is reduced to one ordinary pass over a permutation of the vector. -/

namespace RetainSwap

open EStateM (Result)

variable {α σ ε : Type}

/-- Replace element `index` by the last element and shorten the vector by one. -/
def swapRemove (items : List α) (index : Nat) : List α :=
  match items.getLast? with
  | none => items
  | some last => (items.set index last).dropLast

/-- `while index < items.len() { if keep(items[index]) { index += 1 } else
{ items.swap_remove(index) } }`. A failing test leaves the vector as it is. -/
def retain (keep : α → EStateM ε σ Bool) : Nat → Nat → List α → σ → List α × Result ε σ Unit
  | 0, _, items, state => (items, .ok () state)
  | fuel + 1, index, items, state =>
    match items[index]? with
    | none => (items, .ok () state)
    | some item =>
      match keep item state with
      | .error failure after => (items, .error failure after)
      | .ok true after => retain keep fuel (index + 1) items after
      | .ok false after => retain keep fuel index (swapRemove items index) after

/-- Ask every item once, from left to right, and keep those answering `true`. -/
def select (keep : α → EStateM ε σ Bool) : List α → EStateM ε σ (List α)
  | [], state => .ok [] state
  | item :: rest, state =>
    match keep item state with
    | .error failure after => .error failure after
    | .ok answer after =>
      match select keep rest after with
      | .error failure last => .error failure last
      | .ok kept last => .ok (if answer then item :: kept else kept) last

/-- The same loop as the source writes it, with nothing that bounds its steps: it
relates where the loop stands to how it ends, if it ends. -/
inductive Loop (keep : α → EStateM ε σ Bool) : Nat → List α → σ → List α × Result ε σ Unit → Prop
  | exit {index : Nat} {items : List α} {state : σ} : items.length ≤ index →
      Loop keep index items state (items, .ok () state)
  | fail {index : Nat} {items : List α} {item : α} {state after : σ} {failure : ε} :
      items[index]? = some item → keep item state = .error failure after →
      Loop keep index items state (items, .error failure after)
  | keep {index : Nat} {items : List α} {item : α} {state after : σ} {ended : List α × Result ε σ Unit} :
      items[index]? = some item → keep item state = .ok true after →
      Loop keep (index + 1) items after ended → Loop keep index items state ended
  | drop {index : Nat} {items : List α} {item : α} {state after : σ} {ended : List α × Result ε σ Unit} :
      items[index]? = some item → keep item state = .ok false after →
      Loop keep index (swapRemove items index) after ended → Loop keep index items state ended

/-- The items asked one after the other, each with the answer it gave. -/
inductive Pass (keep : α → EStateM ε σ Bool) : List (α × Bool) → σ → σ → Prop
  | done {state : σ} : Pass keep [] state state
  | ask {item : α} {answer : Bool} {asked : List (α × Bool)} {first middle last : σ} :
      keep item first = .ok answer middle → Pass keep asked middle last →
      Pass keep ((item, answer) :: asked) first last

/-- The vector and outcome of a loop that has kept `front` and selects over the rest. -/
def Agrees (front : List α) (looped : List α × Result ε σ Unit) (selected : Result ε σ (List α)) : Prop :=
  match selected with
  | .ok kept state => looped = (front ++ kept, .ok () state)
  | .error failure state => looped.2 = .error failure state

theorem swapRemove_middle (front : List α) (item : α) (rest : List α) :
    ∃ moved, swapRemove (front ++ item :: rest) front.length = front ++ moved ∧ moved.Perm rest := by
  rcases List.eq_nil_or_concat rest with rfl | ⟨init, last, rfl⟩
  · refine ⟨[], ?_, .refl _⟩
    simp [swapRemove]
  · refine ⟨last :: init, ?_, ?_⟩
    · have shape : front ++ item :: (init ++ [last]) = (front ++ item :: init) ++ [last] := by simp
      have replaced : (front ++ item :: (init ++ [last])).set front.length last =
          (front ++ last :: init) ++ [last] := by simp
      rw [List.concat_eq_append]
      simp only [swapRemove, shape, List.getLast?_concat]
      rw [← shape, replaced, List.dropLast_concat]
    · rw [List.concat_eq_append]
      exact (List.perm_append_singleton last init).symm

theorem swapRemove_inside {items : List α} {index : Nat} (inside : index < items.length) :
    ∃ moved, swapRemove items index = items.take index ++ moved ∧ moved.Perm (items.drop (index + 1)) := by
  have split : items.take index ++ items[index] :: items.drop (index + 1) = items := by simp
  have taken : (items.take index).length = index := List.length_take_of_le (Nat.le_of_lt inside)
  have shape := swapRemove_middle (items.take index) items[index] (items.drop (index + 1))
  rwa [taken, split] at shape

theorem swapRemove_length {items : List α} {index : Nat} (inside : index < items.length) :
    (swapRemove items index).length + 1 = items.length := by
  obtain ⟨moved, shape, permuted⟩ := swapRemove_inside inside
  rw [shape, List.length_append, permuted.length_eq, List.length_take, List.length_drop]
  omega

theorem swapRemove_subset (items : List α) (index : Nat) : swapRemove items index ⊆ items := by
  intro item member
  unfold swapRemove at member
  split at member
  · exact member
  next last found =>
    rcases List.mem_or_eq_of_mem_set (List.dropLast_subset _ member) with kept | rfl
    · exact kept
    · exact List.mem_of_getLast? found

theorem swapRemove_subperm {items : List α} {index : Nat} (inside : index < items.length) :
    (swapRemove items index).Subperm items := by
  have split : items.take index ++ items[index] :: items.drop (index + 1) = items := by simp
  obtain ⟨moved, shape, permuted⟩ := swapRemove_inside inside
  have fewer : (items.take index ++ items.drop (index + 1)).Sublist
      (items.take index ++ items[index] :: items.drop (index + 1)) := (List.sublist_cons_self _ _).append_left _
  rw [split] at fewer
  rw [shape]
  exact (permuted.append_left _).subperm.trans fewer.subperm

theorem loop_exit_iff {keep : α → EStateM ε σ Bool} {index : Nat} {items : List α} {state : σ}
    {ended : List α × Result ε σ Unit} (finished : items.length ≤ index) :
    Loop keep index items state ended ↔ ended = (items, .ok () state) := by
  have outside : items[index]? = none := List.getElem?_eq_none finished
  constructor
  · intro run
    cases run with
    | exit _ => rfl
    | fail found _ | keep found _ _ | drop found _ _ => simp [outside] at found
  · intro same
    rw [same]
    exact .exit finished

/-- Each round leaves fewer items ahead of the index, so the loop ends, with the
one outcome that `retain` computes. -/
theorem loop_iff {keep : α → EStateM ε σ Bool} {fuel index : Nat} {items : List α} {state : σ}
    {ended : List α × Result ε σ Unit} (enough : items.length - index ≤ fuel) :
    Loop keep index items state ended ↔ ended = retain keep fuel index items state := by
  induction fuel generalizing index items state with
  | zero => exact loop_exit_iff (by omega)
  | succ fuel ih =>
    simp only [retain]
    cases found : items[index]? with
    | none => exact loop_exit_iff (List.getElem?_eq_none_iff.mp found)
    | some item =>
      obtain ⟨inside, _⟩ := List.getElem?_eq_some_iff.mp found
      have shorter := swapRemove_length inside
      dsimp only
      constructor
      · intro run
        cases run with
        | exit finished => omega
        | fail reached asked =>
          rw [found, Option.some.injEq] at reached
          simp [reached, asked]
        | keep reached asked later =>
          rw [found, Option.some.injEq] at reached
          simpa [reached, asked] using (ih (by omega)).mp later
        | drop reached asked later =>
          rw [found, Option.some.injEq] at reached
          simpa [reached, asked] using (ih (by omega)).mp later
      · intro same
        cases asked : keep item state with
        | error failure after =>
          rw [same, asked]
          exact .fail found asked
        | ok answer after =>
          rw [asked] at same
          cases answer with
          | true => exact .keep found asked ((ih (by omega)).mpr same)
          | false => exact .drop found asked ((ih (by omega)).mpr same)

/-- The loop only ever removes items, even when a test fails in it. -/
theorem retain_subperm (keep : α → EStateM ε σ Bool) (fuel index : Nat) (items : List α) (state : σ) :
    (retain keep fuel index items state).1.Subperm items := by
  induction fuel generalizing index items state with
  | zero => exact List.Subperm.refl items
  | succ fuel ih =>
    simp only [retain]
    cases found : items[index]? with
    | none => exact List.Subperm.refl items
    | some item =>
      obtain ⟨inside, _⟩ := List.getElem?_eq_some_iff.mp found
      dsimp only
      split
      · exact List.Subperm.refl items
      · exact ih _ _ _
      · exact (ih _ _ _).trans (swapRemove_subperm inside)

/-- Whatever order `swap_remove` leaves behind, the loop asks each remaining item
exactly once: it is one pass over some permutation of them. -/
theorem retain_agrees (keep : α → EStateM ε σ Bool) (fuel : Nat) (front rest : List α) (state : σ)
    (enough : rest.length ≤ fuel) :
    ∃ order : List α, order.Perm rest ∧
      Agrees front (retain keep fuel front.length (front ++ rest) state) (select keep order state) := by
  induction fuel generalizing front rest state with
  | zero =>
    have empty : rest = [] := List.length_eq_zero_iff.mp (Nat.le_zero.mp enough)
    subst rest
    exact ⟨[], .refl _, by simp [Agrees, select, retain]⟩
  | succ fuel ih =>
    cases rest with
    | nil => exact ⟨[], .refl _, by simp [Agrees, select, retain]⟩
    | cons item rest =>
      have found : (front ++ item :: rest)[front.length]? = some item := by simp
      simp only [retain, found]
      cases asked : keep item state with
      | error failure after =>
        exact ⟨item :: rest, .refl _, by simp [Agrees, select, asked]⟩
      | ok answer after =>
        cases answer with
        | true =>
          obtain ⟨order, same, agrees⟩ := ih (front ++ [item]) rest after (by simpa using enough)
          refine ⟨item :: order, same.cons item, ?_⟩
          simp only [select, asked, if_true]
          cases selected : select keep order after <;> simpa [selected, Agrees] using agrees
        | false =>
          obtain ⟨moved, shape, permuted⟩ := swapRemove_middle front item rest
          obtain ⟨order, same, agrees⟩ := ih front moved after
            (by simpa [permuted.length_eq] using enough)
          refine ⟨item :: order, (same.trans permuted).cons item, ?_⟩
          simp only [select, asked, shape]
          cases selected : select keep order after <;> simpa [selected, Agrees] using agrees

theorem swapRemove_perm {items : List α} {index : Nat} {item : α} (found : items[index]? = some item) :
    items.Perm (item :: swapRemove items index) := by
  obtain ⟨inside, rfl⟩ := List.getElem?_eq_some_iff.mp found
  obtain ⟨moved, shape, permuted⟩ := swapRemove_inside inside
  have split : items.take index ++ items[index] :: items.drop (index + 1) = items := by simp
  calc items
    _ = items.take index ++ items[index] :: items.drop (index + 1) := split.symm
    _ |>.Perm (items[index] :: (items.take index ++ items.drop (index + 1))) := List.perm_middle
    _ |>.Perm (items[index] :: swapRemove items index) := by
      rw [shape]
      exact ((permuted.append_left _).symm).cons _

theorem swapRemove_take {items : List α} {index : Nat} {item : α} (found : items[index]? = some item) :
    (swapRemove items index).take index = items.take index := by
  obtain ⟨inside, rfl⟩ := List.getElem?_eq_some_iff.mp found
  obtain ⟨moved, shape, _⟩ := swapRemove_inside inside
  have taken : (items.take index).length = index := List.length_take_of_le (Nat.le_of_lt inside)
  rw [shape, List.take_append_of_le_length (by omega), List.take_of_length_le (by omega)]

/-- How a loop ends with `motive` at the index it has come to, or where a test fails. -/
def Ends (keep : α → EStateM ε σ Bool) (motive : Nat → List α → σ → Prop) : List α × Result ε σ Unit → Prop
  | (left, .ok () last) => ∃ stop, left.length ≤ stop ∧ motive stop left last
  | (left, .error failure last) =>
    ∃ stop item before, left[stop]? = some item ∧ keep item before = .error failure last ∧ motive stop left before

/-- The rule of the loop: what holds before it, and is kept by every item that stays
and every item that goes, holds when it ends. -/
theorem retain_rule {keep : α → EStateM ε σ Bool} {fuel index : Nat} {items : List α} {state : σ}
    (motive : Nat → List α → σ → Prop) (enough : items.length - index ≤ fuel)
    (initial : motive index items state)
    (kept : ∀ index items item before after, items[index]? = some item → keep item before = .ok true after →
      motive index items before → motive (index + 1) items after)
    (dropped : ∀ index items item before after, items[index]? = some item → keep item before = .ok false after →
      motive index items before → motive index (swapRemove items index) after) :
    Ends keep motive (retain keep fuel index items state) := by
  induction fuel generalizing index items state with
  | zero => exact ⟨index, by omega, initial⟩
  | succ fuel ih =>
    simp only [retain]
    cases found : items[index]? with
    | none => exact ⟨index, List.getElem?_eq_none_iff.mp found, initial⟩
    | some item =>
      obtain ⟨inside, _⟩ := List.getElem?_eq_some_iff.mp found
      have shorter := swapRemove_length inside
      cases asked : keep item state with
      | error failure after =>
        simp only [asked]
        exact ⟨index, item, state, found, asked, initial⟩
      | ok answer after =>
        simp only [asked]
        cases answer with
        | true =>
          apply ih _ (kept index items item state after found asked initial)
          omega
        | false =>
          apply ih _ (dropped index items item state after found asked initial)
          omega

/-- Answers that follow a fixed predicate while an invariant holds follow it
throughout a pass. -/
theorem Pass.answers {keep : α → EStateM ε σ Bool} {asked : List (α × Bool)} {first last : σ}
    (pass : Pass keep asked first last) (invariant : σ → Prop) (answer : α → Bool)
    (asks : ∀ item ∈ asked, ∀ before reply after, invariant before → keep item.1 before = .ok reply after →
      reply = answer item.1 ∧ invariant after)
    (initial : invariant first) : (∀ item ∈ asked, item.2 = answer item.1) ∧ invariant last := by
  induction pass with
  | done => exact ⟨by simp, initial⟩
  | @ask item reply asked first middle last called _ ih =>
    obtain ⟨same, still⟩ := asks (item, reply) (by simp) first reply middle initial called
    obtain ⟨others, ended⟩ := ih (fun other member => asks other (by simp [member])) still
    exact ⟨List.forall_mem_cons.mpr ⟨same, others⟩, ended⟩

theorem kept_filter {asked : List (α × Bool)} {answer : α → Bool} (same : ∀ item ∈ asked, item.2 = answer item.1) :
    (asked.filter (·.2)).map (·.1) = (asked.map (·.1)).filter answer := by
  rw [List.filter_map]
  congr 1
  exact List.filter_congr same

/-- Selecting is one pass that keeps what answered `true`. -/
theorem select_pass {keep : α → EStateM ε σ Bool} {items kept : List α} {first last : σ}
    (selected : select keep items first = .ok kept last) :
    ∃ asked : List (α × Bool), asked.map (·.1) = items ∧ Pass keep asked first last ∧
      kept = (asked.filter (·.2)).map (·.1) := by
  induction items generalizing first kept with
  | nil =>
    cases selected
    exact ⟨[], rfl, .done, rfl⟩
  | cons item rest ih =>
    simp only [select] at selected
    cases called : keep item first with
    | error failure after => simp [called] at selected
    | ok answer after =>
      cases remaining : select keep rest after with
      | error failure final => simp [called, remaining] at selected
      | ok survivors final =>
        simp only [called, remaining] at selected
        cases selected
        obtain ⟨asked, items, pass, rfl⟩ := ih remaining
        refine ⟨(item, answer) :: asked, by simp [items], .ask called pass, ?_⟩
        cases answer <;> simp

/-- Filtering in place is one pass over the items in some order, which keeps what
answered `true`. -/
theorem retain_pass {keep : α → EStateM ε σ Bool} {fuel : Nat} {items kept : List α} {first last : σ}
    (enough : items.length ≤ fuel) (looped : retain keep fuel 0 items first = (kept, .ok () last)) :
    ∃ asked : List (α × Bool), (asked.map (·.1)).Perm items ∧ Pass keep asked first last ∧
      kept = (asked.filter (·.2)).map (·.1) := by
  obtain ⟨order, same, agrees⟩ := retain_agrees keep fuel [] items first enough
  simp only [List.length_nil, List.nil_append, looped] at agrees
  cases selected : select keep order first with
  | error failure after => simp [selected, Agrees] at agrees
  | ok survivors after =>
    simp only [selected, Agrees, List.nil_append, Prod.mk.injEq, Result.ok.injEq, true_and] at agrees
    obtain ⟨rfl, rfl⟩ := agrees
    obtain ⟨asked, rfl, pass, rfl⟩ := select_pass selected
    exact ⟨asked, same, pass, rfl⟩

end RetainSwap
