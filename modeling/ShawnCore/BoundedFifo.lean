import ShawnCore.EventLog

/-!
# Bounded first-in first-out queues

The atomic queue of capacity `capacity`, as a relation between its content
before and after one operation, and the histories it allows.  An implementation
refines the queue when the operations it completes, in the order of their
effects, form such a history.
-/

namespace BoundedFifo

variable {α : Type*} {capacity : ℕ}

/-- One completed operation. -/
inductive Event (α : Type*)
  | pushed (item : α)
  | full
  | popped (item : α)
  | peeked (item : α)
  | empty
deriving DecidableEq

inductive Step (capacity : ℕ) : List α → Event α → List α → Prop
  | pushed {items : List α} (item : α) (hroom : items.length < capacity) :
      Step capacity items (.pushed item) (items ++ [item])
  | full {items : List α} (hfull : items.length = capacity) :
      Step capacity items .full items
  | popped (item : α) (rest : List α) :
      Step capacity (item :: rest) (.popped item) rest
  | peeked (item : α) (rest : List α) :
      Step capacity (item :: rest) (.peeked item) (item :: rest)
  | empty : Step capacity [] .empty []

/-- The operations of a history, oldest first, and the content after them. -/
inductive History (capacity : ℕ) : List (Event α) → List α → Prop
  | nil : History capacity [] []
  | snoc {events : List (Event α)} {items next : List α} {event : Event α}
      (hbefore : History capacity events items)
      (hstep : Step capacity items event next) :
      History capacity (events ++ [event]) next

def Event.pushed? : Event α → Option α
  | .pushed item => some item
  | _ => none

def Event.popped? : Event α → Option α
  | .popped item => some item
  | _ => none

/-- The items pushed are the items popped, followed by the content: nothing is
lost, duplicated or reordered. -/
theorem History.pushed_eq
    {events : List (Event α)} {items : List α}
    (hhistory : History capacity events items) :
    events.filterMap Event.pushed? =
      events.filterMap Event.popped? ++ items := by
  induction hhistory with
  | nil => rfl
  | snoc hbefore hstep ih =>
      rw [List.filterMap_append, List.filterMap_append, ih]
      cases hstep with
      | pushed item hroom =>
          simp [List.filterMap_cons, Event.pushed?, Event.popped?]
      | full hfull => simp [List.filterMap_cons, Event.pushed?, Event.popped?]
      | popped item rest =>
          simp [List.filterMap_cons, Event.pushed?, Event.popped?]
      | peeked item rest =>
          simp [List.filterMap_cons, Event.pushed?, Event.popped?]
      | empty => simp [List.filterMap_cons, Event.pushed?, Event.popped?]

theorem History.length_le
    {events : List (Event α)} {items : List α}
    (hhistory : History capacity events items) :
    items.length ≤ capacity := by
  induction hhistory with
  | nil => exact Nat.zero_le _
  | snoc hbefore hstep ih =>
      cases hstep with
      | pushed item hroom =>
          rw [List.length_append]
          exact hroom
      | full hfull => exact ih
      | popped item rest => exact (Nat.le_succ _).trans ih
      | peeked item rest => exact ih
      | empty => exact ih

/-- Every event of a history is a step of the queue from the content at its
time. -/
theorem History.step_of_split
    {events before after : List (Event α)} {event : Event α} {items : List α}
    (hhistory : History capacity events items)
    (hsplit : events = before ++ event :: after) :
    ∃ middle next, History capacity before middle ∧
      Step capacity middle event next := by
  induction hhistory generalizing after with
  | nil => simp at hsplit
  | @snoc earlier content next last hbefore hstep ih =>
      rcases EventLog.split_append_singleton hsplit with
        ⟨rfl, rfl⟩ | ⟨rest, hrest⟩
      · exact ⟨content, next, hbefore, hstep⟩
      · exact ih hrest

/-! ## Peeking -/

/-- What an operation may return while this item is at the front. -/
def Event.AgreesWith (front : α) : Event α → Prop
  | .pushed _ => True
  | .full => True
  | .popped item => item = front
  | .peeked item => item = front
  | .empty => False

theorem Step.agreesWith
    {items next : List α} {event : Event α} {front : α}
    (hfront : items.head? = some front) (hstep : Step capacity items event next) :
    event.AgreesWith front := by
  cases hstep with
  | pushed item hroom => trivial
  | full hfull => trivial
  | popped item rest => exact Option.some.inj hfront
  | peeked item rest => exact Option.some.inj hfront
  | empty => cases hfront

/-- Only a pop removes the front. -/
theorem Step.head_eq
    {items next : List α} {event : Event α} {front : α}
    (hfront : items.head? = some front) (hstep : Step capacity items event next)
    (hkept : event.popped? = none) :
    next.head? = some front := by
  cases hstep with
  | pushed item hroom =>
      rw [List.head?_append, hfront]
      rfl
  | full hfull => exact hfront
  | popped item rest => cases hkept
  | peeked item rest => exact hfront
  | empty => exact hfront

theorem History.last_step
    {events : List (Event α)} {event : Event α} {items : List α}
    (hhistory : History capacity (events ++ [event]) items) :
    ∃ earlier, History capacity events earlier ∧
      Step capacity earlier event items := by
  generalize hwhole : events ++ [event] = whole at hhistory
  cases hhistory with
  | nil => simp at hwhole
  | @snoc before content _ last hbefore hstep =>
      have hparts := List.append_inj' hwhole rfl
      cases hparts.2
      rw [hparts.1]
      exact ⟨content, hbefore, hstep⟩

/-- A peeked item stays at the front until the next pop. -/
theorem History.head_of_peeked
    {before middle : List (Event α)} {front : α} {items : List α}
    (hhistory : History capacity (before ++ .peeked front :: middle) items)
    (hkept : ∀ event ∈ middle, event.popped? = none) :
    items.head? = some front := by
  induction middle using List.reverseRecOn generalizing items with
  | nil =>
      obtain ⟨earlier, -, hstep⟩ := hhistory.last_step
      cases hstep with
      | peeked item rest => rfl
  | append_singleton middle last ih =>
      rw [← List.cons_append, ← List.append_assoc] at hhistory
      obtain ⟨earlier, hearlier, hstep⟩ := hhistory.last_step
      have hfront := ih hearlier
        (fun event hevent => hkept event (List.mem_append_left _ hevent))
      exact hstep.head_eq hfront (hkept last (by simp))

theorem History.agreesWith_peeked
    {before middle after : List (Event α)} {front : α} {event : Event α}
    {items : List α}
    (hhistory : History capacity
      (before ++ .peeked front :: (middle ++ event :: after)) items)
    (hkept : ∀ earlier ∈ middle, earlier.popped? = none) :
    event.AgreesWith front := by
  have hsplit : before ++ .peeked front :: (middle ++ event :: after) =
      (before ++ .peeked front :: middle) ++ event :: after := by
    simp
  obtain ⟨content, next, hcontent, hstep⟩ := hhistory.step_of_split hsplit
  exact hstep.agreesWith (hcontent.head_of_peeked hkept)

end BoundedFifo
