/-!
# Bounded queues

A queue between two stages of a pipeline holds at most its capacity and can be
closed.  A closed queue takes nothing more but can still be emptied.  An
operation that would have to wait says so and changes nothing, so a worker that
waits is a worker whose next step is not possible yet.
-/

namespace ListMode

/-- A first-in first-out queue of limited capacity. -/
structure Queue (α : Type) where
  /-- The most items it holds. -/
  capacity : Nat
  /-- The items, oldest first. -/
  items : List α := []
  /-- It takes nothing more. -/
  closed : Bool := false
deriving DecidableEq, Repr

/-- What became of an item offered to a queue. -/
inductive Offer (α : Type) where
  /-- The queue took it. -/
  | accepted (q : Queue α)
  /-- The queue is closed and gives it back. -/
  | refused (item : α)
  /-- The queue is full, and the offer has to wait. -/
  | blocks
deriving DecidableEq, Repr

/-- What a queue gave when it was asked for an item. -/
inductive Taking (α : Type) where
  /-- The oldest item, and the queue without it. -/
  | got (item : α) (q : Queue α)
  /-- The queue is closed and empty. -/
  | ended
  /-- The queue is empty but open, and the request has to wait. -/
  | blocks
deriving DecidableEq, Repr

namespace Queue

variable {α : Type}

/-- An open and empty queue; a queue always holds at least one item. -/
def ofCapacity (capacity : Nat) : Queue α := { capacity := max capacity 1 }

/-- Offers an item. -/
def enqueue (q : Queue α) (item : α) : Offer α :=
  if q.closed then .refused item
  else if q.items.length < q.capacity then .accepted { q with items := q.items ++ [item] }
  else .blocks

/-- Asks for the oldest item. -/
def dequeue (q : Queue α) : Taking α :=
  match q.items with
  | item :: rest => .got item { q with items := rest }
  | [] => if q.closed then .ended else .blocks

/-- Asks for the oldest item and waits no longer than some time; an open queue
that stays empty gives nothing. -/
def dequeueOrTimeout (q : Queue α) : Option (α × Queue α) :=
  match q.dequeue with
  | .got item q => some (item, q)
  | .ended | .blocks => none

/-- Closes the queue. -/
def close (q : Queue α) : Queue α := { q with closed := true }

/-- Offers items one after the other until one has to wait.  Gives the queue,
the items it gave back and the items not offered. -/
def fill (q : Queue α) : List α → Queue α × List α × List α
  | [] => (q, [], [])
  | item :: items =>
    match q.enqueue item with
    | .accepted q => q.fill items
    | .refused item =>
      let (q, refused, waiting) := q.fill items
      (q, item :: refused, waiting)
    | .blocks => (q, [], item :: items)

/-- What two workers that share a queue did. -/
structure Transfer (α : Type) where
  /-- The items taken, in order. -/
  got : List α
  /-- The items given back. -/
  refused : List α
  /-- The most items the queue held. -/
  highest : Nat
  /-- The queue in the end. -/
  queue : Queue α

/-- One worker offers items and then closes the queue, another takes items until
it ends; the first goes on as long as it can, then the second takes one item.
`fuel` bounds the number of takings. -/
def transfer (q : Queue α) (items : List α) : (fuel : Nat) → Transfer α
  | 0 => ⟨[], [], q.items.length, q⟩
  | fuel + 1 =>
    let (full, refused, waiting) := q.fill items
    let offered := if waiting.isEmpty then full.close else full
    match offered.dequeue with
    | .got item rest =>
      let t := transfer rest waiting fuel
      { t with
        got := item :: t.got
        refused := refused ++ t.refused
        highest := max full.items.length t.highest }
    | .ended | .blocks => ⟨[], refused, full.items.length, offered⟩

/-! ## What an operation did to the items -/

theorem enqueue_eq_accepted {q q' : Queue α} {a : α} :
    q.enqueue a = .accepted q' ↔
      q.closed = false ∧ q.items.length < q.capacity ∧ q' = { q with items := q.items ++ [a] } := by
  unfold enqueue
  split
  · next hc => simp [hc]
  · next hc =>
    split
    · next hlt => simp [hc, hlt, @eq_comm _ q']
    · next hle => simp [hle]

theorem enqueue_eq_refused {q : Queue α} {a b : α} :
    q.enqueue a = .refused b ↔ q.closed = true ∧ b = a := by
  unfold enqueue
  split
  · next hc => simp [hc, eq_comm]
  · next hc => split <;> simp [hc]

theorem enqueue_eq_blocks {q : Queue α} {a : α} :
    q.enqueue a = .blocks ↔ q.closed = false ∧ q.capacity ≤ q.items.length := by
  unfold enqueue
  split
  · next hc => simp [hc]
  · next hc =>
    split
    · next hlt => simp [hlt]
    · next hle => simpa [hc] using hle

theorem enqueue_ne_blocks {q : Queue α} {a : α}
    (h : q.closed = true ∨ q.items.length < q.capacity) : q.enqueue a ≠ .blocks := by
  unfold enqueue
  rcases h with hc | hroom
  · simp [hc]
  · split
    · simp
    · simp

theorem dequeue_eq_got {q q' : Queue α} {a : α} :
    q.dequeue = .got a q' ↔ q.items = a :: q'.items ∧ q' = { q with items := q'.items } := by
  unfold dequeue
  cases q.items with
  | nil => cases q.closed <;> exact ⟨nofun, fun h => nomatch h.1⟩
  | cons b rest =>
    simp only [Taking.got.injEq, List.cons.injEq]
    constructor
    · rintro ⟨rfl, rfl⟩
      exact ⟨⟨rfl, rfl⟩, rfl⟩
    · rintro ⟨⟨rfl, h⟩, h'⟩
      exact ⟨rfl, by rw [h', h]⟩

theorem dequeue_eq_ended {q : Queue α} : q.dequeue = .ended ↔ q.items = [] ∧ q.closed = true := by
  unfold dequeue
  cases q.items with
  | nil => cases q.closed <;> simp
  | cons a rest => simp

theorem dequeue_eq_blocks {q : Queue α} :
    q.dequeue = .blocks ↔ q.items = [] ∧ q.closed = false := by
  unfold dequeue
  cases q.items with
  | nil => cases q.closed <;> simp
  | cons a rest => simp

theorem dequeueOrTimeout_eq_some {q q' : Queue α} {a : α} :
    q.dequeueOrTimeout = some (a, q') ↔ q.dequeue = .got a q' := by
  unfold dequeueOrTimeout
  cases q.dequeue with
  | got b q'' => simp
  | ended => simp
  | blocks => simp

theorem dequeue_ne_blocks {q : Queue α} (h : q.items ≠ [] ∨ q.closed = true) :
    q.dequeue ≠ .blocks := by
  unfold dequeue
  cases hitems : q.items with
  | nil =>
    have hc : q.closed = true := h.resolve_left fun hne => hne hitems
    simp [hc]
  | cons a rest => simp

/-- The queue holds no more than its capacity. -/
def Bounded (q : Queue α) : Prop := q.items.length ≤ q.capacity

theorem bounded_ofCapacity (n : Nat) : (ofCapacity n : Queue α).Bounded := by
  simp [Bounded, ofCapacity]

theorem bounded_of_enqueue {q q' : Queue α} {a : α} (h : q.enqueue a = .accepted q') :
    q'.Bounded := by
  obtain ⟨-, hlt, rfl⟩ := enqueue_eq_accepted.1 h
  simpa [Bounded] using Nat.succ_le_of_lt hlt

theorem Bounded.dequeue {q q' : Queue α} {a : α} (hq : q.Bounded) (h : q.dequeue = .got a q') :
    q'.Bounded := by
  obtain ⟨hi, hq'⟩ := dequeue_eq_got.1 h
  have hc : q'.capacity = q.capacity := by rw [hq']
  have := hq
  simp only [Bounded, hi, List.length_cons] at this
  simp only [Bounded, hc]
  omega

end Queue

example : (Queue.ofCapacity 0 : Queue Nat).enqueue 5 = .accepted ⟨1, [5], false⟩ := by decide
example : ((Queue.ofCapacity 2).transfer [1, 2, 3, 4, 5] 6).got = [1, 2, 3, 4, 5] := by decide

end ListMode
