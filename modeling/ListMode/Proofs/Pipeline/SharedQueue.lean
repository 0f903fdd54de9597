import Mathlib.Logic.Function.Basic
import ListMode.Pipeline.Queue

/-!
# A queue that threads share

Any number of threads make requests of one queue.  A thread takes the lock, goes
through what its request does, and either leaves with its answer or waits and
comes back later; what it does under the lock is one step (`Step`).  A thread
that waits may come back at any time, whatever woke it, and a thread whose
deadline has passed may leave with nothing.  A run is a sequence of steps in any
interleaving, and its log says who did what (`Run`).

A step can change the queue in three ways only (`Change`), and everything said of
a run goes through them: what was handed out, followed by what is still there, is
what was accepted (`Run.items`), and a closed queue accepts nothing more
(`Run.closed`).
-/

namespace ListMode

/-- What a thread asks of a queue. -/
inductive Request (α : Type) where
  | enqueue (item : α)
  | dequeue
  | dequeueOrTimeout
  | close
deriving DecidableEq, Repr

/-- What a thread does while it holds the lock, or just before it takes it for
the first time. -/
inductive Act (α : Type) where
  /-- It comes with a request. -/
  | requests (r : Request α)
  /-- It cannot be answered yet. -/
  | waits
  /-- Its item is in the queue. -/
  | accepted (item : α)
  /-- It gets an item back. -/
  | refused (item : α)
  /-- It is given the oldest item. -/
  | handed (item : α)
  /-- There is nothing more to be given. -/
  | ended
  /-- It is given nothing, for one of two reasons. -/
  | nothing
  /-- The queue is closed now. -/
  | closed
deriving DecidableEq, Repr

namespace Act

variable {α : Type}

def accepted? : Act α → Option α
  | .accepted item => some item
  | _ => none

def handed? : Act α → Option α
  | .handed item => some item
  | _ => none

def request? : Act α → Option (Request α)
  | .requests r => some r
  | _ => none

end Act

/-- A queue and the threads' requests that are not answered yet. -/
structure SharedQueue (Thread α : Type) where
  queue : Queue α
  pending : Thread → Option (Request α)

namespace SharedQueue

variable {Thread α : Type}

/-- A new queue; no thread has asked anything of it. -/
def ofCapacity (n : Nat) : SharedQueue Thread α := ⟨Queue.ofCapacity n, fun _ => none⟩

/-- The items the queue took, in order. -/
def accepted (log : List (Thread × Act α)) : List α := log.filterMap (·.2.accepted?)

/-- The items the queue gave, in order. -/
def handedOut (log : List (Thread × Act α)) : List α := log.filterMap (·.2.handed?)

theorem accepted_cons (e : Thread × Act α) (log : List (Thread × Act α)) :
    accepted (e :: log) = e.2.accepted?.toList ++ accepted log := by
  cases h : e.2.accepted? with
  | none => simp [accepted, h]
  | some item => simp [accepted, h]

theorem handedOut_cons (e : Thread × Act α) (log : List (Thread × Act α)) :
    handedOut (e :: log) = e.2.handed?.toList ++ handedOut log := by
  cases h : e.2.handed? with
  | none => simp [handedOut, h]
  | some item => simp [handedOut, h]

variable [DecidableEq Thread]

/-- The thread takes up a request. -/
def ask (s : SharedQueue Thread α) (t : Thread) (r : Request α) : SharedQueue Thread α :=
  { s with pending := Function.update s.pending t (some r) }

/-- The thread's request is answered, and this is the queue it leaves. -/
def answer (s : SharedQueue Thread α) (t : Thread) (q : Queue α) : SharedQueue Thread α :=
  { queue := q, pending := Function.update s.pending t none }

@[simp] theorem answer_queue (s : SharedQueue Thread α) (t : Thread) (q : Queue α) :
    (s.answer t q).queue = q := rfl

@[simp] theorem ask_queue (s : SharedQueue Thread α) (t : Thread) (r : Request α) :
    (s.ask t r).queue = s.queue := rfl

/-- One thread does one thing. -/
inductive Step (s : SharedQueue Thread α) : Thread × Act α → SharedQueue Thread α → Prop where
  | requests {t r} (idle : s.pending t = none) : Step s (t, .requests r) (s.ask t r)
  | accepted {t item q} (at_ : s.pending t = some (.enqueue item))
      (takes : s.queue.enqueue item = .accepted q) : Step s (t, .accepted item) (s.answer t q)
  | refused {t item back} (at_ : s.pending t = some (.enqueue item))
      (gives : s.queue.enqueue item = .refused back) :
      Step s (t, .refused back) (s.answer t s.queue)
  | full {t item} (at_ : s.pending t = some (.enqueue item))
      (blocks : s.queue.enqueue item = .blocks) : Step s (t, .waits) s
  | handed {t item q} (at_ : s.pending t = some .dequeue)
      (gives : s.queue.dequeue = .got item q) : Step s (t, .handed item) (s.answer t q)
  | ended {t} (at_ : s.pending t = some .dequeue) (ends : s.queue.dequeue = .ended) :
      Step s (t, .ended) (s.answer t s.queue)
  | empty {t} (at_ : s.pending t = some .dequeue) (blocks : s.queue.dequeue = .blocks) :
      Step s (t, .waits) s
  | handedInTime {t item q} (at_ : s.pending t = some .dequeueOrTimeout)
      (gives : s.queue.dequeueOrTimeout = some (item, q)) :
      Step s (t, .handed item) (s.answer t q)
  | nothing {t} (at_ : s.pending t = some .dequeueOrTimeout)
      (gives : s.queue.dequeueOrTimeout = none) : Step s (t, .nothing) (s.answer t s.queue)
  | emptyInTime {t} (at_ : s.pending t = some .dequeueOrTimeout)
      (blocks : s.queue.dequeue = .blocks) : Step s (t, .waits) s
  | closed {t} (at_ : s.pending t = some .close) :
      Step s (t, .closed) (s.answer t s.queue.close)

/-- Threads do one thing after the other, and the log says what. -/
inductive Run : SharedQueue Thread α → List (Thread × Act α) → SharedQueue Thread α → Prop where
  | nil {s} : Run s [] s
  | step {s s' s'' e log} (first : Step s e s') (rest : Run s' log s'') : Run s (e :: log) s''

/-- What the thread asks for here. -/
def requestBy (t : Thread) (e : Thread × Act α) : Option (Request α) :=
  if e.1 = t then e.2.request? else none

/-- The last thing a thread asked for. -/
def lastRequest (t : Thread) (log : List (Thread × Act α)) : Option (Request α) :=
  (log.filterMap (requestBy t)).getLast?

theorem requestBy_eq_none {act : Act α} (t u : Thread) (h : act.request? = none) :
    requestBy t (u, act) = none := by
  simp [requestBy, h]

theorem lastRequest_cons (t : Thread) (e : Thread × Act α) (log : List (Thread × Act α)) :
    lastRequest t (e :: log) = (lastRequest t log).or (requestBy t e) := by
  cases h : requestBy t e with
  | none => simp [lastRequest, h]
  | some r => simp [lastRequest, h, List.getLast?_cons]

/-! ## What a step does to the queue -/

/-- The ways in which a queue changes. -/
inductive Change (q : Queue α) : Act α → Queue α → Prop where
  | accepted {item} (isOpen : q.closed = false) (room : q.items.length < q.capacity) :
      Change q (.accepted item) { q with items := q.items ++ [item] }
  | handed {item rest} (front : q.items = item :: rest) :
      Change q (.handed item) { q with items := rest }
  | closed : Change q .closed q.close
  | same {act} (takes : act.accepted? = none) (gives : act.handed? = none)
      (leaves : act ≠ .closed) : Change q act q

theorem Change.of_enqueue {q q' : Queue α} {item : α} (h : q.enqueue item = .accepted q') :
    Change q (.accepted item) q' := by
  obtain ⟨isOpen, room, rfl⟩ := Queue.enqueue_eq_accepted.1 h
  exact .accepted isOpen room

theorem Change.of_dequeue {q q' : Queue α} {item : α} (h : q.dequeue = .got item q') :
    Change q (.handed item) q' := by
  obtain ⟨front, hq'⟩ := Queue.dequeue_eq_got.1 h
  rw [hq']
  exact .handed front

section Steps

variable {s s' : SharedQueue Thread α} {t : Thread} {act : Act α}

theorem Step.change (step : Step s (t, act) s') : Change s.queue act s'.queue := by
  cases step with
  | accepted at_ takes => exact .of_enqueue takes
  | handed at_ gives => exact .of_dequeue gives
  | handedInTime at_ gives => exact .of_dequeue (Queue.dequeueOrTimeout_eq_some.1 gives)
  | closed at_ => exact .closed
  | requests idle => exact .same rfl rfl nofun
  | refused at_ gives => exact .same rfl rfl nofun
  | full at_ blocks => exact .same rfl rfl nofun
  | ended at_ ends => exact .same rfl rfl nofun
  | empty at_ blocks => exact .same rfl rfl nofun
  | nothing at_ gives => exact .same rfl rfl nofun
  | emptyInTime at_ blocks => exact .same rfl rfl nofun

theorem Change.capacity {q q' : Queue α} (change : Change q act q') :
    q'.capacity = q.capacity := by
  cases change with
  | accepted isOpen room => rfl
  | handed front => rfl
  | closed => rfl
  | same takes gives leaves => rfl

theorem Change.bounded {q q' : Queue α} (change : Change q act q') (hq : q.Bounded) :
    q'.Bounded := by
  cases change with
  | accepted isOpen room => simpa [Queue.Bounded] using Nat.succ_le_of_lt room
  | handed front =>
    simp only [Queue.Bounded, front, List.length_cons] at hq
    exact Nat.le_of_succ_le hq
  | closed => exact hq
  | same takes gives leaves => exact hq

/-- What leaves the queue leaves it in front, and what comes in goes behind
everything else. -/
theorem Change.items {q q' : Queue α} (change : Change q act q') :
    act.handed?.toList ++ q'.items = q.items ++ act.accepted?.toList := by
  cases change with
  | accepted isOpen room => rfl
  | handed front => simp [front, Act.handed?, Act.accepted?]
  | closed => simp [Queue.close, Act.handed?, Act.accepted?]
  | same takes gives leaves => simp [takes, gives]

theorem Change.closed_iff {q q' : Queue α} (change : Change q act q') :
    q'.closed = true ↔ q.closed = true ∨ act = .closed := by
  cases change with
  | accepted isOpen room => simp
  | handed front => simp
  | closed => simp [Queue.close]
  | same takes gives leaves => simp [leaves]

theorem Change.accepts_nothing {q q' : Queue α} (change : Change q act q')
    (hq : q.closed = true) : act.accepted? = none := by
  cases change with
  | accepted isOpen room => exact absurd hq (by simp [isOpen])
  | handed front => rfl
  | closed => rfl
  | same takes gives leaves => exact takes

/-! ## What a run does -/

variable {log : List (Thread × Act α)}

theorem Run.capacity (run : Run s log s') : s'.queue.capacity = s.queue.capacity := by
  induction run with
  | nil => rfl
  | step first rest ih => rw [ih, first.change.capacity]

theorem Run.bounded (run : Run s log s') (hs : s.queue.Bounded) : s'.queue.Bounded := by
  induction run with
  | nil => exact hs
  | step first rest ih => exact ih (first.change.bounded hs)

/-- Nothing is lost, nothing is given twice, and nothing overtakes. -/
theorem Run.items (run : Run s log s') :
    handedOut log ++ s'.queue.items = s.queue.items ++ accepted log := by
  induction run with
  | nil => simp [handedOut, accepted]
  | @step s s' s'' e log first rest ih =>
    calc handedOut (e :: log) ++ s''.queue.items
        = e.2.handed?.toList ++ (handedOut log ++ s''.queue.items) := by
          rw [handedOut_cons, List.append_assoc]
      _ = e.2.handed?.toList ++ s'.queue.items ++ accepted log := by
          rw [ih, List.append_assoc]
      _ = s.queue.items ++ accepted (e :: log) := by
          rw [first.change.items, accepted_cons, List.append_assoc]

theorem Run.closed_iff (run : Run s log s') :
    s'.queue.closed = true ↔ s.queue.closed = true ∨ ∃ t, (t, Act.closed) ∈ log := by
  induction run with
  | nil => simp
  | @step s s' s'' e log first rest ih =>
    obtain ⟨u, act⟩ := e
    rw [ih, first.change.closed_iff, or_assoc]
    refine or_congr_right ⟨?_, ?_⟩
    · rintro (rfl | ⟨t, h⟩)
      · exact ⟨u, List.mem_cons_self⟩
      · exact ⟨t, List.mem_cons_of_mem _ h⟩
    · rintro ⟨t, h⟩
      cases h with
      | head => exact .inl rfl
      | tail _ h => exact .inr ⟨t, h⟩

/-- A closed queue stays closed and accepts nothing more. -/
theorem Run.closed (run : Run s log s') (hs : s.queue.closed = true) :
    s'.queue.closed = true ∧ accepted log = [] := by
  induction run with
  | nil => exact ⟨hs, rfl⟩
  | step first rest ih =>
    obtain ⟨hc, hrest⟩ := ih (first.change.closed_iff.2 (.inl hs))
    refine ⟨hc, ?_⟩
    rw [accepted_cons, first.change.accepts_nothing hs, hrest]
    rfl

theorem pending_of_answer {u : Thread} {q : Queue α} {r : Request α}
    (h : (s.answer u q).pending t = some r) : s.pending t = some r := by
  by_cases hu : t = u
  · subst hu
    simp [answer] at h
  · simpa [answer, Function.update_of_ne hu] using h

/-- A request that is not answered after a step was made in this step, or before
it and the thread made no other. -/
theorem Step.pending {e : Thread × Act α} {r : Request α} (step : Step s e s')
    (h : s'.pending t = some r) :
    requestBy t e = some r ∨ requestBy t e = none ∧ s.pending t = some r := by
  cases step with
  | @requests u r' idle =>
    by_cases hu : t = u
    · subst hu
      exact .inl (by simpa [ask, requestBy, Act.request?] using h)
    · refine .inr ⟨by simp [requestBy, Ne.symm hu], ?_⟩
      simpa [ask, Function.update_of_ne hu] using h
  | accepted at_ takes => exact .inr ⟨requestBy_eq_none _ _ rfl, pending_of_answer h⟩
  | refused at_ gives => exact .inr ⟨requestBy_eq_none _ _ rfl, pending_of_answer h⟩
  | handed at_ gives => exact .inr ⟨requestBy_eq_none _ _ rfl, pending_of_answer h⟩
  | ended at_ ends => exact .inr ⟨requestBy_eq_none _ _ rfl, pending_of_answer h⟩
  | handedInTime at_ gives => exact .inr ⟨requestBy_eq_none _ _ rfl, pending_of_answer h⟩
  | nothing at_ gives => exact .inr ⟨requestBy_eq_none _ _ rfl, pending_of_answer h⟩
  | closed at_ => exact .inr ⟨requestBy_eq_none _ _ rfl, pending_of_answer h⟩
  | full at_ blocks => exact .inr ⟨requestBy_eq_none _ _ rfl, h⟩
  | empty at_ blocks => exact .inr ⟨requestBy_eq_none _ _ rfl, h⟩
  | emptyInTime at_ blocks => exact .inr ⟨requestBy_eq_none _ _ rfl, h⟩

/-- A request that is not answered yet is the last one the thread made. -/
theorem Run.pending {r : Request α} (run : Run s log s') (h : s'.pending t = some r) :
    lastRequest t log = some r ∨ lastRequest t log = none ∧ s.pending t = some r := by
  induction run with
  | nil => exact .inr ⟨rfl, h⟩
  | step first rest ih =>
    rw [lastRequest_cons]
    obtain hlater | ⟨hnone, hbefore⟩ := ih h
    · exact .inl (by simp [hlater])
    · simpa [hnone] using first.pending hbefore

theorem Run.pending_of_new {n : Nat} {r : Request α} (run : Run (ofCapacity n) log s)
    (h : s.pending t = some r) : lastRequest t log = some r :=
  (run.pending h).resolve_right fun hnew => nomatch hnew.2

end Steps

/-- A thread that is refused has offered the item it gets back, and the queue is
closed. -/
theorem Step.refused_inv {s s' : SharedQueue Thread α} {t : Thread} {item : α}
    (step : Step s (t, .refused item) s') :
    s.queue.closed = true ∧ s.pending t = some (.enqueue item) := by
  cases step with
  | refused at_ gives =>
    obtain ⟨hc, rfl⟩ := Queue.enqueue_eq_refused.1 gives
    exact ⟨hc, at_⟩

theorem Step.ended_inv {s s' : SharedQueue Thread α} {t : Thread} (step : Step s (t, .ended) s') :
    s.queue.items = [] ∧ s.queue.closed = true ∧ s.pending t = some .dequeue := by
  cases step with
  | ended at_ ends =>
    obtain ⟨hitems, hc⟩ := Queue.dequeue_eq_ended.1 ends
    exact ⟨hitems, hc, at_⟩

/-- A queue shared by any number of threads, in any interleaving.  At any point of
a run it holds no more than its capacity; what was handed out and what it holds
are what it accepted, in that order; it is closed when somebody has closed it, and
from then on stays closed and accepts nothing; who is refused gets back the item
it came with; and a thread that waits without a deadline leaves with nothing only
when the queue is closed and empty. -/
theorem fifo (n : Nat) {log later : List (Thread × Act α)} {s s' : SharedQueue Thread α}
    (run : Run (ofCapacity n) log s) (goesOn : Run s later s') :
    s.queue.items.length ≤ max n 1 ∧
      handedOut log ++ s.queue.items = accepted log ∧
      (s.queue.closed = true ↔ ∃ t, (t, Act.closed) ∈ log) ∧
      (s.queue.closed = true → s'.queue.closed = true ∧ accepted later = []) ∧
      (∀ t item s'', Step s (t, .refused item) s'' →
        s.queue.closed = true ∧ lastRequest t log = some (.enqueue item)) ∧
      ∀ t s'', Step s (t, .ended) s'' →
        s.queue.closed = true ∧ s.queue.items = [] ∧ lastRequest t log = some .dequeue := by
  refine ⟨?_, ?_, ?_, goesOn.closed, ?_, ?_⟩
  · have hb : s.queue.Bounded := run.bounded (Queue.bounded_ofCapacity n)
    rwa [Queue.Bounded, run.capacity] at hb
  · simpa [ofCapacity, Queue.ofCapacity] using run.items
  · simpa [ofCapacity, Queue.ofCapacity] using run.closed_iff
  · intro t item s'' step
    obtain ⟨hc, hp⟩ := step.refused_inv
    exact ⟨hc, run.pending_of_new hp⟩
  · intro t s'' step
    obtain ⟨hitems, hc, hp⟩ := step.ended_inv
    exact ⟨hc, hitems, run.pending_of_new hp⟩

/-- Three threads at a queue for one item: one has to wait for room before the
queue is closed. -/
def crowd : List (Fin 3 × Act Nat) :=
  [(0, .requests (.enqueue 5)), (1, .requests (.enqueue 6)), (0, .accepted 5), (1, .waits),
    (2, .requests .dequeue), (2, .handed 5), (1, .accepted 6), (2, .requests .close),
    (0, .requests (.enqueue 7)), (2, .closed)]

/-- They come back to the closed queue. -/
def latecomers : List (Fin 3 × Act Nat) :=
  [(0, .refused 7), (2, .requests .dequeueOrTimeout), (2, .handed 6), (2, .requests .dequeue),
    (2, .ended)]

theorem fifo_crowd :
    ∃ s s', Run (ofCapacity 0) crowd s ∧ Run s latecomers s' ∧ s.queue.items.length ≤ 1 ∧
      [5] ++ s.queue.items = [5, 6] ∧ s'.queue.closed = true := by
  obtain ⟨s, s', run, goesOn⟩ : ∃ s s', Run (ofCapacity 0) crowd s ∧ Run s latecomers s' :=
    ⟨_, _,
      .step (.requests rfl) <| .step (.requests rfl) <| .step (.accepted rfl rfl) <|
        .step (.full rfl rfl) <| .step (.requests rfl) <| .step (.handed rfl rfl) <|
        .step (.accepted rfl rfl) <| .step (.requests rfl) <| .step (.requests rfl) <|
        .step (.closed rfl) .nil,
      .step (.refused rfl rfl) <| .step (.requests rfl) <| .step (.handedInTime rfl rfl) <|
        .step (.requests rfl) <| .step (.ended rfl rfl) .nil⟩
  obtain ⟨hlength, hitems, hclosed, hstays, -, -⟩ := fifo 0 run goesOn
  exact ⟨s, s', run, goesOn, hlength, hitems, (hstays (hclosed.2 ⟨2, by decide⟩)).1⟩

end SharedQueue
end ListMode
