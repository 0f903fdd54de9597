import ListMode.Proofs.Pipeline.Ledger

/-!
# Sessions with failing workers

A worker may fail at any of its steps (`Session.Reaches`).  It closes no queue then, and what
becomes of the session depends on what waits behind it.  The party that ends the session closes
the raw queue once the producer is over, and so a producer that fails harms nobody.  But it
waits for the producer before it closes the raw queue, and for the parser before it closes the
decoded one (`Session.Wound`): a worker that waits for room in front of a failed one is neither
over nor can it move, and the session is stuck (`Session.Stuck`).  That is the only way to get
stuck (`Session.Jammed`, `Session.stuck_iff_jammed`).
-/

namespace ListMode

/-- The number of turns that the party that ends a session has still to take. -/
def JoinState.left : JoinState → Nat
  | .producer => 5
  | .rawQueue => 4
  | .parser => 3
  | .decodedQueue => 2
  | .deliverer => 1
  | .done => 0

namespace Session

/-! ## Failures -/

/-- The worker has failed. -/
def hasFailed (s : Session) : Worker → Prop
  | .producer => s.producer = .failed
  | .parser => s.parser = .failed
  | .deliverer => s.deliverer = .failed

/-- A session gets from one state to another by turns in some order, while workers that are not
over may fail at any time. -/
inductive Reaches (s : Session) : Session → Prop where
  | refl : Reaches s s
  | turn {s' t s''} : Reaches s s' → s'.step t = some s'' → Reaches s s''
  | fail {s' w} : Reaches s s' → s'.isOver w = false → Reaches s (s'.fail w)

/-- The session is not over, and no party can move unless a stop is asked for. -/
def Stuck (s : Session) : Prop := s.join ≠ .done ∧ ∀ t, t ≠ .raiseStop → s.step t = none

/-- The producer waits for room in the raw queue. -/
def ProducerWaits (s : Session) : Prop :=
  ∃ spill, s.producer = .sending spill ∧ s.raw.enqueue spill = .blocks

/-- The parser waits for room in the decoded queue. -/
def ParserWaits (s : Session) : Prop :=
  ∃ spill, s.parser = .sending spill ∧ s.decoded.enqueue spill = .blocks

/-- The deliverer waits for a spill in the decoded queue. -/
def DelivererWaits (s : Session) : Prop :=
  s.deliverer = .taking ∧ s.decoded.dequeue = .blocks

/-- A worker waits in front of a failed one, and the end of the session for that worker. -/
inductive Jammed (s : Session) : Prop where
  /-- The parser waits for room in front of a failed deliverer. -/
  | parser (failed : s.hasFailed .deliverer) (waits : s.ParserWaits) (awaited : s.join = .parser)
  /-- The producer waits for room behind it. -/
  | behindParser (failed : s.hasFailed .deliverer) (waits : s.ParserWaits)
      (behind : s.ProducerWaits)
  /-- The producer waits for room in front of a failed parser. -/
  | producer (failed : s.hasFailed .parser) (waits : s.ProducerWaits)
      (beyond : s.hasFailed .deliverer ∨ s.DelivererWaits)

variable {s s' : Session}

theorem reaches_of_run {cs : List Feed} (h : Run s cs s') : s.Reaches s' := by
  induction h with
  | refl => exact .refl
  | turn _ hstep ih => exact .turn ih hstep

theorem Reaches.trans {s'' : Session} (h : s.Reaches s') (h' : s'.Reaches s'') : s.Reaches s'' := by
  induction h' with
  | refl => exact h
  | turn _ hstep ih => exact .turn ih hstep
  | fail _ hworks ih => exact .fail ih hworks

theorem Reaches.orderly (h : s.Reaches s') (ho : s.Orderly) : s'.Orderly := by
  induction h with
  | refl => exact ho
  | turn _ hstep ih => exact ih.step hstep
  | fail _ _ ih => exact ih.fail _

/-! ## Workers that wait or are over -/

theorem produce_eq_none : s.produce = none ↔ s.isOver .producer = true ∨ s.ProducerWaits := by
  unfold produce ProducerWaits isOver
  cases hp : s.producer with
  | sending spill => cases hq : s.raw.enqueue spill <;> simp [hq]
  | asking => cases s.source <;> simp
  | _ => simp

theorem parse_eq_none : s.parse = none ↔
    s.isOver .parser = true ∨ s.ParserWaits ∨ s.parser = .taking ∧ s.raw.dequeue = .blocks := by
  unfold parse ParserWaits isOver
  cases hp : s.parser with
  | taking => cases hq : s.raw.dequeue <;> simp
  | checking spill =>
      cases s.stopping with
      | true => simp
      | false => cases hd : s.settings.decodeSpill? spill <;> simp [hd]
  | sending spill => cases hq : s.decoded.enqueue spill <;> simp [hq]
  | _ => simp

theorem deliver_eq_none :
    s.deliver = none ↔ s.isOver .deliverer = true ∨ s.DelivererWaits := by
  unfold deliver DelivererWaits isOver
  cases hd : s.deliverer with
  | taking => cases hq : s.decoded.dequeue <;> simp
  | _ => simp

theorem ProducerWaits.full (h : s.ProducerWaits) :
    s.raw.closed = false ∧ s.raw.capacity ≤ s.raw.items.length := by
  obtain ⟨spill, -, hblocks⟩ := h
  exact Queue.enqueue_eq_blocks.1 hblocks

theorem ParserWaits.full (h : s.ParserWaits) :
    s.decoded.closed = false ∧ s.decoded.capacity ≤ s.decoded.items.length := by
  obtain ⟨spill, -, hblocks⟩ := h
  exact Queue.enqueue_eq_blocks.1 hblocks

theorem isOver_of_parserWaits (waits : s.ParserWaits) : s.isOver .parser = false := by
  obtain ⟨spill, hsending, -⟩ := waits
  rw [isOver, hsending]

theorem isOver_of_producerWaits (waits : s.ProducerWaits) : s.isOver .producer = false := by
  obtain ⟨spill, hsending, -⟩ := waits
  rw [isOver, hsending]

theorem isOver_of_hasFailed {w : Worker} (failed : s.hasFailed w) : s.isOver w = true := by
  cases w with
  | producer => rw [isOver, show s.producer = .failed from failed]
  | parser => rw [isOver, show s.parser = .failed from failed]
  | deliverer => rw [isOver, show s.deliverer = .failed from failed]

/-! ## What the end of a session leaves behind -/

/-- The end of a session has closed the queues behind the workers that it waited for, and the
decoded queue is closed by no one else but a parser that ends. -/
structure Wound (s : Session) : Prop where
  raw : s.join.left ≤ 3 → s.raw.closed = true
  decoded : s.join.left ≤ 1 → s.decoded.closed = true
  deliverer : s.join.left = 0 → s.isOver .deliverer = true
  decoded_open : s.decoded.closed = true → s.parser = .ended ∨ s.join.left ≤ 1

namespace Wound

theorem of_start {settings : Settings} {sizing : Sizing} {source : List Spill}
    {spectra : List Spectrum} (h : start settings sizing source spectra = .ok s) : s.Wound := by
  obtain rfl := eq_of_start h
  exact ⟨by simp [JoinState.left], by simp [JoinState.left], by simp [JoinState.left], nofun⟩

theorem step (h : s.Wound) {t : Turn} (hstep : s.step t = some s') : s'.Wound := by
  cases t with
  | produce =>
      cases producerTurn_of_produce hstep with
      | close => exact { h with raw := fun _ => rfl }
      | _ => exact { h with }
  | parse =>
      have working : s.parser ≠ .ended := by
        intro hended
        have none : s.parse = none := parse_eq_none.2 (.inl (by rw [isOver, hended]))
        cases none.symm.trans hstep
      have opened : s.decoded.closed = true → s.join.left ≤ 1 :=
        fun hclosed => (h.decoded_open hclosed).resolve_left working
      cases parserTurn_of_parse hstep with
      | close => exact { h with decoded := fun _ => rfl, decoded_open := fun _ => .inl rfl }
      | _ => exact { h with decoded_open := fun hclosed => .inr (opened hclosed) }
  | deliver =>
      have working : s.join.left ≠ 0 := by
        intro hleft
        have none : s.deliver = none := deliver_eq_none.2 (.inl (h.deliverer hleft))
        cases none.symm.trans hstep
      cases delivererTurn_of_deliver hstep with
      | _ => exact { h with deliverer := fun hleft => absurd hleft working }
  | join =>
      obtain ⟨raw, decoded, deliverer, decoded_open⟩ := h
      cases joinTurn_of_joinTurn hstep with
      | producer at_ =>
          have ended : s.decoded.closed = true → s.parser = .ended := by
            simpa [at_, JoinState.left] using decoded_open
          exact ⟨by simp [JoinState.left], by simp [JoinState.left], by simp [JoinState.left],
            fun hclosed => .inl (ended hclosed)⟩
      | rawQueue at_ =>
          have ended : s.decoded.closed = true → s.parser = .ended := by
            simpa [at_, JoinState.left] using decoded_open
          exact ⟨fun _ => rfl, by simp [JoinState.left], by simp [JoinState.left],
            fun hclosed => .inl (ended hclosed)⟩
      | parser at_ =>
          have ended : s.decoded.closed = true → s.parser = .ended := by
            simpa [at_, JoinState.left] using decoded_open
          have closed : s.raw.closed = true := raw (by simp [at_, JoinState.left])
          exact ⟨fun _ => closed, by simp [JoinState.left], by simp [JoinState.left],
            fun hclosed => .inl (ended hclosed)⟩
      | decodedQueue at_ =>
          have closed : s.raw.closed = true := raw (by simp [at_, JoinState.left])
          exact ⟨fun _ => closed, fun _ => rfl, by simp [JoinState.left],
            fun _ => .inr (Nat.le_refl 1)⟩
      | deliverer at_ finished =>
          have closed : s.raw.closed = true := raw (by simp [at_, JoinState.left])
          have closed' : s.decoded.closed = true := decoded (by simp [at_, JoinState.left])
          exact ⟨fun _ => closed, fun _ => closed', fun _ => finished, fun _ => .inr (Nat.zero_le 1)⟩
  | raiseStop =>
      obtain rfl := Option.some.inj hstep
      exact { h with }
  | closeRaw =>
      obtain ⟨-, rfl⟩ := eq_of_closeRaw hstep
      exact { h with raw := fun _ => rfl }

theorem fail (h : s.Wound) (w : Worker) : (s.fail w).Wound := by
  unfold Session.fail
  split
  · exact h
  · next hover =>
      cases w with
      | producer => exact { h with }
      | parser =>
          refine { h with decoded_open := fun hclosed => .inr ?_ }
          refine (h.decoded_open hclosed).resolve_left fun hended => hover ?_
          rw [isOver, hended]
      | deliverer => exact { h with deliverer := fun hleft => absurd (h.deliverer hleft) hover }

end Wound

theorem Reaches.wound (h : s.Reaches s') (hw : s.Wound) : s'.Wound := by
  induction h with
  | refl => exact hw
  | turn _ hstep ih => exact ih.step hstep
  | fail _ _ ih => exact ih.fail _

/-! ## Stuck sessions -/

/-- A deliverer that cannot move, with a full queue in front of it, has failed. -/
theorem failed_of_parserWaits (ho : s.Orderly) (waits : s.ParserWaits)
    (hnone : s.deliver = none) : s.hasFailed .deliverer := by
  obtain ⟨hopen, hfull⟩ := waits.full
  have hroom := ho.decoded_room
  rcases deliver_eq_none.1 hnone with hover | ⟨-, hstarves⟩
  · by_contra hok
    have hended := Orderly.deliverer_eq_ended hover hok
    have hclosed := (ho.decoded_empty (by rw [hended]; rfl)).1
    rw [hopen] at hclosed
    cases hclosed
  · have hempty := (Queue.dequeue_eq_blocks.1 hstarves).1
    rw [hempty, List.length_nil] at hfull
    omega

/-- A parser that is over, with a full queue in front of it, has failed. -/
theorem failed_of_producerWaits (ho : s.Orderly) (waits : s.ProducerWaits)
    (hover : s.isOver .parser = true) : s.hasFailed .parser := by
  by_contra hok
  have hended := Orderly.parser_eq_ended hover hok
  have hclosed := (ho.raw_empty (by rw [hended]; rfl)).1
  rw [waits.full.1] at hclosed
  cases hclosed

/-- Behind a failed parser a deliverer that cannot move is not past its work: no one has closed the
decoded queue. -/
theorem beyond_of_failed (ho : s.Orderly) (hw : s.Wound) (failed : s.hasFailed .parser)
    (awaited : s.join = .producer) (hnone : s.deliver = none) :
    s.hasFailed .deliverer ∨ s.DelivererWaits := by
  refine (deliver_eq_none.1 hnone).imp_left fun hover => ?_
  by_contra hok
  have hended := Orderly.deliverer_eq_ended hover hok
  have hclosed := (ho.decoded_empty (by rw [hended]; rfl)).1
  rcases hw.decoded_open hclosed with hparser | hleft
  · cases failed.symm.trans hparser
  · simp [awaited, JoinState.left] at hleft

/-- A producer that waits for ever waits in front of a parser that has failed or waits itself. -/
theorem jammed_of_producerWaits (ho : s.Orderly) (hw : s.Wound) (waits : s.ProducerWaits)
    (hparse : s.parse = none) (hdeliver : s.deliver = none) : s.Jammed := by
  have awaited := ho.producer_awaited (isOver_of_producerWaits waits)
  rcases parse_eq_none.1 hparse with hover | hparser | ⟨-, hstarves⟩
  · have failed := failed_of_producerWaits ho waits hover
    exact .producer failed waits (beyond_of_failed ho hw failed awaited hdeliver)
  · exact .behindParser (failed_of_parserWaits ho hparser hdeliver) hparser waits
  · have hfull := waits.full.2
    have hroom := ho.raw_room
    rw [(Queue.dequeue_eq_blocks.1 hstarves).1, List.length_nil] at hfull
    omega

theorem jammed_of_stuck (ho : s.Orderly) (hw : s.Wound) (h : s.Stuck) : s.Jammed := by
  obtain ⟨hnotdone, hnone⟩ := h
  have hproduce : s.produce = none := hnone .produce nofun
  have hparse : s.parse = none := hnone .parse nofun
  have hdeliver : s.deliver = none := hnone .deliver nofun
  have hjoin : s.joinTurn = none := hnone .join nofun
  -- the worker that is waited for is not over, and the queue in front of it was closed
  unfold joinTurn at hjoin
  cases hj : s.join with
  | producer =>
      have hworking : ¬ s.isOver .producer = true := by simpa [hj] using hjoin
      have hwaits := (produce_eq_none.1 hproduce).resolve_left hworking
      exact jammed_of_producerWaits ho hw hwaits hparse hdeliver
  | parser =>
      have hworking : ¬ s.isOver .parser = true := by simpa [hj] using hjoin
      have hclosed := hw.raw (by simp [hj, JoinState.left])
      rcases (parse_eq_none.1 hparse).resolve_left hworking with hparser | ⟨-, hstarves⟩
      · exact .parser (failed_of_parserWaits ho hparser hdeliver) hparser hj
      · rw [(Queue.dequeue_eq_blocks.1 hstarves).2] at hclosed
        cases hclosed
  | deliverer =>
      have hworking : ¬ s.isOver .deliverer = true := by simpa [hj] using hjoin
      have hclosed := hw.decoded (by simp [hj, JoinState.left])
      obtain ⟨-, hstarves⟩ := (deliver_eq_none.1 hdeliver).resolve_left hworking
      rw [(Queue.dequeue_eq_blocks.1 hstarves).2] at hclosed
      cases hclosed
  | rawQueue => simp [hj] at hjoin
  | decodedQueue => simp [hj] at hjoin
  | done => exact absurd hj hnotdone

theorem stuck_of_jammed (ho : s.Orderly) (howed : s.closeOwed = false) (h : s.Jammed) :
    s.Stuck := by
  have parties : s.produce = none → s.parse = none → s.deliver = none → s.joinTurn = none →
      ∀ t, t ≠ .raiseStop → s.step t = none := by
    intro hproduce hparse hdeliver hjoin t ht
    cases t with
    | produce => exact hproduce
    | parse => exact hparse
    | deliver => exact hdeliver
    | join => exact hjoin
    | raiseStop => exact absurd rfl ht
    | closeRaw => simp [step, howed]
  have behind : s.ProducerWaits → s.join ≠ .done ∧ s.joinTurn = none := by
    intro waits
    have hworking := isOver_of_producerWaits waits
    have hj := ho.producer_awaited hworking
    exact ⟨by simp [hj], by simp [joinTurn, hj, hworking]⟩
  cases h with
  | parser failed waits awaited =>
      have hworking := isOver_of_parserWaits waits
      have hover := Bool.not_eq_false _ ▸ ho.producer_over (by simp [awaited])
      exact ⟨by simp [awaited], parties (produce_eq_none.2 (.inl hover))
        (parse_eq_none.2 (.inr (.inl waits)))
        (deliver_eq_none.2 (.inl (isOver_of_hasFailed failed)))
        (by simp [joinTurn, awaited, hworking])⟩
  | behindParser failed waits behind' =>
      obtain ⟨hnotdone, hjoin⟩ := behind behind'
      exact ⟨hnotdone, parties (produce_eq_none.2 (.inr behind'))
        (parse_eq_none.2 (.inr (.inl waits)))
        (deliver_eq_none.2 (.inl (isOver_of_hasFailed failed))) hjoin⟩
  | producer failed waits beyond =>
      obtain ⟨hnotdone, hjoin⟩ := behind waits
      exact ⟨hnotdone, parties (produce_eq_none.2 (.inr waits))
        (parse_eq_none.2 (.inl (isOver_of_hasFailed failed)))
        (deliver_eq_none.2 (beyond.imp_left isOver_of_hasFailed)) hjoin⟩

variable {settings : Settings} {sizing : Sizing} {source : List Spill} {spectra : List Spectrum}

/-- A session gets stuck in no other way than being jammed. -/
theorem stuck_iff_jammed (hstart : start settings sizing source spectra = .ok s)
    (h : s.Reaches s') : s'.Stuck ↔ s'.Jammed ∧ s'.closeOwed = false := by
  have ho := h.orderly (Orderly.of_start hstart)
  constructor
  · intro hstuck
    refine ⟨jammed_of_stuck ho (h.wound (Wound.of_start hstart)) hstuck, ?_⟩
    have hnone := hstuck.2 .closeRaw nofun
    simpa [step] using hnone
  · rintro ⟨hjammed, howed⟩
    exact stuck_of_jammed ho howed hjammed

end Session

end ListMode
