import ListMode.Proofs.Pipeline.Failures

/-!
# How sessions with failing workers end

Every turn of a party takes something from the work of a session (`Session.work_lt_of_step`), so a
session that does not get stuck is over after finitely many turns (`Session.finish_rests`), and then
the failure of a worker is told (`Session.outcome?_of_hasFailed`).

Being stuck takes more spills than a queue holds, for they are held or queued in front of the
worker that failed (`Session.Jammed.lt_onTheWay`).  Whenever there are more, a deliverer that fails
can leave the session stuck (`Session.exists_stuck`): producer and parser take spills from the
source until the decoded queue is full (`Session.Abandoned`), and then nothing makes room again
(`Session.Halted`).  What holds of every session with failing workers is `Session.failing_worker`.
-/

namespace ListMode

/-- The most turns that a producer takes for the spill it has, or until it ends. -/
def ProducerState.work : ProducerState → Nat
  | .checking => 3
  | .asking => 2
  | .sending _ => 9
  | .closing => 1
  | .ended | .failed => 0

/-- The most turns that a parser takes for the spill it has, or until it ends. -/
def ParserState.work : ParserState → Nat
  | .taking => 2
  | .checking _ => 6
  | .sending _ => 5
  | .closing => 1
  | .ended | .failed => 0

/-- The most turns that a deliverer takes for the spill it has, or until it ends. -/
def DelivererState.work : DelivererState → Nat
  | .taking => 2
  | .pushing _ => 3
  | .flushing => 1
  | .ended | .failed => 0

namespace Session

variable {s s' : Session} {settings : Settings} {sizing : Sizing} {source : List Spill}
  {spectra : List Spectrum}

/-! ## Turns come to an end -/

/-- The work of a session: no more turns can be taken of it, unless a stop is asked for. -/
def work (s : Session) : Nat :=
  8 * s.source.length + 5 * s.raw.items.length + 2 * s.decoded.items.length +
    s.producer.work + s.parser.work + s.deliverer.work + s.join.left

theorem work_lt_of_step {t : Turn} (ht : t ∈ turns) (hstep : s.step t = some s') :
    s'.work < s.work := by
  cases t with
  | produce =>
      cases producerTurn_of_produce hstep with
      | ask at_ gives =>
          simp only [work, at_, gives, ProducerState.work, List.length_cons]
          omega
      | send at_ =>
          simp only [work, at_, ProducerState.work, List.length_append, List.length_singleton]
          omega
      | _ at_ => simp [work, at_, ProducerState.work, Queue.close]
  | parse =>
      cases parserTurn_of_parse hstep with
      | take at_ gives =>
          simp only [work, at_, gives, ParserState.work, List.length_cons]
          omega
      | send at_ =>
          simp only [work, at_, ParserState.work, List.length_append, List.length_singleton]
          omega
      | _ at_ => simp [work, at_, ParserState.work, Queue.close]
  | deliver =>
      cases delivererTurn_of_deliver hstep with
      | take at_ gives =>
          simp only [work, at_, gives, DelivererState.work, List.length_cons]
          omega
      | _ at_ => simp [work, at_, DelivererState.work]
  | join =>
      cases joinTurn_of_joinTurn hstep with
      | _ at_ => simp [work, at_, JoinState.left, Queue.close]
  | raiseStop => simp [turns] at ht
  | closeRaw => simp [turns] at ht

theorem length_le_of_play {ts : List Turn} : ∀ {s s' : Session} {cs : List Feed},
    (∀ t ∈ ts, t ∈ turns) → s.play ts = some (cs, s') → ts.length ≤ s.work := by
  induction ts with
  | nil => exact fun _ _ => Nat.zero_le _
  | cons t ts ih =>
      intro s s' cs hts h
      rw [List.forall_mem_cons] at hts
      obtain ⟨next, hstep, h⟩ := Option.bind_eq_some_iff.1 h
      obtain ⟨⟨ds, last⟩, hplay, -⟩ := Option.bind_eq_some_iff.1 h
      exact Nat.succ_le_of_lt ((ih hts.2 hplay).trans_lt (work_lt_of_step hts.1 hstep))

/-- The work is never more than the turns allowed for it. -/
theorem work_le_load (s : Session) : s.work ≤ 8 * s.load + 12 := by
  have hproducer : s.producer.work ≤ 9 := by cases s.producer <;> simp [ProducerState.work]
  have hparser : s.parser.work ≤ 6 := by cases s.parser <;> simp [ParserState.work]
  have hdeliverer : s.deliverer.work ≤ 3 := by cases s.deliverer <;> simp [DelivererState.work]
  have hjoin : s.join.left ≤ 5 := by cases s.join <;> simp [JoinState.left]
  unfold work load
  omega

/-- What the turns of the parties keep is kept by settling. -/
theorem settleFor_keeps {P : Session → Prop}
    (keeps : ∀ {s s' : Session} {t : Turn}, t ∈ turns → s.step t = some s' → P s → P s')
    (held : Session → Turn → Bool) (fuel : Nat) :
    ∀ {s : Session}, P s → P (settleFor held fuel s) := by
  induction fuel with
  | zero => exact fun h => h
  | succ fuel ih =>
      intro s h
      rw [settleFor]
      split
      · next next hadvance =>
          obtain ⟨t, ht, hstep⟩ := turn_of_advance? hadvance
          exact ih (keeps ht hstep h)
      · exact h

theorem settleFor_rests (fuel : Nat) : ∀ {s : Session}, s.work ≤ fuel →
    ∀ t ∈ turns, (settleFor (fun _ _ => false) fuel s).step t = none := by
  induction fuel with
  | zero =>
      intro s hwork t ht
      cases hstep : s.step t with
      | none => exact hstep
      | some next =>
          have hless := work_lt_of_step ht hstep
          omega
  | succ fuel ih =>
      intro s hwork
      rw [settleFor]
      split
      · next next hadvance =>
          obtain ⟨t, ht, hstep⟩ := turn_of_advance? hadvance
          have hless := work_lt_of_step ht hstep
          exact ih (by omega)
      · next hadvance =>
          have hnone := List.findSome?_eq_none_iff.1 hadvance
          simpa using hnone

theorem closeOwed_of_step {t : Turn} (ht : t ∈ turns) (hstep : s.step t = some s') :
    s'.closeOwed = s.closeOwed := by
  cases t with
  | produce => cases producerTurn_of_produce hstep <;> rfl
  | parse => cases parserTurn_of_parse hstep <;> rfl
  | deliver => cases delivererTurn_of_deliver hstep <;> rfl
  | join => cases joinTurn_of_joinTurn hstep <;> rfl
  | raiseStop => simp [turns] at ht
  | closeRaw => simp [turns] at ht

/-- A session is finished by finitely many turns, unless it gets stuck. -/
theorem finish_rests (howed : s.closeOwed = false) :
    s.finish.join = .done ∨ s.finish.Stuck := by
  have hnone := settleFor_rests _ s.work_le_load
  have howed' : s.finish.closeOwed = false :=
    settleFor_keeps (fun ht hstep h => (closeOwed_of_step ht hstep).trans h) _ _ howed
  refine or_iff_not_imp_left.2 fun hnotdone => ⟨hnotdone, fun t ht => ?_⟩
  cases t with
  | raiseStop => exact absurd rfl ht
  | closeRaw => simp [step, howed']
  | _ => exact hnone _ (by simp [turns])

theorem reaches_finish (s : Session) : s.Reaches s.finish := by
  obtain ⟨cs, hrun⟩ := exists_run_settleFor (fun _ _ => false) (8 * s.load + 12) s
  exact reaches_of_run hrun

/-! ## Spills on their way -/

/-- The number of spills that the source has still to give, that wait in the queues or that a
worker holds. -/
def onTheWay (s : Session) : Nat :=
  s.source.length + s.producer.held.length + s.raw.items.length + s.parser.unread.length +
    s.parser.ready.length + s.decoded.items.length + s.deliverer.held.length

theorem onTheWay_of_start (h : start settings sizing source spectra = .ok s) :
    s.onTheWay = source.length := by
  obtain rfl := eq_of_start h
  rfl

/-- Both queues have the same depth. -/
theorem capacity_of_start (h : start settings sizing source spectra = .ok s) :
    s.decoded.capacity = s.raw.capacity := by
  obtain rfl := eq_of_start h
  rfl

/-- Spills enter a session at its source only. -/
theorem onTheWay_le_of_step {t : Turn} (hstep : s.step t = some s') :
    s'.onTheWay ≤ s.onTheWay := by
  cases t with
  | produce =>
      cases producerTurn_of_produce hstep with
      | ask at_ gives =>
          simp only [onTheWay, at_, gives, ProducerState.held, List.length_cons, List.length_nil]
          omega
      | send at_ =>
          simp only [onTheWay, at_, ProducerState.held, List.length_append, List.length_cons,
            List.length_nil]
          omega
      | _ at_ => simp [onTheWay, at_, ProducerState.held, Queue.close]
  | parse =>
      cases parserTurn_of_parse hstep with
      | take at_ gives =>
          simp only [onTheWay, at_, gives, ParserState.unread, ParserState.ready, List.length_cons,
            List.length_nil]
          omega
      | send at_ =>
          simp only [onTheWay, at_, ParserState.unread, ParserState.ready, List.length_append,
            List.length_cons, List.length_nil]
          omega
      | _ at_ => simp [onTheWay, at_, ParserState.unread, ParserState.ready, Queue.close]
  | deliver =>
      cases delivererTurn_of_deliver hstep with
      | take at_ gives =>
          simp only [onTheWay, at_, gives, DelivererState.held, List.length_cons, List.length_nil]
          omega
      | _ at_ => simp [onTheWay, at_, DelivererState.held]
  | join => cases joinTurn_of_joinTurn hstep <;> exact Nat.le_refl _
  | raiseStop =>
      obtain rfl := Option.some.inj hstep
      exact Nat.le_refl _
  | closeRaw =>
      obtain ⟨-, rfl⟩ := eq_of_closeRaw hstep
      exact Nat.le_refl _

theorem onTheWay_fail_le (s : Session) (w : Worker) : (s.fail w).onTheWay ≤ s.onTheWay := by
  unfold fail
  split
  · exact Nat.le_refl _
  · cases w <;>
      simp only [onTheWay, ProducerState.held, ParserState.unread, ParserState.ready,
        DelivererState.held, List.length_nil] <;>
      omega

theorem capacity_of_step {t : Turn} (hstep : s.step t = some s') :
    s'.raw.capacity = s.raw.capacity ∧ s'.decoded.capacity = s.decoded.capacity := by
  cases t with
  | produce => cases producerTurn_of_produce hstep <;> exact ⟨rfl, rfl⟩
  | parse => cases parserTurn_of_parse hstep <;> exact ⟨rfl, rfl⟩
  | deliver => cases delivererTurn_of_deliver hstep <;> exact ⟨rfl, rfl⟩
  | join => cases joinTurn_of_joinTurn hstep <;> exact ⟨rfl, rfl⟩
  | raiseStop =>
      obtain rfl := Option.some.inj hstep
      exact ⟨rfl, rfl⟩
  | closeRaw =>
      obtain ⟨-, rfl⟩ := eq_of_closeRaw hstep
      exact ⟨rfl, rfl⟩

theorem capacity_fail (s : Session) (w : Worker) :
    (s.fail w).raw.capacity = s.raw.capacity ∧ (s.fail w).decoded.capacity = s.decoded.capacity := by
  unfold fail
  split
  · exact ⟨rfl, rfl⟩
  · cases w <;> exact ⟨rfl, rfl⟩

theorem Reaches.capacity (h : s.Reaches s') :
    s'.raw.capacity = s.raw.capacity ∧ s'.decoded.capacity = s.decoded.capacity := by
  induction h with
  | refl => exact ⟨rfl, rfl⟩
  | turn _ hstep ih =>
      obtain ⟨hraw, hdecoded⟩ := capacity_of_step hstep
      exact ⟨hraw.trans ih.1, hdecoded.trans ih.2⟩
  | fail _ _ ih =>
      obtain ⟨hraw, hdecoded⟩ := capacity_fail _ _
      exact ⟨hraw.trans ih.1, hdecoded.trans ih.2⟩

theorem Reaches.onTheWay_le (h : s.Reaches s') : s'.onTheWay ≤ s.onTheWay := by
  induction h with
  | refl => exact Nat.le_refl _
  | turn _ hstep ih => exact (onTheWay_le_of_step hstep).trans ih
  | fail _ _ ih => exact (onTheWay_fail_le _ _).trans ih

/-- A worker that waits holds one spill more than there is room for. -/
theorem Jammed.lt_onTheWay (h : s.Jammed) :
    s.raw.capacity < s.onTheWay ∨ s.decoded.capacity < s.onTheWay := by
  have behind : s.ProducerWaits → s.raw.capacity < s.onTheWay := by
    intro waits
    have hfull := waits.full.2
    obtain ⟨spill, hsending, -⟩ := waits
    simp only [onTheWay, hsending, ProducerState.held, List.length_singleton]
    omega
  cases h with
  | parser _ waits _ =>
      have hfull := waits.full.2
      obtain ⟨spill, hsending, -⟩ := waits
      simp only [onTheWay, hsending, ParserState.ready, List.length_singleton]
      omega
  | behindParser _ _ behind' => exact .inl (behind behind')
  | producer _ waits _ => exact .inl (behind waits)

theorem Jammed.exists_failed (h : s.Jammed) :
    s.hasFailed .parser ∨ s.hasFailed .deliverer := by
  cases h with
  | parser failed => exact .inr failed
  | behindParser failed => exact .inr failed
  | producer failed => exact .inl failed

/-! ## How a session gets stuck -/

/-- The deliverer has failed, nothing is between the source and the decoded queue, and no stop
was asked for. -/
structure Abandoned (s : Session) : Prop where
  failed : s.deliverer = .failed
  producer : s.producer = .checking
  parser : s.parser = .taking
  raw_empty : s.raw.items = []
  raw_open : s.raw.closed = false
  decoded_open : s.decoded.closed = false
  running : s.stopping = false
  unowed : s.closeOwed = false

/-- Producer and parser take the next spill of the source up to the decoded queue. -/
theorem Abandoned.exists_sending (h : s.Abandoned) (ho : s.Orderly) {spill after : Spill}
    {rest : List Spill} (hsource : s.source = spill :: rest)
    (hdecodes : s.settings.decodeSpill? spill = some after) :
    ∃ s', s.Reaches s' ∧ { s' with parser := .taking }.Abandoned ∧ s'.parser = .sending after ∧
      s'.source = rest ∧ s'.decoded = s.decoded ∧ s'.settings = s.settings := by
  have hplay : s.play [.produce, .produce, .produce, .parse, .parse] = some ([], { s with
      source := rest
      producer := .checking
      produced := s.produced + 1
      raw := { s.raw with items := [] }
      parser := .sending after
      hits := s.hits + (after.hits.length - spill.hits.length) }) := by
    simp [play, step, produce, parse, calls, Queue.enqueue, Queue.dequeue, hsource, h.producer,
      h.parser, h.running, h.raw_open, h.raw_empty, ho.raw_room, hdecodes]
  exact ⟨_, reaches_of_run (run_of_play hplay),
    { h with producer := rfl, parser := rfl, raw_empty := rfl }, rfl, rfl, rfl, rfl⟩

/-- The parser puts it into the decoded queue if there is room. -/
theorem Abandoned.exists_queued (h : s.Abandoned) (ho : s.Orderly) {spill after : Spill}
    {rest : List Spill} (hsource : s.source = spill :: rest)
    (hdecodes : s.settings.decodeSpill? spill = some after)
    (hroom : s.decoded.items.length < s.decoded.capacity) :
    ∃ s', s.Reaches s' ∧ s'.Abandoned ∧ s'.source = rest ∧ s'.settings = s.settings ∧
      s'.decoded = { s.decoded with items := s.decoded.items ++ [after] } := by
  obtain ⟨s', hreaches, h', hsending, hrest, hdecoded, hsettings⟩ :=
    h.exists_sending ho hsource hdecodes
  rw [← hdecoded] at hroom ⊢
  have hopen : s'.decoded.closed = false := h'.decoded_open
  have hsend : s'.step .parse = some { s' with
      decoded := { s'.decoded with items := s'.decoded.items ++ [after] }
      parser := .taking } := by
    simp [step, parse, hsending, Queue.enqueue, hopen, hroom]
  exact ⟨_, .turn hreaches hsend, { h' with }, hrest, hsettings, rfl⟩

/-- With more spills to come than the decoded queue has room for, the parser waits in the end. -/
theorem Abandoned.exists_parserWaits (room : Nat) : ∀ {s : Session}, s.Abandoned → s.Orderly →
    (∀ spill ∈ s.source, (s.settings.decodeSpill? spill).isSome) →
    s.decoded.items.length + room = s.decoded.capacity → room < s.source.length →
    ∃ s', s.Reaches s' ∧ { s' with parser := .taking }.Abandoned ∧ s'.ParserWaits := by
  induction room with
  | zero =>
      intro s h ho hdecodes hroom hmore
      obtain ⟨spill, rest, hsource⟩ := List.exists_cons_of_length_pos hmore
      obtain ⟨after, hafter⟩ := Option.isSome_iff_exists.1 (hdecodes spill (by simp [hsource]))
      obtain ⟨s', hreaches, h', hsending, -, hdecoded, -⟩ := h.exists_sending ho hsource hafter
      have hfull : s'.decoded.capacity ≤ s'.decoded.items.length := by
        rw [hdecoded]
        omega
      exact ⟨s', hreaches, h', after, hsending, Queue.enqueue_eq_blocks.2 ⟨h'.decoded_open, hfull⟩⟩
  | succ room ih =>
      intro s h ho hdecodes hroom hmore
      obtain ⟨spill, rest, hsource⟩ := List.exists_cons_of_length_pos (Nat.zero_lt_of_lt hmore)
      obtain ⟨after, hafter⟩ := Option.isSome_iff_exists.1 (hdecodes spill (by simp [hsource]))
      obtain ⟨s', hreaches, h', hrest, hsettings, hdecoded⟩ :=
        h.exists_queued ho hsource hafter (by omega)
      have hdecodes' : ∀ x ∈ s'.source, (s'.settings.decodeSpill? x).isSome := by
        intro x hx
        rw [hsettings]
        rw [hrest] at hx
        exact hdecodes x (by simp [hsource, hx])
      obtain ⟨s'', hreaches', hwaits⟩ := ih h' (hreaches.orderly ho) hdecodes'
        (by simp only [hdecoded, List.length_append, List.length_singleton]; omega)
        (by simpa [hrest, hsource] using hmore)
      exact ⟨s'', hreaches.trans hreaches', hwaits⟩

/-- Only the deliverer has failed, and the parser waits for room in front of it. -/
structure Halted (s : Session) : Prop where
  failed : s.hasFailed .deliverer
  producer_works : ¬ s.hasFailed .producer
  waits : s.ParserWaits

/-- No turn of a party makes room again. -/
theorem Halted.step (h : s.Halted) (ho : s.Orderly) {t : Turn} (ht : t ∈ turns)
    (hstep : s.step t = some s') : s'.Halted := by
  cases t with
  | produce =>
      cases producerTurn_of_produce hstep with
      | _ => exact { h with producer_works := nofun }
  | parse =>
      have none : s.parse = none := parse_eq_none.2 (.inr (.inl h.waits))
      cases none.symm.trans hstep
  | deliver =>
      have none : s.deliver = none := deliver_eq_none.2 (.inl (isOver_of_hasFailed h.failed))
      cases none.symm.trans hstep
  | join =>
      cases joinTurn_of_joinTurn hstep with
      | decodedQueue at_ => exact absurd (isOver_of_parserWaits h.waits) (ho.parser_over (.inl at_))
      | _ => exact { h with }
  | raiseStop => simp [turns] at ht
  | closeRaw => simp [turns] at ht

theorem Halted.hasFailed_iff (h : s.Halted) (w : Worker) : s.hasFailed w ↔ w = .deliverer := by
  cases w with
  | producer => simpa using h.producer_works
  | parser =>
      obtain ⟨spill, hsending, -⟩ := h.waits
      simp [hasFailed, hsending]
  | deliverer => simpa using h.failed

/-- A halted session cannot be finished. -/
theorem Halted.stuck_finish (h : s.Halted) (ho : s.Orderly) (howed : s.closeOwed = false) :
    s.finish.Halted ∧ s.finish.Stuck := by
  have hkept : s.finish.Orderly ∧ s.finish.Halted :=
    settleFor_keeps (P := fun s => s.Orderly ∧ s.Halted)
      (fun ht hstep h => ⟨h.1.step hstep, h.2.step h.1 ht hstep⟩) _ _ ⟨ho, h⟩
  refine ⟨hkept.2, (finish_rests howed).resolve_left fun hdone => ?_⟩
  have hawaited := hkept.1.parser_awaited (isOver_of_parserWaits hkept.2.waits)
  simp [hdone] at hawaited

theorem Abandoned.exists_stuck (h : s.Abandoned) (ho : s.Orderly)
    (hdecodes : ∀ spill ∈ s.source, (s.settings.decodeSpill? spill).isSome)
    (hbounded : s.decoded.Bounded)
    (hmore : s.decoded.capacity < s.decoded.items.length + s.source.length) :
    ∃ s', s.Reaches s' ∧ s'.Stuck ∧ ∀ w, s'.hasFailed w ↔ w = .deliverer := by
  obtain ⟨room, hroom⟩ := Nat.exists_eq_add_of_le hbounded
  obtain ⟨s', hreaches, h', hwaits⟩ :=
    h.exists_parserWaits room ho hdecodes hroom.symm (by omega)
  have hhalted : s'.Halted := {
    failed := h'.failed
    producer_works := fun hfailed => nomatch hfailed.symm.trans h'.producer
    waits := hwaits }
  obtain ⟨hhalted', hstuck⟩ := hhalted.stuck_finish (hreaches.orderly ho) h'.unowed
  exact ⟨_, hreaches.trans (reaches_finish s'), hstuck, hhalted'.hasFailed_iff⟩

/-- A deliverer that fails can leave a session stuck as soon as there are more spills than a queue
holds. -/
theorem exists_stuck (hstart : start settings sizing source spectra = .ok s)
    (hdecodes : ∀ spill ∈ source, (settings.decodeSpill? spill).isSome)
    (hmore : s.raw.capacity < source.length) :
    ∃ s', s.Reaches s' ∧ s'.Stuck ∧ ∀ w, s'.hasFailed w ↔ w = .deliverer := by
  have ho := (Orderly.of_start hstart).fail .deliverer
  obtain rfl := eq_of_start hstart
  have habandoned : Abandoned (fail {
      settings
      source
      raw := .ofCapacity sizing.effectiveDepth
      decoded := .ofCapacity sizing.effectiveDepth
      spectra } .deliverer) := ⟨rfl, rfl, rfl, rfl, rfl, rfl, rfl, rfl⟩
  obtain ⟨s', hreaches, hstuck⟩ :=
    habandoned.exists_stuck ho hdecodes (Nat.zero_le _) ((Nat.zero_add _).symm ▸ hmore)
  exact ⟨s', (Reaches.fail .refl rfl).trans hreaches, hstuck⟩

/-! ## What a failure comes to -/

/-- Once a session is over, a failure of any of its workers is told. -/
theorem outcome?_of_hasFailed (hdone : s.join = .done) {w : Worker} (hfailed : s.hasFailed w) :
    ∃ w', s.hasFailed w' ∧ s.outcome? = some (.error w') := by
  rw [outcome?, if_pos hdone]
  unfold summary
  split
  · next hproducer => exact ⟨.producer, hproducer, rfl⟩
  · next hparser _ => exact ⟨.parser, hparser, rfl⟩
  · next hdeliverer _ _ => exact ⟨.deliverer, hdeliverer, rfl⟩
  · next hproducer hparser hdeliverer =>
      cases w with
      | producer => exact absurd hfailed hproducer
      | parser => exact absurd hfailed hparser
      | deliverer => exact absurd hfailed hdeliverer

/-- What failing workers do to a session, whichever they are, whenever they fail and in whatever
order the parties take their turns.  The session is stuck exactly if a worker waits for room in
front of a failed one and no stop has still to close the raw queue; then the parser or the deliverer
has failed, and the source gave more spills than a queue holds.  The parties take a bounded number
of turns, and when the session is over the failure is told. -/
theorem failing_worker (hstart : start settings sizing source spectra = .ok s)
    (h : s.Reaches s') :
    (s'.Stuck ↔ s'.Jammed ∧ s'.closeOwed = false) ∧
      (s'.Jammed → (s'.hasFailed .parser ∨ s'.hasFailed .deliverer) ∧
        s.raw.capacity < source.length) ∧
      (∀ ts cs last, (∀ t ∈ ts, t ∈ turns) → s'.play ts = some (cs, last) →
        ts.length ≤ 8 * s'.load + 12) ∧
      (s'.join = .done → ∀ w, s'.hasFailed w →
        ∃ w', s'.hasFailed w' ∧ s'.outcome? = some (.error w')) := by
  refine ⟨stuck_iff_jammed hstart h, fun hjammed => ⟨hjammed.exists_failed, ?_⟩,
    fun ts cs last hts hplay => ?_, fun hdone w => outcome?_of_hasFailed hdone⟩
  · have hless := hjammed.lt_onTheWay
    have hle := h.onTheWay_le
    obtain ⟨hraw, hdecoded⟩ := h.capacity
    rw [hraw, hdecoded, capacity_of_start hstart, or_self] at hless
    rw [onTheWay_of_start hstart] at hle
    exact Nat.lt_of_lt_of_le hless hle
  · have hwork := length_le_of_play hts hplay
    have hload := s'.work_le_load
    omega

/-- A session of three spills, on queues for one. -/
def threeSpills : Session where
  settings := {}
  source := [{ time := 1 }, { time := 2 }, { time := 3 }]
  raw := .ofCapacity 1
  decoded := .ofCapacity 1
  spectra := [.blank .one]

theorem failing_worker_threeSpills :
    start {} { queueDepth := 1 } [{ time := 1 }, { time := 2 }, { time := 3 }] [.blank .one] =
        .ok threeSpills ∧
      threeSpills.Reaches (threeSpills.fail .producer).finish ∧
      ¬ (threeSpills.fail .producer).finish.Stuck ∧
      ∃ w, (threeSpills.fail .producer).finish.hasFailed w ∧
        (threeSpills.fail .producer).finish.outcome? = some (.error w) := by
  have hstart : start {} { queueDepth := 1 } [{ time := 1 }, { time := 2 }, { time := 3 }]
      [.blank .one] = .ok threeSpills := rfl
  have hreaches : threeSpills.Reaches (threeSpills.fail .producer).finish :=
    (Reaches.fail .refl rfl).trans (reaches_finish _)
  have hdone : (threeSpills.fail .producer).finish.join = .done := by decide
  obtain ⟨-, -, -, htold⟩ := failing_worker hstart hreaches
  exact ⟨hstart, hreaches, fun h => h.1 hdone, htold hdone .producer rfl⟩

/-- Its deliverer is about to push the first of them. -/
def threeSpillsPushing : Session :=
  { threeSpills with
    source := [{ time := 2 }, { time := 3 }]
    produced := 1
    hits := (({} : Settings).decodeSpill { time := 1 }).hits.length
    deliverer := .pushing (({} : Settings).decodeSpill { time := 1 }) }

/-- The deliverer fails as it pushes the first of the three spills.  The second one fills the queue
in front of it, and the parser waits for ever with the third. -/
theorem threeSpills_stuck :
    start {} { queueDepth := 1 } [{ time := 1 }, { time := 2 }, { time := 3 }] [.blank .one] =
        .ok threeSpills ∧
      ∃ s, threeSpills.Reaches s ∧ (∀ w, s.hasFailed w ↔ w = .deliverer) ∧ s.Stuck := by
  have hdecodes : ∀ spill : Spill, ({} : Settings).decodeSpill? spill =
      some (({} : Settings).decodeSpill spill) := Settings.decodeSpill?_of_fits rfl
  have hplay : threeSpills.play [.produce, .produce, .produce, .parse, .parse, .parse, .deliver] =
      some ([], threeSpillsPushing) := by
    simp [play, step, produce, parse, deliver, calls, threeSpills, threeSpillsPushing, hdecodes,
      Queue.ofCapacity, Queue.enqueue, Queue.dequeue]
  have hfailed : threeSpills.Reaches (threeSpillsPushing.fail .deliverer) :=
    .fail (reaches_of_run (run_of_play hplay)) rfl
  have habandoned : (threeSpillsPushing.fail .deliverer).Abandoned :=
    ⟨rfl, rfl, rfl, rfl, rfl, rfl, rfl, rfl⟩
  have hstart : start {} { queueDepth := 1 } [{ time := 1 }, { time := 2 }, { time := 3 }]
      [.blank .one] = .ok threeSpills := rfl
  obtain ⟨s, hreaches, hstuck, honly⟩ := habandoned.exists_stuck
    (hfailed.orderly (Orderly.of_start hstart))
    (fun spill _ => Option.isSome_iff_exists.2 ⟨_, hdecodes spill⟩) (Nat.zero_le _) (by decide)
  exact ⟨hstart, s, hfailed.trans hreaches, honly, hstuck⟩

end Session

end ListMode
