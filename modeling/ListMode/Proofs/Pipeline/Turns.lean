import ListMode.Pipeline.Session

/-!
# The turns of a session

What one turn of each party can do, guards included (`ProducerTurn`,
`ParserTurn`, `DelivererTurn`, `JoinTurn`), and the order in which a session is
wound up (`Session.Orderly`): who may close a queue, and what a worker that is
past its work leaves behind.  Every turn keeps the order (`Orderly.step`), a
failing worker too, and as long as no worker has failed it leaves a worker able
to move until all three are over (`Orderly.exists_step`).

The argument goes down the pipeline.  A deliverer that has to wait has an open
and empty queue in front of it, so the parser is not over, and has room to send
into.  A parser that has to wait then has an open and empty queue in front of it
as well, so the producer is not over and has room to send into.
-/

namespace ListMode

/-! ## What the workers hold -/

/-- The spill a producer is about to send. -/
def ProducerState.held : ProducerState → List Spill
  | .sending spill => [spill]
  | _ => []

/-- The producer asks for no more spills. -/
def ProducerState.leaving : ProducerState → Bool
  | .closing | .ended => true
  | _ => false

/-- The spill a parser has taken and not yet looked at. -/
def ParserState.unread : ParserState → List Spill
  | .checking spill => [spill]
  | _ => []

/-- The decoded spill a parser is about to send. -/
def ParserState.ready : ParserState → List Spill
  | .sending spill => [spill]
  | _ => []

/-- The parser takes no more spills. -/
def ParserState.leaving : ParserState → Bool
  | .closing | .ended => true
  | _ => false

/-- The spill a deliverer is about to push. -/
def DelivererState.held : DelivererState → List Spill
  | .pushing spill => [spill]
  | _ => []

/-- The deliverer takes no more spills. -/
def DelivererState.leaving : DelivererState → Bool
  | .flushing | .ended => true
  | _ => false

namespace Session

/-! ## What a turn does -/

/-- What a turn of the producer does. -/
inductive ProducerTurn (s : Session) : Session → Prop where
  | goOn (at_ : s.producer = .checking) (running : s.stopping = false) :
      ProducerTurn s { s with producer := .asking }
  | quit (at_ : s.producer = .checking) (stopped : s.stopping = true) :
      ProducerTurn s { s with producer := .closing }
  | ask {spill rest} (at_ : s.producer = .asking) (gives : s.source = spill :: rest) :
      ProducerTurn s { s with source := rest, producer := .sending spill }
  | dry (at_ : s.producer = .asking) (empty : s.source = []) :
      ProducerTurn s { s with producer := .closing }
  | send {spill} (at_ : s.producer = .sending spill) (opened : s.raw.closed = false) :
      ProducerTurn s { s with
        raw := { s.raw with items := s.raw.items ++ [spill] }
        producer := .checking
        produced := s.produced + 1 }
  | refused {spill} (at_ : s.producer = .sending spill) (closed : s.raw.closed = true) :
      ProducerTurn s { s with producer := .closing }
  | close (at_ : s.producer = .closing) :
      ProducerTurn s { s with raw := s.raw.close, producer := .ended }

/-- What a turn of the parser does. -/
inductive ParserTurn (s : Session) : Session → Prop where
  | take {spill rest} (at_ : s.parser = .taking) (gives : s.raw.items = spill :: rest) :
      ParserTurn s { s with raw := { s.raw with items := rest }, parser := .checking spill }
  | dry (at_ : s.parser = .taking) (empty : s.raw.items = []) (closed : s.raw.closed = true) :
      ParserTurn s { s with parser := .closing }
  | drop {spill} (at_ : s.parser = .checking spill) (stopped : s.stopping = true) :
      ParserTurn s { s with parser := .taking, discarded := s.discarded + 1 }
  | decode {spill after} (at_ : s.parser = .checking spill) (running : s.stopping = false)
      (decodes : s.settings.decodeSpill? spill = some after) :
      ParserTurn s { s with
        parser := .sending after
        hits := s.hits + (after.hits.length - spill.hits.length) }
  | fail {spill} (at_ : s.parser = .checking spill) (running : s.stopping = false)
      (fails : s.settings.decodeSpill? spill = none) :
      ParserTurn s { s with parser := .failed }
  | send {spill} (at_ : s.parser = .sending spill) (opened : s.decoded.closed = false) :
      ParserTurn s { s with
        decoded := { s.decoded with items := s.decoded.items ++ [spill] }
        parser := .taking }
  | refused {spill} (at_ : s.parser = .sending spill) (closed : s.decoded.closed = true) :
      ParserTurn s { s with parser := .taking, discarded := s.discarded + 1 }
  | close (at_ : s.parser = .closing) :
      ParserTurn s { s with decoded := s.decoded.close, parser := .ended }

/-- What a turn of the deliverer does. -/
inductive DelivererTurn (s : Session) : Session → Prop where
  | take {spill rest} (at_ : s.deliverer = .taking) (gives : s.decoded.items = spill :: rest) :
      DelivererTurn s { s with
        decoded := { s.decoded with items := rest }
        deliverer := .pushing spill }
  | dry (at_ : s.deliverer = .taking) (empty : s.decoded.items = [])
      (closed : s.decoded.closed = true) :
      DelivererTurn s { s with deliverer := .flushing }
  | push {spill} (at_ : s.deliverer = .pushing spill) :
      DelivererTurn s { s with
        spectra := s.spectra.map (·.push spill)
        deliverer := .taking
        delivered := s.delivered + 1 }
  | flush (at_ : s.deliverer = .flushing) :
      DelivererTurn s { s with spectra := s.spectra.map Spectrum.flush, deliverer := .ended }

/-- What a turn of the party that ends the session does. -/
inductive JoinTurn (s : Session) : Session → Prop where
  | producer (at_ : s.join = .producer) (finished : s.isOver .producer = true) :
      JoinTurn s { s with join := .rawQueue }
  | rawQueue (at_ : s.join = .rawQueue) : JoinTurn s { s with raw := s.raw.close, join := .parser }
  | parser (at_ : s.join = .parser) (finished : s.isOver .parser = true) :
      JoinTurn s { s with join := .decodedQueue }
  | decodedQueue (at_ : s.join = .decodedQueue) :
      JoinTurn s { s with decoded := s.decoded.close, join := .deliverer }
  | deliverer (at_ : s.join = .deliverer) (finished : s.isOver .deliverer = true) :
      JoinTurn s { s with join := .done }

variable {s s' : Session}

theorem producerTurn_of_produce (h : s.produce = some s') : ProducerTurn s s' := by
  unfold produce at h
  split at h
  · next hp =>
      obtain rfl := Option.some.inj h
      by_cases hstop : s.stopping = true
      · rw [if_pos hstop]
        exact .quit hp hstop
      · rw [if_neg hstop]
        exact .goOn hp (Bool.eq_false_iff.2 hstop)
  · next hp =>
      split at h
      · next hsource =>
          obtain rfl := Option.some.inj h
          exact .dry hp hsource
      · next spill rest hsource =>
          obtain rfl := Option.some.inj h
          exact .ask hp hsource
  · next spill hp =>
      split at h
      · next raw hq =>
          obtain rfl := Option.some.inj h
          obtain ⟨hopen, -, rfl⟩ := Queue.enqueue_eq_accepted.1 hq
          exact .send hp hopen
      · next item hq =>
          obtain rfl := Option.some.inj h
          exact .refused hp (Queue.enqueue_eq_refused.1 hq).1
      · cases h
  · next hp =>
      obtain rfl := Option.some.inj h
      exact .close hp
  · cases h
  · cases h

theorem parserTurn_of_parse (h : s.parse = some s') : ParserTurn s s' := by
  unfold parse at h
  split at h
  · next hp =>
      split at h
      · next spill raw hq =>
          obtain rfl := Option.some.inj h
          obtain ⟨hitems, hraw⟩ := Queue.dequeue_eq_got.1 hq
          rw [hraw]
          exact .take hp hitems
      · next hq =>
          obtain rfl := Option.some.inj h
          obtain ⟨hitems, hclosed⟩ := Queue.dequeue_eq_ended.1 hq
          exact .dry hp hitems hclosed
      · cases h
  · next spill hp =>
      split at h
      · next hstop =>
          obtain rfl := Option.some.inj h
          exact .drop hp hstop
      · next hstop =>
          have hrunning := Bool.eq_false_iff.2 hstop
          split at h
          · next hdecode =>
              obtain rfl := Option.some.inj h
              exact .fail hp hrunning hdecode
          · next after hdecode =>
              obtain rfl := Option.some.inj h
              exact .decode hp hrunning hdecode
  · next spill hp =>
      split at h
      · next decoded hq =>
          obtain rfl := Option.some.inj h
          obtain ⟨hopen, -, rfl⟩ := Queue.enqueue_eq_accepted.1 hq
          exact .send hp hopen
      · next item hq =>
          obtain rfl := Option.some.inj h
          exact .refused hp (Queue.enqueue_eq_refused.1 hq).1
      · cases h
  · next hp =>
      obtain rfl := Option.some.inj h
      exact .close hp
  · cases h
  · cases h

theorem delivererTurn_of_deliver (h : s.deliver = some s') : DelivererTurn s s' := by
  unfold deliver at h
  split at h
  · next hp =>
      split at h
      · next spill decoded hq =>
          obtain rfl := Option.some.inj h
          obtain ⟨hitems, hdecoded⟩ := Queue.dequeue_eq_got.1 hq
          rw [hdecoded]
          exact .take hp hitems
      · next hq =>
          obtain rfl := Option.some.inj h
          obtain ⟨hitems, hclosed⟩ := Queue.dequeue_eq_ended.1 hq
          exact .dry hp hitems hclosed
      · cases h
  · next spill hp =>
      obtain rfl := Option.some.inj h
      exact .push hp
  · next hp =>
      obtain rfl := Option.some.inj h
      exact .flush hp
  · cases h
  · cases h

theorem joinTurn_of_joinTurn (h : s.joinTurn = some s') : JoinTurn s s' := by
  unfold joinTurn at h
  split at h
  · next hj =>
      split at h
      · next hover =>
          obtain rfl := Option.some.inj h
          exact .producer hj hover
      · cases h
  · next hj =>
      obtain rfl := Option.some.inj h
      exact .rawQueue hj
  · next hj =>
      split at h
      · next hover =>
          obtain rfl := Option.some.inj h
          exact .parser hj hover
      · cases h
  · next hj =>
      obtain rfl := Option.some.inj h
      exact .decodedQueue hj
  · next hj =>
      split at h
      · next hover =>
          obtain rfl := Option.some.inj h
          exact .deliverer hj hover
      · cases h
  · cases h

/-- The raw queue is closed for a stop only once that was asked for. -/
theorem eq_of_closeRaw (h : s.step .closeRaw = some s') :
    s.closeOwed = true ∧ s' = { s with raw := s.raw.close, closeOwed := false } := by
  simp only [step] at h
  split at h
  · next howed => exact ⟨howed, (Option.some.inj h).symm⟩
  · cases h

theorem turn_of_advance? {held : Session → Turn → Bool} (h : advance? held s = some s') :
    ∃ t ∈ turns, s.step t = some s' := by
  obtain ⟨t, ht, hturn⟩ := List.exists_of_findSome?_eq_some h
  split at hturn
  · cases hturn
  · exact ⟨t, ht, hturn⟩

/-! ## The order of winding up -/

theorem eq_of_start {settings : Settings} {sizing : Sizing} {source : List Spill}
    {spectra : List Spectrum} (h : start settings sizing source spectra = .ok s) :
    s = {
      settings
      source
      raw := .ofCapacity sizing.effectiveDepth
      decoded := .ofCapacity sizing.effectiveDepth
      spectra } := by
  unfold start at h
  split at h
  · cases h
  · exact (Except.ok.inj h).symm

/-- Queues are closed by those that may close them, and only left behind
empty. -/
structure Orderly (s : Session) : Prop where
  /-- The raw queue has room for a spill. -/
  raw_room : 0 < s.raw.capacity
  /-- The decoded queue has room for a spill. -/
  decoded_room : 0 < s.decoded.capacity
  /-- A producer that has ended has closed the raw queue. -/
  raw_closed : s.producer = .ended → s.raw.closed = true
  /-- Before the producer is over the raw queue is closed for a stop only. -/
  stopping : s.isOver .producer = false → s.raw.closed = true → s.stopping = true
  /-- The raw queue is still to be closed for a stop that was asked for. -/
  owed : s.closeOwed = true → s.stopping = true
  /-- The parser leaves once the raw queue has nothing more to give. -/
  raw_empty : s.parser.leaving = true → s.raw.closed = true ∧ s.raw.items = []
  /-- A parser that has ended has closed the decoded queue. -/
  decoded_closed : s.parser = .ended → s.decoded.closed = true
  /-- Before the parser is over the decoded queue is open. -/
  decoded_open : s.isOver .parser = false → s.decoded.closed = false
  /-- The deliverer leaves once the decoded queue has nothing more to give. -/
  decoded_empty : s.deliverer.leaving = true → s.decoded.closed = true ∧ s.decoded.items = []
  /-- The producer is waited for. -/
  producer_awaited : s.isOver .producer = false → s.join = .producer
  /-- The parser is waited for. -/
  parser_awaited : s.isOver .parser = false →
    s.join = .producer ∨ s.join = .rawQueue ∨ s.join = .parser

namespace Orderly

theorem of_start {settings : Settings} {sizing : Sizing} {source : List Spill}
    {spectra : List Spectrum} (h : start settings sizing source spectra = .ok s) : s.Orderly := by
  obtain rfl := eq_of_start h
  exact {
    raw_room := Nat.lt_of_lt_of_le Nat.zero_lt_one (Nat.le_max_right _ _)
    decoded_room := Nat.lt_of_lt_of_le Nat.zero_lt_one (Nat.le_max_right _ _)
    raw_closed := nofun
    stopping := nofun
    owed := nofun
    raw_empty := nofun
    decoded_closed := nofun
    decoded_open := fun _ => rfl
    decoded_empty := nofun
    producer_awaited := fun _ => rfl
    parser_awaited := fun _ => .inl rfl }

/-- A producer that is not over may do anything but end. -/
theorem withProducer (h : s.Orderly) (hover : s.isOver .producer = false) {p : ProducerState}
    (hp : p ≠ .ended) : ({ s with producer := p } : Session).Orderly :=
  { h with
    raw_closed := fun hended => absurd hended hp
    stopping := fun _ => h.stopping hover
    producer_awaited := fun _ => h.producer_awaited hover }

theorem producerTurn (h : s.Orderly) (turn : ProducerTurn s s') : s'.Orderly := by
  cases turn with
  | goOn at_ => exact h.withProducer (by simp [isOver, at_]) nofun
  | quit at_ => exact h.withProducer (by simp [isOver, at_]) nofun
  | @ask spill _ at_ =>
      have hwith := h.withProducer (by simp [isOver, at_]) (p := .sending spill) nofun
      exact { hwith with }
  | dry at_ => exact h.withProducer (by simp [isOver, at_]) nofun
  | send at_ opened =>
      have hwith := h.withProducer (by simp [isOver, at_]) (p := .checking) nofun
      exact { hwith with
        raw_empty := fun hleaving => by
          rw [(h.raw_empty hleaving).1] at opened
          cases opened }
  | refused at_ => exact h.withProducer (by simp [isOver, at_]) nofun
  | close at_ =>
      exact { h with
        raw_closed := fun _ => rfl
        stopping := nofun
        raw_empty := fun hleaving => ⟨rfl, (h.raw_empty hleaving).2⟩
        producer_awaited := nofun }

/-- A parser that is not over may do anything but leave. -/
theorem withParser (h : s.Orderly) (hover : s.isOver .parser = false) {p : ParserState}
    (hp : p.leaving = false) : ({ s with parser := p } : Session).Orderly :=
  { h with
    raw_empty := fun hleaving => absurd hleaving (by simp [hp])
    decoded_closed := by
      rintro (rfl : p = .ended)
      cases hp
    decoded_open := fun _ => h.decoded_open hover
    parser_awaited := fun _ => h.parser_awaited hover }

theorem parserTurn (h : s.Orderly) (turn : ParserTurn s s') : s'.Orderly := by
  cases turn with
  | @take spill _ at_ =>
      have hwith := h.withParser (by simp [isOver, at_]) (p := .checking spill) rfl
      exact { hwith with raw_empty := nofun }
  | dry at_ empty closed =>
      have hover : s.isOver .parser = false := by simp [isOver, at_]
      exact { h with
        raw_empty := fun _ => ⟨closed, empty⟩
        decoded_closed := nofun
        decoded_open := fun _ => h.decoded_open hover
        parser_awaited := fun _ => h.parser_awaited hover }
  | drop at_ =>
      have hwith := h.withParser (by simp [isOver, at_]) (p := .taking) rfl
      exact { hwith with }
  | @decode _ after at_ =>
      have hwith := h.withParser (by simp [isOver, at_]) (p := .sending after) rfl
      exact { hwith with }
  | fail at_ => exact h.withParser (by simp [isOver, at_]) rfl
  | send at_ opened =>
      have hwith := h.withParser (by simp [isOver, at_]) (p := .taking) rfl
      exact { hwith with
        decoded_empty := fun hleaving => by
          rw [(h.decoded_empty hleaving).1] at opened
          cases opened }
  | refused at_ =>
      have hwith := h.withParser (by simp [isOver, at_]) (p := .taking) rfl
      exact { hwith with }
  | close at_ =>
      exact { h with
        raw_empty := fun _ => h.raw_empty (by rw [at_]; rfl)
        decoded_closed := fun _ => rfl
        decoded_open := nofun
        decoded_empty := fun hleaving => ⟨rfl, (h.decoded_empty hleaving).2⟩
        parser_awaited := nofun }

theorem delivererTurn (h : s.Orderly) (turn : DelivererTurn s s') : s'.Orderly := by
  cases turn with
  | take => exact { h with decoded_empty := nofun }
  | dry at_ empty closed => exact { h with decoded_empty := fun _ => ⟨closed, empty⟩ }
  | push => exact { h with decoded_empty := nofun }
  | flush at_ => exact { h with decoded_empty := fun _ => h.decoded_empty (by rw [at_]; rfl) }

/-- The party that ends the session gets past a worker only once it is over. -/
theorem producer_over (h : s.Orderly) (hjoin : s.join ≠ .producer) :
    ¬ s.isOver .producer = false :=
  fun hnot => hjoin (h.producer_awaited hnot)

theorem parser_over (h : s.Orderly) (hjoin : s.join = .decodedQueue ∨ s.join = .deliverer) :
    ¬ s.isOver .parser = false := by
  intro hnot
  have hawaited := h.parser_awaited hnot
  rcases hjoin with hjoin | hjoin <;> simp [hjoin] at hawaited

theorem joinTurn (h : s.Orderly) (turn : JoinTurn s s') : s'.Orderly := by
  cases turn with
  | producer at_ finished =>
      exact { h with
        producer_awaited := fun hover => absurd finished (Bool.eq_false_iff.1 hover)
        parser_awaited := fun _ => .inr (.inl rfl) }
  | rawQueue at_ =>
      have hproducer := h.producer_over (by simp [at_])
      exact { h with
        raw_closed := fun _ => rfl
        stopping := fun hnot => absurd hnot hproducer
        raw_empty := fun hleaving => ⟨rfl, (h.raw_empty hleaving).2⟩
        producer_awaited := fun hnot => absurd hnot hproducer
        parser_awaited := fun _ => .inr (.inr rfl) }
  | parser at_ finished =>
      have hproducer := h.producer_over (by simp [at_])
      exact { h with
        producer_awaited := fun hnot => absurd hnot hproducer
        parser_awaited := fun hnot => absurd finished (Bool.eq_false_iff.1 hnot) }
  | decodedQueue at_ =>
      have hproducer := h.producer_over (by simp [at_])
      have hparser := h.parser_over (.inl at_)
      exact { h with
        decoded_closed := fun _ => rfl
        decoded_open := fun hnot => absurd hnot hparser
        decoded_empty := fun hleaving => ⟨rfl, (h.decoded_empty hleaving).2⟩
        producer_awaited := fun hnot => absurd hnot hproducer
        parser_awaited := fun hnot => absurd hnot hparser }
  | deliverer at_ finished =>
      have hproducer := h.producer_over (by simp [at_])
      have hparser := h.parser_over (.inr at_)
      exact { h with
        producer_awaited := fun hnot => absurd hnot hproducer
        parser_awaited := fun hnot => absurd hnot hparser }

/-- Every turn keeps the order. -/
theorem step (h : s.Orderly) {t : Turn} (hstep : s.step t = some s') : s'.Orderly := by
  cases t with
  | produce => exact h.producerTurn (producerTurn_of_produce hstep)
  | parse => exact h.parserTurn (parserTurn_of_parse hstep)
  | deliver => exact h.delivererTurn (delivererTurn_of_deliver hstep)
  | join => exact h.joinTurn (joinTurn_of_joinTurn hstep)
  | raiseStop =>
      obtain rfl := Option.some.inj hstep
      exact { h with stopping := fun _ _ => rfl, owed := fun _ => rfl }
  | closeRaw =>
      obtain ⟨howed, rfl⟩ := eq_of_closeRaw hstep
      exact { h with
        raw_closed := fun _ => rfl
        stopping := fun _ _ => h.owed howed
        owed := nofun
        raw_empty := fun hleaving => ⟨rfl, (h.raw_empty hleaving).2⟩ }

/-- So does a worker that fails. -/
theorem fail (h : s.Orderly) (w : Worker) : (s.fail w).Orderly := by
  unfold Session.fail
  split
  · exact h
  · next hover =>
      have hover := Bool.eq_false_iff.2 hover
      cases w with
      | producer => exact h.withProducer hover nofun
      | parser => exact h.withParser hover rfl
      | deliverer => exact { h with decoded_empty := nofun }

/-! ## A worker can move -/

theorem isSome_produce (hover : s.isOver .producer = false)
    (hraw : s.raw.closed = true ∨ s.raw.items.length < s.raw.capacity) : s.produce.isSome := by
  unfold produce
  split
  · rfl
  · split <;> rfl
  · next spill _ =>
      split
      · rfl
      · rfl
      · next hq => exact absurd hq (Queue.enqueue_ne_blocks hraw)
  · rfl
  · next hp => simp [isOver, hp] at hover
  · next hp => simp [isOver, hp] at hover

theorem isSome_parse (hover : s.isOver .parser = false)
    (hraw : s.raw.items ≠ [] ∨ s.raw.closed = true)
    (hdecoded : s.decoded.closed = true ∨ s.decoded.items.length < s.decoded.capacity) :
    s.parse.isSome := by
  unfold parse
  split
  · split
    · rfl
    · rfl
    · next hq => exact absurd hq (Queue.dequeue_ne_blocks hraw)
  · split
    · rfl
    · split <;> rfl
  · split
    · rfl
    · rfl
    · next hq => exact absurd hq (Queue.enqueue_ne_blocks hdecoded)
  · rfl
  · next hp => simp [isOver, hp] at hover
  · next hp => simp [isOver, hp] at hover

theorem isSome_deliver (hover : s.isOver .deliverer = false)
    (hdecoded : s.decoded.items ≠ [] ∨ s.decoded.closed = true) : s.deliver.isSome := by
  unfold deliver
  split
  · split
    · rfl
    · rfl
    · next hq => exact absurd hq (Queue.dequeue_ne_blocks hdecoded)
  · rfl
  · rfl
  · next hp => simp [isOver, hp] at hover
  · next hp => simp [isOver, hp] at hover

theorem producer_eq_ended (hover : s.isOver .producer = true) (hok : s.producer ≠ .failed) :
    s.producer = .ended := by
  cases hp : s.producer <;> simp_all [isOver]

theorem parser_eq_ended (hover : s.isOver .parser = true) (hok : s.parser ≠ .failed) :
    s.parser = .ended := by
  cases hp : s.parser <;> simp_all [isOver]

theorem deliverer_eq_ended (hover : s.isOver .deliverer = true) (hok : s.deliverer ≠ .failed) :
    s.deliverer = .ended := by
  cases hp : s.deliverer <;> simp_all [isOver]

/-- As long as no worker has failed, one of them can move, or all three have
ended. -/
theorem exists_step (h : s.Orderly) (hproducer : s.producer ≠ .failed)
    (hparser : s.parser ≠ .failed) (hdeliverer : s.deliverer ≠ .failed) :
    (∀ w, s.isOver w = true) ∨ ∃ t ∈ [Turn.produce, .parse, .deliver], (s.step t).isSome := by
  cases hd : s.isOver .deliverer with
  | true =>
      have hleaving : s.deliverer.leaving = true := by
        rw [deliverer_eq_ended hd hdeliverer]
        rfl
      have hp : s.isOver .parser = true := by
        rw [← Bool.not_eq_false]
        intro hnot
        have hopen := h.decoded_open hnot
        rw [(h.decoded_empty hleaving).1] at hopen
        cases hopen
      cases hover : s.isOver .producer with
      | true =>
          refine .inl fun w => ?_
          cases w with
          | producer => exact hover
          | parser => exact hp
          | deliverer => exact hd
      | false =>
          have hraw : s.parser.leaving = true := by
            rw [parser_eq_ended hp hparser]
            rfl
          exact .inr ⟨.produce, by simp, isSome_produce hover (.inl (h.raw_empty hraw).1)⟩
  | false =>
      by_cases hdecoded : s.decoded.items ≠ [] ∨ s.decoded.closed = true
      · exact .inr ⟨.deliver, by simp, isSome_deliver hd hdecoded⟩
      obtain ⟨hempty, hopen⟩ := not_or.1 hdecoded
      rw [ne_eq, Classical.not_not] at hempty
      have hp : s.isOver .parser = false := by
        rw [Bool.eq_false_iff]
        exact fun hover => hopen (h.decoded_closed (parser_eq_ended hover hparser))
      have hroom : s.decoded.items.length < s.decoded.capacity := by
        rw [hempty]
        exact h.decoded_room
      by_cases hraw : s.raw.items ≠ [] ∨ s.raw.closed = true
      · exact .inr ⟨.parse, by simp, isSome_parse hp hraw (.inr hroom)⟩
      obtain ⟨hempty, hopen⟩ := not_or.1 hraw
      rw [ne_eq, Classical.not_not] at hempty
      have hproducing : s.isOver .producer = false := by
        rw [Bool.eq_false_iff]
        exact fun hover => hopen (h.raw_closed (producer_eq_ended hover hproducer))
      have hroom : s.raw.items.length < s.raw.capacity := by
        rw [hempty]
        exact h.raw_room
      exact .inr ⟨.produce, by simp, isSome_produce hproducing (.inr hroom)⟩

end Orderly

end Session

end ListMode
