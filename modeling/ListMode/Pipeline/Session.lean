import ListMode.Decoder.Basic
import ListMode.Pipeline.Queue
import ListMode.Pipeline.Sizing
import ListMode.Spectrum.Basic

/-!
# Sessions

A session takes spills from a source to the spectra through three workers and
two bounded queues:

    source → producer → raw queue → parser → decoded queue → deliverer → spectra

The workers take turns in any order.  `Session.step` is one turn of one of them:
a single queue operation, a look at the stop flag, or a step of its own work.  A
turn that would have to wait is not possible.  A session is ended by a fourth
party, which waits for the workers one after the other and closes the queue
behind each.

A stop is asked for by raising the stop flag and then closing the raw queue.
The producer looks at the flag before each spill, the parser before it decodes
one, so raw spills that wait behind the flag are dropped, while decoded ones
still arrive.  Every spectrum is flushed at the end.  A parser that meets hits
there is no room for fails, and what it has sent before is still delivered.

A worker that fails closes no queue.  The worker in front of it may then wait for
room for ever, and the party that ends the session for that worker
(`Session.outcome?`).
-/

namespace ListMode

/-! ## Workers -/

/-- The workers of a session. -/
inductive Worker where
  /-- Takes spills from the source. -/
  | producer
  /-- Decodes spills. -/
  | parser
  /-- Pushes spills into the spectra. -/
  | deliverer
deriving DecidableEq, Repr

/-- The name of a worker in messages. -/
def Worker.name : Worker → String
  | .producer => "producer"
  | .parser => "parser"
  | .deliverer => "sink"

/-- What the producer does next. -/
inductive ProducerState where
  /-- Look at the stop flag. -/
  | checking
  /-- Ask the source for a spill. -/
  | asking
  /-- Put a spill into the raw queue. -/
  | sending (spill : Spill)
  /-- Close the raw queue. -/
  | closing
  /-- Nothing; it has ended. -/
  | ended
  /-- Nothing; it has failed. -/
  | failed

/-- What the parser does next. -/
inductive ParserState where
  /-- Take a spill from the raw queue. -/
  | taking
  /-- Look at the stop flag, with a spill in hand. -/
  | checking (spill : Spill)
  /-- Put a decoded spill into the decoded queue. -/
  | sending (spill : Spill)
  /-- Close the decoded queue. -/
  | closing
  /-- Nothing; it has ended. -/
  | ended
  /-- Nothing; it has failed. -/
  | failed

/-- What the deliverer does next. -/
inductive DelivererState where
  /-- Take a spill from the decoded queue. -/
  | taking
  /-- Push a spill into the spectra. -/
  | pushing (spill : Spill)
  /-- Flush the spectra. -/
  | flushing
  /-- Nothing; it has ended. -/
  | ended
  /-- Nothing; it has failed. -/
  | failed

/-- What the party that ends a session does next. -/
inductive JoinState where
  /-- Wait for the producer. -/
  | producer
  /-- Close the raw queue. -/
  | rawQueue
  /-- Wait for the parser. -/
  | parser
  /-- Close the decoded queue. -/
  | decodedQueue
  /-- Wait for the deliverer. -/
  | deliverer
  /-- Nothing; the session is over. -/
  | done
deriving DecidableEq, Repr

/-! ## States and turns -/

/-- A session at some moment. -/
structure Session where
  /-- The settings of the parser. -/
  settings : Settings
  /-- The spills the source has still to give. -/
  source : List Spill
  /-- The state of the producer. -/
  producer : ProducerState := .checking
  /-- The number of spills the producer queued. -/
  produced : Nat := 0
  /-- The queue between producer and parser. -/
  raw : Queue Spill
  /-- The state of the parser. -/
  parser : ParserState := .taking
  /-- The number of spills that were dropped. -/
  discarded : Nat := 0
  /-- The number of hits decoded. -/
  hits : Nat := 0
  /-- The queue between parser and deliverer. -/
  decoded : Queue Spill
  /-- The state of the deliverer. -/
  deliverer : DelivererState := .taking
  /-- The number of spills pushed into the spectra. -/
  delivered : Nat := 0
  /-- The spectra. -/
  spectra : List Spectrum
  /-- The state of the party that ends the session. -/
  join : JoinState := .producer
  /-- The stop flag. -/
  stopping : Bool := false
  /-- A stop was asked for, and the raw queue is still to be closed. -/
  closeOwed : Bool := false

/-- Whose turn it is. -/
inductive Turn where
  /-- A turn of the producer. -/
  | produce
  /-- A turn of the parser. -/
  | parse
  /-- A turn of the deliverer. -/
  | deliver
  /-- A turn of the party that ends the session. -/
  | join
  /-- A stop is asked for. -/
  | raiseStop
  /-- The raw queue is closed after a stop was asked for. -/
  | closeRaw
deriving DecidableEq, Repr

namespace Session

/-- The producer's turn. -/
def produce (s : Session) : Option Session :=
  match s.producer with
  | .checking => some { s with producer := if s.stopping then .closing else .asking }
  | .asking =>
    match s.source with
    | [] => some { s with producer := .closing }
    | spill :: rest => some { s with source := rest, producer := .sending spill }
  | .sending spill =>
    match s.raw.enqueue spill with
    | .accepted raw => some { s with raw, producer := .checking, produced := s.produced + 1 }
    | .refused _ => some { s with producer := .closing }
    | .blocks => none
  | .closing => some { s with raw := s.raw.close, producer := .ended }
  | .ended | .failed => none

/-- The parser's turn. -/
def parse (s : Session) : Option Session :=
  match s.parser with
  | .taking =>
    match s.raw.dequeue with
    | .got spill raw => some { s with raw, parser := .checking spill }
    | .ended => some { s with parser := .closing }
    | .blocks => none
  | .checking spill =>
    if s.stopping then some { s with parser := .taking, discarded := s.discarded + 1 }
    else
      match s.settings.decodeSpill? spill with
      | none => some { s with parser := .failed }
      | some after =>
        some { s with
          parser := .sending after
          hits := s.hits + (after.hits.length - spill.hits.length) }
  | .sending spill =>
    match s.decoded.enqueue spill with
    | .accepted decoded => some { s with decoded, parser := .taking }
    | .refused _ => some { s with parser := .taking, discarded := s.discarded + 1 }
    | .blocks => none
  | .closing => some { s with decoded := s.decoded.close, parser := .ended }
  | .ended | .failed => none

/-- The deliverer's turn. -/
def deliver (s : Session) : Option Session :=
  match s.deliverer with
  | .taking =>
    match s.decoded.dequeue with
    | .got spill decoded => some { s with decoded, deliverer := .pushing spill }
    | .ended => some { s with deliverer := .flushing }
    | .blocks => none
  | .pushing spill =>
    some { s with
      spectra := s.spectra.map (·.push spill)
      deliverer := .taking
      delivered := s.delivered + 1 }
  | .flushing => some { s with spectra := s.spectra.map Spectrum.flush, deliverer := .ended }
  | .ended | .failed => none

/-- The worker does nothing any more. -/
def isOver (s : Session) : Worker → Bool
  | .producer => match s.producer with
    | .ended | .failed => true
    | _ => false
  | .parser => match s.parser with
    | .ended | .failed => true
    | _ => false
  | .deliverer => match s.deliverer with
    | .ended | .failed => true
    | _ => false

/-- The turn of the party that ends the session. -/
def joinTurn (s : Session) : Option Session :=
  match s.join with
  | .producer => if s.isOver .producer then some { s with join := .rawQueue } else none
  | .rawQueue => some { s with raw := s.raw.close, join := .parser }
  | .parser => if s.isOver .parser then some { s with join := .decodedQueue } else none
  | .decodedQueue => some { s with decoded := s.decoded.close, join := .deliverer }
  | .deliverer => if s.isOver .deliverer then some { s with join := .done } else none
  | .done => none

/-- One turn, if it is possible. -/
def step (s : Session) : Turn → Option Session
  | .produce => s.produce
  | .parse => s.parse
  | .deliver => s.deliver
  | .join => s.joinTurn
  | .raiseStop => some { s with stopping := true, closeOwed := true }
  | .closeRaw => if s.closeOwed then some { s with raw := s.raw.close, closeOwed := false } else none

/-- A worker fails in the middle of its work. -/
def fail (s : Session) (w : Worker) : Session :=
  if s.isOver w then s
  else
    match w with
    | .producer => { s with producer := .failed }
    | .parser => { s with parser := .failed }
    | .deliverer => { s with deliverer := .failed }

/-- Asks for a stop. -/
def stop (s : Session) : Session :=
  { s with stopping := true, closeOwed := false, raw := s.raw.close }

/-! ## Whole sessions -/

/-- A session before its first turn; the settings have to be usable. -/
def start (settings : Settings) (sizing : Sizing) (source : List Spill) (spectra : List Spectrum) :
    Except SettingsFault Session :=
  match settings.fault? with
  | some fault => .error fault
  | none =>
    .ok
      { settings
        source
        raw := .ofCapacity sizing.effectiveDepth
        decoded := .ofCapacity sizing.effectiveDepth
        spectra }

/-- The bytes that a spill takes in a queue, apart from what it refers to. -/
def spillSlot : Nat := 88

/-- There is room for each queue of a session. -/
def queuesFit (sizing : Sizing) : Bool := Room.holds sizing.effectiveDepth spillSlot

/-- The turns of the parties of a session, in the order they are offered. -/
def turns : List Turn := [.produce, .parse, .deliver, .join]

/-- The session after the first turn that is possible and not held back. -/
def advance? (held : Session → Turn → Bool) (s : Session) : Option Session :=
  turns.findSome? fun t => if held s t then none else s.step t

/-- Takes turns until none is possible or `fuel` of them were taken. -/
def settleFor (held : Session → Turn → Bool) : (fuel : Nat) → Session → Session
  | 0, s => s
  | fuel + 1, s =>
    match advance? held s with
    | some s => settleFor held fuel s
    | none => s

/-- The number of spills on their way, those still in the source included. -/
def load (s : Session) : Nat := s.source.length + s.raw.items.length + s.decoded.items.length + 3

/-- Takes turns until none is possible that is not held back.  A spill takes at
most eight turns, and ending the session takes a dozen. -/
def settle (held : Session → Turn → Bool) (s : Session) : Session :=
  settleFor held (8 * s.load + 12) s

/-- Takes turns until none is possible. -/
def finish (s : Session) : Session := s.settle fun _ _ => false

/-! ## Places of rest -/

/-- The turn asks a source that has given all it has. -/
def asksDrySource (s : Session) (t : Turn) : Bool :=
  t == .produce && s.source.isEmpty && (match s.producer with
    | .asking => true
    | _ => false)

/-- The turn pushes the first spill into the spectra. -/
def pushesFirst (s : Session) (t : Turn) : Bool :=
  t == .deliver && s.delivered == 0 && (match s.deliverer with
    | .pushing _ => true
    | _ => false)

/-- The session once it waits for its source: every spill has been delivered. -/
def idle (s : Session) : Session := s.settle fun s t => t == .join || s.asksDrySource t

/-- The session once nothing can move as long as the spectra hold the first
spill back. -/
def stalled (s : Session) : Session :=
  s.settle fun s t => t == .join || s.asksDrySource t || s.pushesFirst t

/-- Stops the session and ends it; the source goes on with the spills `late`. -/
def stopAndFinish (s : Session) (late : List Spill) : Session :=
  { s.stop with source := late }.finish

/-- The session ended with its producer failing once the source is dry. -/
def finishFailingProducer (s : Session) : Session := (s.idle.fail .producer).finish

/-- The session ended with its deliverer failing as it pushes the first spill, if
there is one and a spectrum to push it into.  No spectrum gets anything of it. -/
def finishFailingDeliverer (s : Session) : Session :=
  let pushing := s.settle pushesFirst
  let fails := !pushing.spectra.isEmpty && pushing.pushesFirst .deliver
  (if fails then pushing.fail .deliverer else pushing).finish

/-! ## Totals -/

/-- The totals of a session. -/
structure Summary where
  /-- The number of spills the producer queued. -/
  produced : Nat
  /-- The number of spills dropped after a stop. -/
  discarded : Nat
  /-- The number of spills pushed into the spectra. -/
  delivered : Nat
  /-- The number of hits decoded. -/
  hits : Nat
  /-- The session was stopped. -/
  stopped : Bool
deriving DecidableEq, Repr

/-- The totals, or the first worker that failed. -/
def summary (s : Session) : Except Worker Summary :=
  match s.producer, s.parser, s.deliverer with
  | .failed, _, _ => .error .producer
  | _, .failed, _ => .error .parser
  | _, _, .failed => .error .deliverer
  | _, _, _ => .ok ⟨s.produced, s.discarded, s.delivered, s.hits, s.stopping⟩

/-- What the end of a session is told of it: nothing as long as some worker is waited for. -/
def outcome? (s : Session) : Option (Except Worker Summary) :=
  if s.join = .done then some s.summary else none

/-- Some worker may still change the spectra. -/
def running (s : Session) : Bool := !s.isOver .deliverer

end Session

/-- The words for a failed worker. -/
def Worker.message (w : Worker) : String := s!"session worker '{w.name}' failed"

end ListMode
