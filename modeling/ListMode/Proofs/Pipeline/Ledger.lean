import ListMode.Proofs.Decoder.Hits
import ListMode.Proofs.Pipeline.Turns
import ListMode.Proofs.Spectrum.Feeding
import ListMode.Proofs.Word.Bytes

/-!
# Runs of a session

A run is any sequence of possible turns, with the calls that its turns make of
each spectrum (`Session.Run`).  What became of the spills of the source is kept
in a ledger (`Session.Ledger`): some passed the parser, after them some were
dropped because of a stop, one may have been lost on the way into a queue that
was closed for the stop, and the rest is still on the way.  Every turn of a
worker that does not fail enters what it did (`Ledger.step`), so the ledger is
right at the end of every run in which no worker failed.

In the end nothing is on the way, and the ledger is the sequential reading of
the session (`Session.run_sequential`).
-/

namespace ListMode.Session

/-! ## Runs -/

/-- The calls that a turn makes of each spectrum. -/
def calls (s : Session) : Turn → List Feed
  | .deliver =>
    match s.deliverer with
    | .pushing spill => [.push spill]
    | .flushing => [.flush]
    | _ => []
  | _ => []

/-- A session gets from one state to another by turns in some order, making
these calls of each spectrum. -/
inductive Run (s : Session) : List Feed → Session → Prop where
  | refl : Run s [] s
  | turn {cs s' t s''} : Run s cs s' → s'.step t = some s'' → Run s (cs ++ s'.calls t) s''

theorem Run.append {s s' s'' : Session} {cs ds : List Feed} (h : Run s cs s')
    (h' : Run s' ds s'') : Run s (cs ++ ds) s'' := by
  induction h' with
  | refl => rwa [List.append_nil]
  | turn _ hstep ih =>
      rw [← List.append_assoc]
      exact .turn ih hstep

/-- The calls of the listed turns and the state they lead to, if all of them are
possible. -/
def play (s : Session) : List Turn → Option (List Feed × Session)
  | [] => some ([], s)
  | t :: ts => do
    let next ← s.step t
    let (cs, last) ← next.play ts
    return (s.calls t ++ cs, last)

theorem run_of_play {ts : List Turn} : ∀ {s s' : Session} {cs : List Feed},
    s.play ts = some (cs, s') → Run s cs s' := by
  induction ts with
  | nil =>
      intro s s' cs h
      cases h
      exact .refl
  | cons t ts ih =>
      intro s s' cs h
      obtain ⟨next, hstep, h⟩ := Option.bind_eq_some_iff.1 h
      obtain ⟨⟨ds, last⟩, hplay, h⟩ := Option.bind_eq_some_iff.1 h
      cases h
      have hone : Run s (s.calls t) next := Run.turn .refl hstep
      exact hone.append (ih hplay)

/-- Settling a session is a run of it. -/
theorem exists_run_settleFor (held : Session → Turn → Bool) (fuel : Nat) :
    ∀ s : Session, ∃ cs, Run s cs (settleFor held fuel s) := by
  induction fuel with
  | zero => exact fun s => ⟨[], .refl⟩
  | succ fuel ih =>
      intro s
      rw [settleFor]
      split
      · next next hadvance =>
          obtain ⟨t, -, hturn⟩ := turn_of_advance? hadvance
          obtain ⟨cs, hrun⟩ := ih next
          have hone : Run s (s.calls t) next := Run.turn .refl hturn
          exact ⟨_, hone.append hrun⟩
      · exact ⟨[], .refl⟩

/-- The flush that ends the calls. -/
def closing (s : Session) : List Feed :=
  match s.deliverer with
  | .ended => [.flush]
  | _ => []

/-! ## The ledger -/

/-- What became of the spills that have left the queues. -/
structure Course where
  /-- Those that passed the parser. -/
  passed : List Spill := []
  /-- Those of them that were pushed, as they were decoded. -/
  pushed : List Spill := []
  /-- Those that were dropped. -/
  dropped : List Spill := []
  /-- Those that found the raw queue closed. -/
  lost : List Spill := []

/-- The course of the spills of a source, in settings, accounts for the state of
a session that began with the given spectra and for the calls made of them. -/
structure Ledger (settings : Settings) (source : List Spill) (spectra : List Spectrum)
    (cs : List Feed) (k : Course) (s : Session) : Prop where
  /-- The settings stay. -/
  settings_eq : s.settings = settings
  /-- Every spill of the source is somewhere, and in order. -/
  source_eq : source = k.passed ++ k.dropped ++ s.parser.unread ++ s.raw.items ++
    s.producer.held ++ k.lost ++ s.source
  /-- Behind the parser the spills that passed it are in order too, decoded. -/
  passed_eq : k.passed.map settings.decodeSpill =
    k.pushed ++ s.deliverer.held ++ s.decoded.items ++ s.parser.ready
  /-- There was room to decode them. -/
  decoded : ∀ spill ∈ k.passed, settings.decodeSpill? spill = some (settings.decodeSpill spill)
  /-- The spills queued by the producer. -/
  produced_eq : s.produced =
    k.passed.length + k.dropped.length + s.parser.unread.length + s.raw.items.length
  /-- The spills dropped. -/
  discarded_eq : s.discarded = k.dropped.length
  /-- The spills pushed. -/
  delivered_eq : s.delivered = k.pushed.length
  /-- The hits decoded. -/
  hits_eq : s.hits = (k.passed.flatMap fun spill => (settings.decode spill.raw).hits).length
  /-- The calls are a push of each spill, and in the end a flush. -/
  calls_eq : cs = k.pushed.map .push ++ s.closing
  /-- The spectra are what the calls made of them. -/
  spectra_eq : s.spectra = spectra.map (·.feedAll cs)
  /-- Spills are dropped after a stop, and then none is decoded any more. -/
  dropped : k.dropped ≠ [] → s.stopping = true ∧ s.parser.ready = []
  /-- A spill is lost after a stop, and then the producer leaves. -/
  lost : k.lost ≠ [] → s.stopping = true ∧ s.producer.leaving = true
  /-- The producer leaves after a stop, or when the source is dry. -/
  leaving : s.producer.leaving = true → s.stopping = true ∨ s.source = []

namespace Ledger

variable {settings : Settings} {source : List Spill} {spectra : List Spectrum} {cs : List Feed}
  {k : Course} {s s' : Session}

theorem of_start {sizing : Sizing} (h : start settings sizing source spectra = .ok s) :
    Ledger settings source spectra [] {} s := by
  obtain rfl := eq_of_start h
  exact {
    settings_eq := rfl
    source_eq := rfl
    passed_eq := rfl
    decoded := nofun
    produced_eq := rfl
    discarded_eq := rfl
    delivered_eq := rfl
    hits_eq := rfl
    calls_eq := rfl
    spectra_eq := by simp [Spectrum.feedAll]
    dropped := fun h => absurd rfl h
    lost := fun h => absurd rfl h
    leaving := nofun }

theorem dropped_eq_nil (h : Ledger settings source spectra cs k s)
    (hk : s.stopping = false ∨ s.parser.ready ≠ []) : k.dropped = [] := by
  cases hdropped : k.dropped with
  | nil => rfl
  | cons spill rest =>
      obtain ⟨hstop, hready⟩ := h.dropped (by simp [hdropped])
      simp [hstop, hready] at hk

theorem lost_eq_nil (h : Ledger settings source spectra cs k s)
    (hk : s.stopping = false ∨ s.producer.leaving = false) : k.lost = [] := by
  cases hlost : k.lost with
  | nil => rfl
  | cons spill rest =>
      obtain ⟨hstop, hleaving⟩ := h.lost (by simp [hlost])
      simp [hstop, hleaving] at hk

theorem producerTurn (h : Ledger settings source spectra cs k s) (ho : s.Orderly)
    (turn : ProducerTurn s s') : ∃ k', Ledger settings source spectra cs k' s' := by
  cases turn with
  | goOn at_ running =>
      have hnone := h.lost_eq_nil (.inr (by rw [at_]; rfl))
      have hsource := h.source_eq
      rw [at_] at hsource
      exact ⟨k, { h with
        source_eq := hsource
        lost := fun hne => absurd hnone hne
        leaving := nofun }⟩
  | quit at_ stopped =>
      have hsource := h.source_eq
      rw [at_] at hsource
      exact ⟨k, { h with
        source_eq := hsource
        lost := fun _ => ⟨stopped, rfl⟩
        leaving := fun _ => .inl stopped }⟩
  | @ask spill rest at_ gives =>
      have hnone := h.lost_eq_nil (.inr (by rw [at_]; rfl))
      have hsource := h.source_eq
      rw [at_, gives, hnone] at hsource
      exact ⟨k, { h with
        source_eq := by
          rw [hnone]
          simpa [ProducerState.held] using hsource
        lost := fun hne => absurd hnone hne
        leaving := nofun }⟩
  | dry at_ empty =>
      have hsource := h.source_eq
      rw [at_] at hsource
      exact ⟨k, { h with
        source_eq := hsource
        lost := fun hne => ⟨(h.lost hne).1, rfl⟩
        leaving := fun _ => .inr empty }⟩
  | @send spill at_ opened =>
      have hnone := h.lost_eq_nil (.inr (by rw [at_]; rfl))
      have hsource := h.source_eq
      rw [at_, hnone] at hsource
      exact ⟨k, { h with
        source_eq := by
          rw [hnone]
          simpa [ProducerState.held] using hsource
        produced_eq := by
          simp only [h.produced_eq, List.length_append, List.length_singleton]
          omega
        lost := fun hne => absurd hnone hne
        leaving := nofun }⟩
  | @refused spill at_ closed =>
      have hstop := ho.stopping (by simp [isOver, at_]) closed
      have hnone := h.lost_eq_nil (.inr (by rw [at_]; rfl))
      have hsource := h.source_eq
      rw [at_, hnone] at hsource
      exact ⟨{ k with lost := [spill] }, { h with
        source_eq := by simpa [ProducerState.held] using hsource
        lost := fun _ => ⟨hstop, rfl⟩
        leaving := fun _ => .inl hstop }⟩
  | close at_ =>
      have hsource := h.source_eq
      rw [at_] at hsource
      exact ⟨k, { h with
        source_eq := hsource
        lost := fun hne => ⟨(h.lost hne).1, rfl⟩
        leaving := fun _ => h.leaving (by rw [at_]; rfl) }⟩

theorem parserTurn (h : Ledger settings source spectra cs k s) (ho : s.Orderly)
    (turn : ParserTurn s s') (hok : s'.parser ≠ .failed) :
    ∃ k', Ledger settings source spectra cs k' s' := by
  have hsource := h.source_eq
  have hpassed := h.passed_eq
  have hproduced := h.produced_eq
  cases turn with
  | @take spill rest at_ gives =>
      rw [at_, gives] at hsource hproduced
      rw [at_] at hpassed
      exact ⟨k, { h with
        source_eq := by simpa [ParserState.unread] using hsource
        passed_eq := hpassed
        produced_eq := by
          rw [hproduced]
          simp only [ParserState.unread, List.length_cons, List.length_nil]
          omega
        dropped := fun hne => ⟨(h.dropped hne).1, rfl⟩ }⟩
  | dry at_ =>
      rw [at_] at hsource hpassed hproduced
      exact ⟨k, { h with
        source_eq := hsource
        passed_eq := hpassed
        produced_eq := hproduced
        dropped := fun hne => ⟨(h.dropped hne).1, rfl⟩ }⟩
  | @drop spill at_ stopped =>
      rw [at_] at hsource hpassed hproduced
      exact ⟨{ k with dropped := k.dropped ++ [spill] }, { h with
        source_eq := by simpa [ParserState.unread] using hsource
        passed_eq := hpassed
        produced_eq := by
          rw [hproduced]
          simp only [ParserState.unread, List.length_append, List.length_cons, List.length_nil]
          omega
        discarded_eq := by simp [h.discarded_eq]
        dropped := fun _ => ⟨stopped, rfl⟩ }⟩
  | @decode spill after at_ running decodes =>
      -- nothing was dropped yet, so the spill follows the last one that passed
      have hnone := h.dropped_eq_nil (.inl running)
      rw [h.settings_eq] at decodes
      have hafter := Settings.decodeSpill_of_decodeSpill? decodes
      rw [at_, hnone] at hsource hproduced
      rw [at_] at hpassed
      exact ⟨{ k with passed := k.passed ++ [spill] }, { h with
        source_eq := by
          rw [hnone]
          simpa [ParserState.unread] using hsource
        passed_eq := by
          rw [List.map_append, hpassed, List.map_singleton, hafter]
          simp [ParserState.ready]
        decoded := by
          intro x hx
          rcases List.mem_append.1 hx with hx | hx
          · exact h.decoded x hx
          · obtain rfl := List.mem_singleton.1 hx
            rw [decodes, hafter]
        produced_eq := by
          rw [hproduced, hnone]
          simp only [ParserState.unread, List.length_append, List.length_cons, List.length_nil]
        hits_eq := by
          rw [h.hits_eq, ← hafter]
          simp [Settings.decodeSpill]
        dropped := fun hne => absurd hnone hne }⟩
  | fail => exact absurd rfl hok
  | @send spill at_ opened =>
      have hnone := h.dropped_eq_nil (.inr (by simp [at_, ParserState.ready]))
      rw [at_] at hsource hpassed hproduced
      exact ⟨k, { h with
        source_eq := hsource
        passed_eq := by simpa [ParserState.ready] using hpassed
        produced_eq := hproduced
        dropped := fun hne => absurd hnone hne }⟩
  | refused at_ closed =>
      have hopen := ho.decoded_open (by simp [isOver, at_])
      rw [closed] at hopen
      cases hopen
  | close at_ =>
      rw [at_] at hsource hpassed hproduced
      exact ⟨k, { h with
        source_eq := hsource
        passed_eq := hpassed
        produced_eq := hproduced
        dropped := fun hne => ⟨(h.dropped hne).1, rfl⟩ }⟩

theorem delivererTurn (h : Ledger settings source spectra cs k s) (turn : DelivererTurn s s') :
    ∃ k', Ledger settings source spectra (cs ++ s.calls .deliver) k' s' := by
  have hpassed := h.passed_eq
  have hcalls := h.calls_eq
  cases turn with
  | @take spill rest at_ gives =>
      have hnone : s.calls .deliver = [] := by simp [calls, at_]
      rw [hnone, List.append_nil]
      simp only [closing, at_] at hcalls
      rw [at_, gives] at hpassed
      exact ⟨k, { h with
        passed_eq := by simpa [DelivererState.held] using hpassed
        calls_eq := hcalls }⟩
  | dry at_ =>
      have hnone : s.calls .deliver = [] := by simp [calls, at_]
      rw [hnone, List.append_nil]
      simp only [closing, at_] at hcalls
      rw [at_] at hpassed
      exact ⟨k, { h with
        passed_eq := hpassed
        calls_eq := hcalls }⟩
  | @push spill at_ =>
      have hone : s.calls .deliver = [.push spill] := by simp [calls, at_]
      rw [hone]
      simp only [closing, at_, List.append_nil] at hcalls
      rw [at_] at hpassed
      exact ⟨{ k with pushed := k.pushed ++ [spill] }, { h with
        passed_eq := by simpa [DelivererState.held] using hpassed
        delivered_eq := by simp [h.delivered_eq]
        calls_eq := by simp [hcalls, closing]
        spectra_eq := by
          simp [h.spectra_eq, Spectrum.feedAll, Spectrum.feed] }⟩
  | flush at_ =>
      have hone : s.calls .deliver = [.flush] := by simp [calls, at_]
      rw [hone]
      simp only [closing, at_, List.append_nil] at hcalls
      rw [at_] at hpassed
      exact ⟨k, { h with
        passed_eq := hpassed
        calls_eq := by simp [hcalls, closing]
        spectra_eq := by
          simp [h.spectra_eq, Spectrum.feedAll, Spectrum.feed] }⟩

theorem joinTurn (h : Ledger settings source spectra cs k s) (turn : JoinTurn s s') :
    Ledger settings source spectra cs k s' := by
  cases turn <;> exact { h with }

/-- Every turn that leaves the parser working is entered. -/
theorem step (h : Ledger settings source spectra cs k s) (ho : s.Orderly) {t : Turn}
    (hstep : s.step t = some s') (hok : s'.parser ≠ .failed) :
    ∃ k', Ledger settings source spectra (cs ++ s.calls t) k' s' := by
  cases t with
  | produce =>
      simp only [calls, List.append_nil]
      exact h.producerTurn ho (producerTurn_of_produce hstep)
  | parse =>
      simp only [calls, List.append_nil]
      exact h.parserTurn ho (parserTurn_of_parse hstep) hok
  | deliver => exact h.delivererTurn (delivererTurn_of_deliver hstep)
  | join =>
      simp only [calls, List.append_nil]
      exact ⟨k, h.joinTurn (joinTurn_of_joinTurn hstep)⟩
  | raiseStop =>
      simp only [calls, List.append_nil]
      obtain rfl := Option.some.inj hstep
      exact ⟨k, { h with
        dropped := fun hne => ⟨rfl, (h.dropped hne).2⟩
        lost := fun hne => ⟨rfl, (h.lost hne).2⟩
        leaving := fun _ => .inl rfl }⟩
  | closeRaw =>
      simp only [calls, List.append_nil]
      obtain ⟨-, rfl⟩ := eq_of_closeRaw hstep
      exact ⟨k, { h with }⟩

end Ledger

/-! ## Along a run -/

variable {s s' : Session} {cs : List Feed}

theorem Run.orderly (hs : s.Orderly) (h : Run s cs s') : s'.Orderly := by
  induction h with
  | refl => exact hs
  | turn _ hstep ih => exact ih.step hstep

/-- A parser that has failed does nothing more. -/
theorem parser_failed_of_step {t : Turn} (hstep : s.step t = some s') (hs : s.parser = .failed) :
    s'.parser = .failed := by
  cases t with
  | produce => cases producerTurn_of_produce hstep <;> exact hs
  | parse => simp [step, parse, hs] at hstep
  | deliver => cases delivererTurn_of_deliver hstep <;> exact hs
  | join => cases joinTurn_of_joinTurn hstep <;> exact hs
  | raiseStop => exact Option.some.inj hstep ▸ hs
  | closeRaw => exact (eq_of_closeRaw hstep).2 ▸ hs

/-- No turn makes the producer or the deliverer fail. -/
theorem not_failed_of_step {t : Turn} (hstep : s.step t = some s')
    (hs : s.producer ≠ .failed ∧ s.deliverer ≠ .failed) :
    s'.producer ≠ .failed ∧ s'.deliverer ≠ .failed := by
  cases t with
  | produce => cases producerTurn_of_produce hstep <;> exact ⟨nofun, hs.2⟩
  | parse => cases parserTurn_of_parse hstep <;> exact hs
  | deliver => cases delivererTurn_of_deliver hstep <;> exact ⟨hs.1, nofun⟩
  | join => cases joinTurn_of_joinTurn hstep <;> exact hs
  | raiseStop => exact Option.some.inj hstep ▸ hs
  | closeRaw => exact (eq_of_closeRaw hstep).2 ▸ hs

theorem Run.not_failed (hs : s.producer ≠ .failed ∧ s.deliverer ≠ .failed) (h : Run s cs s') :
    s'.producer ≠ .failed ∧ s'.deliverer ≠ .failed := by
  induction h with
  | refl => exact hs
  | turn _ hstep ih => exact not_failed_of_step hstep ih

variable {settings : Settings} {sizing : Sizing} {source : List Spill} {spectra : List Spectrum}

/-- The ledger is right after every run in which the parser has not failed. -/
theorem Run.ledger (hstart : start settings sizing source spectra = .ok s) (h : Run s cs s')
    (hok : s'.parser ≠ .failed) : ∃ k, Ledger settings source spectra cs k s' := by
  induction h with
  | refl => exact ⟨_, Ledger.of_start hstart⟩
  | turn hrun hstep ih =>
      obtain ⟨k, hledger⟩ := ih fun hfailed => hok (parser_failed_of_step hstep hfailed)
      exact hledger.step (hrun.orderly (Orderly.of_start hstart)) hstep hok

/-! ## The sequential reading -/

/-- What a session comes to that takes the spills of a source one after the
other: those it delivers are the first ones, each decoded once and pushed once,
and a flush ends the calls. -/
structure Sequential (settings : Settings) (source : List Spill) (spectra : List Spectrum)
    (cs : List Feed) (s : Session) : Prop where
  /-- What was queued was delivered or dropped. -/
  produced_eq : s.produced = s.delivered + s.discarded
  /-- No more is delivered than the source gives. -/
  delivered_le : s.delivered ≤ source.length
  /-- The delivered spills were decoded. -/
  decoded : ∀ spill ∈ source.take s.delivered,
    settings.decodeSpill? spill = some (settings.decodeSpill spill)
  /-- Every spectrum was given the delivered spills in order, and flushed. -/
  calls_eq : cs = (source.take s.delivered).map (fun spill => .push (settings.decodeSpill spill)) ++
    [.flush]
  /-- That is what the spectra show. -/
  spectra_eq : s.spectra = spectra.map (·.feedAll cs)
  /-- The hits are those of the delivered spills. -/
  hits_eq : s.hits =
    ((source.take s.delivered).flatMap fun spill => (settings.decode spill.raw).hits).length
  /-- Without a stop everything was delivered. -/
  unstopped : s.stopping = false → s.discarded = 0 ∧ s.delivered = source.length
  /-- The totals are reported. -/
  summary_eq : s.summary = .ok ⟨s.produced, s.discarded, s.delivered, s.hits, s.stopping⟩

theorem Ledger.sequential {k : Course} (h : Ledger settings source spectra cs k s) (ho : s.Orderly)
    (hproducer : s.producer = .ended) (hparser : s.parser = .ended)
    (hdeliverer : s.deliverer = .ended) : s.Sequential settings source spectra cs := by
  have hraw := (ho.raw_empty (by rw [hparser]; rfl)).2
  have hdecoded := (ho.decoded_empty (by rw [hdeliverer]; rfl)).2
  have hsource : source = k.passed ++ (k.dropped ++ (k.lost ++ s.source)) := by
    have hsource := h.source_eq
    rw [hproducer, hparser, hraw] at hsource
    simpa [ParserState.unread, ProducerState.held] using hsource
  have hpushed : k.passed.map settings.decodeSpill = k.pushed := by
    have hpassed := h.passed_eq
    rw [hdeliverer, hdecoded, hparser] at hpassed
    simpa [ParserState.ready, DelivererState.held] using hpassed
  have hdelivered : s.delivered = k.passed.length := by
    rw [h.delivered_eq, ← hpushed, List.length_map]
  have htake : source.take s.delivered = k.passed := by
    rw [hdelivered, hsource, List.take_left]
  exact {
    produced_eq := by
      have hproduced := h.produced_eq
      rw [hparser, hraw] at hproduced
      rw [hproduced, hdelivered, h.discarded_eq]
      rfl
    delivered_le := by
      rw [hdelivered, hsource, List.length_append]
      exact Nat.le_add_right _ _
    decoded := by
      rw [htake]
      exact h.decoded
    calls_eq := by
      have hcalls := h.calls_eq
      rw [← hpushed, List.map_map] at hcalls
      simp only [closing, hdeliverer] at hcalls
      rw [htake, hcalls]
      rfl
    spectra_eq := h.spectra_eq
    hits_eq := by rw [htake, h.hits_eq]
    unstopped := by
      intro hrunning
      have hdropped := h.dropped_eq_nil (.inl hrunning)
      have hlost := h.lost_eq_nil (.inl hrunning)
      have hdry : s.source = [] := by
        rcases h.leaving (by rw [hproducer]; rfl) with hstop | hdry
        · exact absurd hstop (by simp [hrunning])
        · exact hdry
      rw [hdropped, hlost, hdry] at hsource
      rw [h.discarded_eq, hdropped, hdelivered, hsource]
      simp
    summary_eq := by simp [summary, hproducer, hparser, hdeliverer] }

/-- A session equals its sequential reading, in whatever order the parties take
their turns and whenever a stop is asked for: unless all three workers are over
one of them can move, and once they are, what was done is what taking the spills
one after the other comes to.  A parser that meets hits there is no room for
fails, and then nothing is said. -/
theorem run_sequential (hstart : start settings sizing source spectra = .ok s) (h : Run s cs s')
    (hok : s'.parser ≠ .failed) :
    ((∀ w, s'.isOver w = true) ∨ ∃ t ∈ [Turn.produce, .parse, .deliver], (s'.step t).isSome) ∧
      ((∀ w, s'.isOver w = true) → s'.Sequential settings source spectra cs) := by
  have horderly := h.orderly (Orderly.of_start hstart)
  have hfresh : s.producer ≠ .failed ∧ s.deliverer ≠ .failed := by
    obtain rfl := eq_of_start hstart
    exact ⟨nofun, nofun⟩
  obtain ⟨hproducer, hdeliverer⟩ := h.not_failed hfresh
  refine ⟨horderly.exists_step hproducer hok hdeliverer, fun hover => ?_⟩
  obtain ⟨k, hledger⟩ := h.ledger hstart hok
  exact hledger.sequential horderly (Orderly.producer_eq_ended (hover .producer) hproducer)
    (Orderly.parser_eq_ended (hover .parser) hok)
    (Orderly.deliverer_eq_ended (hover .deliverer) hdeliverer)

/-- A spill of one record, whose hit on channel 0 has the given energy. -/
def oneHit (energy : UInt16) : Spill :=
  .ofRaw (Word.toBytes [11, 0, 0x0103, 0, 0, 0, 0x0101, 0, 0x0100, 0x100, energy]) 1

/-- The first spill of the session below, decoded. -/
def firstHit : Spill := Settings.decodeSpill {} (oneHit 0x5000)

/-- A session of two spills and a spectrum, on queues for one spill. -/
def twoSpills (spectrum : Spectrum) : Session where
  settings := {}
  source := [oneHit 0x5000, oneHit 0x7000]
  raw := .ofCapacity 1
  decoded := .ofCapacity 1
  spectra := [spectrum]

/-- Its end when a stop is asked for between the two. -/
def twoSpillsStopped (spectrum : Spectrum) : Session :=
  { twoSpills (spectrum.push firstHit).flush with
    source := []
    producer := .ended
    produced := 2
    raw := (Queue.ofCapacity 1).close
    parser := .ended
    discarded := 1
    hits := 1
    decoded := (Queue.ofCapacity 1).close
    deliverer := .ended
    delivered := 1
    stopping := true }

/-- The first of the two is about to be decoded. -/
def twoSpillsTaken (spectrum : Spectrum) : Session :=
  { twoSpills spectrum with
    source := [oneHit 0x7000]
    produced := 1
    parser := .checking (oneHit 0x5000) }

theorem run_twoSpills (spectrum : Spectrum) :
    Run (twoSpills spectrum) [.push firstHit, .flush] (twoSpillsStopped spectrum) := by
  have hdecode : Settings.decodeSpill? {} (oneHit 0x5000) = some firstHit :=
    Settings.decodeSpill?_of_fits rfl _
  have hhits : 0 + (firstHit.hits.length - (oneHit 0x5000).hits.length) = 1 := by decide +kernel
  have htaken : Run (twoSpills spectrum) [] (twoSpillsTaken spectrum) :=
    run_of_play (show (twoSpills spectrum).play [.produce, .produce, .produce, .parse] = _ from rfl)
  have hstep : (twoSpillsTaken spectrum).step .parse =
      some { twoSpillsTaken spectrum with parser := .sending firstHit, hits := 1 } := by
    rw [step, parse]
    simp only [twoSpillsTaken, twoSpills, hdecode, hhits]
    rfl
  have hstopped : Run { twoSpillsTaken spectrum with parser := .sending firstHit, hits := 1 }
      [.push firstHit, .flush] (twoSpillsStopped spectrum) :=
    run_of_play (show play _ [.parse, .produce, .produce, .produce, .parse, .raiseStop, .parse,
      .closeRaw, .produce, .produce, .parse, .parse, .deliver, .deliver, .deliver, .deliver] = _
      from rfl)
  exact (Run.turn htaken hstep).append hstopped

/-- One axis of 16 bins, on channel 0. -/
def lineSetup : Metadata := { dimensions := 1, bits := 4, add := .ofChannels [0] }

theorem run_sequential_twoSpills :
    ∃ spectrum, Spectrum.setUp .one lineSetup = .ok spectrum ∧
      start {} { queueDepth := 1 } [oneHit 0x5000, oneHit 0x7000] [spectrum] =
        .ok (twoSpills spectrum) ∧
      (twoSpillsStopped spectrum).parser ≠ .failed ∧
      (twoSpillsStopped spectrum).Sequential {} [oneHit 0x5000, oneHit 0x7000] [spectrum]
        [.push firstHit, .flush] ∧
      firstHit.hits.map (fun h => (h.source, h.time.ticks, (h.value 0).raw)) =
        [(0, 0x100, 0x5000)] ∧
      (twoSpillsStopped spectrum).spectra.map (fun s => (s.counts.entries, s.metadata.total)) =
        [([([5], 1)], 1)] := by
  obtain ⟨spectrum, set_up⟩ : ∃ s, Spectrum.setUp .one lineSetup = .ok s := ⟨_, rfl⟩
  have hstart : start {} { queueDepth := 1 } [oneHit 0x5000, oneHit 0x7000] [spectrum] =
      .ok (twoSpills spectrum) := rfl
  have hover : ∀ w, (twoSpillsStopped spectrum).isOver w = true := by
    intro w
    cases w <;> rfl
  have sequential := (run_sequential hstart (run_twoSpills spectrum) nofun).2 hover
  refine ⟨spectrum, set_up, hstart, nofun, sequential, ?_, ?_⟩
  · decide +kernel
  · rw [sequential.spectra_eq]
    obtain rfl := Except.ok.inj set_up
    decide +kernel

end ListMode.Session
