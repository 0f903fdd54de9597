import ListMode.Proofs.Spectrum.Bookkeeping
import ListMode.Spectrum.Edit

/-!
# Requests that are refused

An edit replaces one part of a spectrum after the other, and a fault in between would
leave a spectrum that is half the old one and half the new.  No edit gets there: each
reads and checks all that it was given before it replaces anything, and so leaves what
the operation on whole spectra gives, or the spectrum as it was (`Edit.on_setUp`,
`Edit.on_readText`, `Edit.on_load`).

A spectrum in use answers requests one after the other, and is after each what the
operation on whole spectra gives (`Spectrum.snd_answer_change`).  A request that it
refuses, with a fault or because the format is not read, does not show in any answer
after it (`Spectrum.refused_request_unnoticed`).
-/

namespace ListMode

namespace Edit

variable {α β : Type}

/-! ## Steps -/

theorem on_bind (e : Edit α) (next : α → Edit β) (s : Spectrum) :
    (e >>= next).on s = match e.on s with
      | (.ok a, t) => (next a).on t
      | (.error fault, t) => (.error fault, t) := by
  have run : (e >>= next).on s = match e.on s with
      | (r, t) => (ExceptT.bindCont (m := StateM Spectrum) next r).run t := rfl
  rw [run]
  rcases e.on s with ⟨fault | a, t⟩
  · rfl
  · rfl

/-- A step that gives a result is followed by the next one. -/
theorem on_bind_ok {e : Edit α} {s t : Spectrum} {a : α} (h : e.on s = (.ok a, t))
    (next : α → Edit β) : (e >>= next).on s = (next a).on t := by
  rw [on_bind, h]

/-- A fault is the end. -/
theorem on_bind_error {e : Edit α} {s t : Spectrum} {fault : SpectrumFault}
    (h : e.on s = (.error fault, t)) (next : α → Edit β) :
    (e >>= next).on s = (.error fault, t) := by
  rw [on_bind, h]

theorem on_map (f : α → β) (e : Edit α) (s : Spectrum) :
    (f <$> e).on s = match e.on s with
      | (.ok a, t) => (.ok (f a), t)
      | (.error fault, t) => (.error fault, t) := by
  rw [map_eq_pure_bind, on_bind]
  rfl

variable {ε : Type} {s : Spectrum} {fault : ε → SpectrumFault}

theorem on_get : (get : Edit Spectrum).on s = (.ok s, s) := rfl

theorem on_check_some {found : SpectrumFault} : (check (some found)).on s = (.error found, s) := rfl

theorem on_check_none : (check none).on s = (.ok (), s) := rfl

theorem on_orFault_ok {a : α} : (orFault fault (.ok a)).on s = (.ok a, s) := rfl

theorem on_orFault_error {e : ε} :
    (orFault fault (.error e) : Edit α).on s = (.error (fault e), s) :=
  rfl

/-! ## Edits -/

/-- Setting up in place leaves the spectrum that is set up, or the one there was. -/
theorem on_setUp (m : Metadata) (s : Spectrum) :
    (setUp m).on s = match Spectrum.setUp s.axes m with
      | .ok t => (.ok (), t)
      | .error fault => (.error fault, s) := by
  rw [setUp, on_bind_ok on_get, Spectrum.setUp]
  dsimp only
  cases Spectrum.setupFault? s.axes m with
  | some fault => exact on_bind_error on_check_some _
  | none => exact on_bind_ok on_check_none _

theorem on_readCounts (text : List Char) (s : Spectrum) :
    (readCounts text).on s = match Counts.ofText s.axes text with
      | .ok (counts, maxBin) => (.ok maxBin, { s with counts })
      | .error fault => (.error (.token fault), s) := by
  rw [readCounts, on_bind_ok on_get]
  cases Counts.ofText s.axes text with
  | error fault => exact on_bind_error on_orFault_error _
  | ok read => exact on_bind_ok on_orFault_ok _

/-- Reading a text in place leaves the spectrum with its counts, or the one there was. -/
theorem on_readText (text : List Char) (s : Spectrum) :
    (readText text).on s = match s.readText text with
      | .ok t => (.ok t.metadata.maxBin, t)
      | .error fault => (.error fault, s) := by
  have counts := on_readCounts text s
  rw [readText, Spectrum.readText]
  cases hread : Counts.ofText s.axes text with
  | error fault =>
      rw [hread] at counts
      exact on_bind_error counts _
  | ok read =>
      rw [hread] at counts
      exact on_bind_ok counts _

theorem on_readListing (draft : Metadata) (fileName : String) (bytes : ByteArray) (s : Spectrum) :
    (readListing draft fileName (.ok bytes)).on s = match Listing.read bytes.data.toList with
      | .ok l =>
        (.ok (Spectrum.listingMetadata draft fileName l), { s with counts := .line l.cells })
      | .error fault => (.error fault.onSpectrum, s) := by
  rw [readListing, on_bind_ok on_orFault_ok]
  cases Listing.read bytes.data.toList with
  | error fault => exact on_bind_error on_orFault_error _
  | ok l => exact on_bind_ok on_orFault_ok _

theorem on_readGrid (draft : Metadata) (fileName : String) (width : CellWidth) (bytes : ByteArray)
    (s : Spectrum) :
    (readGrid draft fileName width (.ok bytes)).on s = match Dense.read bytes width with
      | .ok (cells, side) =>
        (.ok (Spectrum.gridMetadata draft fileName cells side), { s with counts := .plane cells ∅ })
      | .error fault => (.error (.grid fault), s) := by
  rw [readGrid, on_bind_ok on_orFault_ok]
  cases Dense.read bytes width with
  | error fault => exact on_bind_error on_orFault_error _
  | ok read => exact on_bind_ok on_orFault_ok _

/-- A file that cannot be read replaces nothing. -/
theorem on_readFile (fileName format : String) (contents : Except FolderFault ByteArray)
    (s : Spectrum) :
    (readFile s.metadata fileName format contents).on s =
      match s.load fileName format contents with
      | .ok (some t) => (.ok (some t.metadata), { s with counts := t.counts })
      | .ok none => (.ok none, s)
      | .error fault => (.error fault, s) := by
  unfold readFile Spectrum.load
  rw [on_bind_ok on_get]
  cases haxes : s.axes with
  | one =>
      cases hformat : FileFormat.ofName? format with
      | none => rfl
      | some known =>
          cases known with
          | script => rfl
          | grid width => rfl
          | listing =>
              cases contents with
              | error fault => rfl
              | ok bytes =>
                  dsimp only
                  rw [on_map, on_readListing]
                  rcases Listing.read bytes.data.toList with (fault | _) | l
                  · rfl
                  · rfl
                  · rfl
  | two =>
      cases hformat : FileFormat.ofName? format with
      | none => rfl
      | some known =>
          cases known with
          | script => rfl
          | listing => rfl
          | grid width =>
              cases contents with
              | error fault => rfl
              | ok bytes =>
                  dsimp only
                  rw [on_map, on_readGrid]
                  cases Dense.read bytes width with
                  | error fault => rfl
                  | ok read => rfl

/-- Reading a file in place leaves the spectrum that is read, or the one there was. -/
theorem on_load (fileName format : String) (contents : Except FolderFault ByteArray)
    (s : Spectrum) :
    (load fileName format contents).on s = match s.load fileName format contents with
      | .ok (some t) => (.ok true, t)
      | .ok none => (.ok false, s)
      | .error fault => (.error fault, s) := by
  have file := on_readFile fileName format contents s
  rw [load, on_bind_ok on_get]
  rcases hload : s.load fileName format contents with fault | _ | t
  · rw [hload] at file
    exact on_bind_error file _
  · rw [hload] at file
    exact on_bind_ok file _
  · rw [hload] at file
    refine (on_bind_ok file _).trans ?_
    -- what is left to do is to put the draft in place
    rcases Spectrum.load_eq_ok hload with ⟨_, _, -, -, rfl⟩ | ⟨_, _, _, _, -, -, rfl⟩
    · rfl
    · rfl

end Edit

namespace Spectrum

/-! ## Requests -/

/-- What a spectrum is asked for without changing it. -/
inductive Query where
  | count (coords : List Bin)
  | metadata
  | text
  | axisValues (dimension : Nat)
  | summary
  | write (f : Folder) (dir : FolderPath) (format : String)

/-- A request to a spectrum in use. -/
inductive Request where
  | change (op : Operation)
  | ask (query : Query)

/-- The answer to a request. -/
inductive Answer where
  | done
  | fault (fault : SpectrumFault)
  | read (known : Bool)
  | largest (m : Bin)
  | entries (es : List (List Bin × Nat))
  | symmetry (found : Option Bool)
  | count (n : Nat)
  | metadata (m : Metadata)
  | text (cs : List Char)
  | values (vs : List Float)
  | summary (line : String)
  | written (result : Except FolderFault (Option Folder))

/-- The request was refused: with a fault, or because the format is not read. -/
def Answer.refused : Answer → Bool
  | .fault _ => true
  | .read false => true
  | _ => false

/-- The answer of a spectrum that stays as it is. -/
def reply (s : Spectrum) : Query → Answer
  | .count coords => .count (s.counts.count coords)
  | .metadata => .metadata s.metadata
  | .text => .text s.counts.toText
  | .axisValues dimension => .values (s.axisValues dimension)
  | .summary => .summary s.summary
  | .write f dir format => .written (s.writeFile f dir format)

/-- The answer of an edit, and the spectrum that the edit leaves. -/
def edited {α : Type} (s : Spectrum) (e : Edit α) (answer : α → Answer) : Answer × Spectrum :=
  match e.on s with
  | (.ok a, t) => (answer a, t)
  | (.error fault, t) => (.fault fault, t)

/-- The answer to a request, and the spectrum after it.  What can be refused is done in
place. -/
def answer (s : Spectrum) : Request → Answer × Spectrum
  | .change (.setUp m) => s.edited (Edit.setUp m) fun _ => .done
  | .change (.readText text) => s.edited (Edit.readText text) .largest
  | .change (.load fileName format contents) =>
      s.edited (Edit.load fileName format contents) .read
  | .change (.readRange bounds) =>
      let (entries, t) := s.readRange bounds
      (.entries entries, t)
  | .change .checkSymmetry =>
      let (found, t) := s.checkSymmetry
      (.symmetry found, t)
  | .change op => (.done, s.apply op)
  | .ask query => (s.reply query, s)

/-- The answers to requests one after the other. -/
def answers (s : Spectrum) : List Request → List Answer
  | [] => []
  | r :: rs => (s.answer r).1 :: (s.answer r).2.answers rs

/-! ## Refusals -/

/-- Changing in place leaves what the operation on whole spectra gives. -/
theorem snd_answer_change (s : Spectrum) (op : Operation) :
    (s.answer (.change op)).2 = s.apply op := by
  cases op with
  | setUp m =>
      rw [answer, edited, Edit.on_setUp, apply]
      cases setUp s.axes m with
      | error fault => rfl
      | ok t => rfl
  | readText text =>
      rw [answer, edited, Edit.on_readText, apply]
      cases s.readText text with
      | error fault => rfl
      | ok t => rfl
  | load fileName format contents =>
      rw [answer, edited, Edit.on_load, apply]
      rcases s.load fileName format contents with fault | _ | t
      · rfl
      · rfl
      · rfl
  | feed call => rfl
  | append coords n => rfl
  | reset => rfl
  | readRange bounds => rfl
  | checkSymmetry => rfl
  | setDetectors ds => rfl
  | clearChanged => rfl

/-- A request that is refused leaves the spectrum as it was. -/
theorem snd_answer_of_refused {s : Spectrum} {r : Request}
    (refused : (s.answer r).1.refused = true) : (s.answer r).2 = s := by
  cases r with
  | ask query => rfl
  | change op =>
      cases op with
      | setUp m =>
          rw [answer, edited, Edit.on_setUp] at refused ⊢
          cases hset : setUp s.axes m with
          | error fault => rfl
          | ok t =>
              rw [hset] at refused
              cases refused
      | readText text =>
          rw [answer, edited, Edit.on_readText] at refused ⊢
          cases hread : s.readText text with
          | error fault => rfl
          | ok t =>
              rw [hread] at refused
              cases refused
      | load fileName format contents =>
          rw [answer, edited, Edit.on_load] at refused ⊢
          rcases hload : s.load fileName format contents with fault | _ | t
          · rfl
          · rfl
          · rw [hload] at refused
            cases refused
      | feed call => cases refused
      | append coords n => cases refused
      | reset => cases refused
      | readRange bounds => cases refused
      | checkSymmetry => cases refused
      | setDetectors ds => cases refused
      | clearChanged => cases refused

/-- A request that a spectrum refuses, a setup, a text or a file, leaves the spectrum as it was,
and all requests after it are answered as if it had not been made. -/
theorem refused_request_unnoticed (s : Spectrum) {r : Request}
    (refused : (s.answer r).1.refused = true) :
    (s.answer r).2 = s ∧
      ∀ later, s.answers (r :: later) = (s.answer r).1 :: s.answers later := by
  have unchanged := snd_answer_of_refused refused
  refine ⟨unchanged, fun later => ?_⟩
  rw [answers, unchanged]

/-- A two-axis spectrum that is read in parts, with an event that is still open. -/
def planeInUse : Spectrum :=
  (blank .two).applyAll
    [.setUp { planeSetup with buffered := true },
      .feed (.push { hits := [strike 0 100 0x1234, strike 1 105 0x3000] })]

theorem refused_request_unnoticed_plane :
    let refusals : List Operation :=
      [.setUp { planeSetup with bits := 17 },
        .readText "+ 1 0 2 5 x".toList,
        .load "g.mat" "mat" (.ok ⟨#[1, 0, 0]⟩),
        .load "g.tka" "tka" (.error .notFound)]
    let later : List Request :=
      [.change (.feed .flush), .ask (.count [0x12, 0x30]), .change (.readRange [])]
    ∀ op ∈ refusals,
      (planeInUse.answer (.change op)).1.refused = true ∧
        (planeInUse.answer (.change op)).2 = planeInUse ∧
        (planeInUse.answers (.change op :: later)).tail =
          [.done, .count 1, .entries [([0x12, 0x30], 1)]] := by
  intro refusals later op hop
  have refused : ∀ op ∈ refusals, (planeInUse.answer (.change op)).1.refused = true := by
    decide +kernel
  obtain ⟨unchanged, unnoticed⟩ := refused_request_unnoticed planeInUse (refused op hop)
  have answered : planeInUse.answers later = [.done, .count 1, .entries [([0x12, 0x30], 1)]] := by
    rfl
  refine ⟨refused op hop, unchanged, ?_⟩
  rw [unnoticed, List.tail_cons, answered]

end Spectrum

end ListMode
