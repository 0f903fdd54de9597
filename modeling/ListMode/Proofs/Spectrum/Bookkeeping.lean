import ListMode.Proofs.Export.Dense
import ListMode.Proofs.Spectrum.HitConservation
import ListMode.Proofs.Spectrum.Storage

/-!
# Totals agree with the counts

A spectrum keeps its total and its largest number beside its counts, and every
operation changes the three in its own way: by one event or one entry more, anew
from a text or a file, or back to none.  `Spectrum.books_agree` says that after any
operations the total is the sum of the stored counts and no stored cell lies past
the largest number.

The invariant is `Tally.Balanced`.  Raising a cell keeps it when there is room for
the count in 64 bits (`Tally.Balanced.raise`), so a total is as good as its
spectrum's past: `Spectrum.posted` is what an operation adds or loads, and one
operation raises the total by no more than that (`Spectrum.apply_balanced`).
-/

namespace ListMode

open Coincidence (Builder Event)

/-! ## Tallies -/

/-- The event is counted in some cell. -/
def Metadata.tallies (m : Metadata) (axes : Axes) (e : Event) : Bool := (m.cellFor? axes e).isSome

namespace Tally

/-- The totals agree with the counts. -/
structure Balanced (t : Tally) : Prop where
  total : t.total = t.counts.sum
  within : t.counts.Within t.maxBin

/-- The tally with `n` more in a cell. -/
def raise (buffered : Bool) (t : Tally) (coords : List Bin) (n : Nat) : Tally :=
  ⟨t.counts.bump buffered n coords, t.total + n, coords.foldl max t.maxBin⟩

theorem Balanced.raise {t : Tally} (h : t.Balanced) (buffered : Bool) {coords : List Bin}
    (arity : coords.length = t.counts.axes.dimensions) {n : Nat} (room : t.total + n ≤ countLimit) :
    (t.raise buffered coords n).Balanced where
  total := by
    rw [h.total] at room
    rw [Tally.raise, Counts.sum_bump room arity, h.total]
  within := h.within.bump buffered n coords

theorem Balanced.count {m : Metadata} {t : Tally} (h : t.Balanced) {e : Event}
    (room : t.total + (if m.tallies t.counts.axes e then 1 else 0) ≤ countLimit) :
    (t.count m e).Balanced ∧
      (t.count m e).total = t.total + if m.tallies t.counts.axes e then 1 else 0 := by
  rw [Metadata.tallies] at room ⊢
  rw [Tally.count]
  cases hc : m.cellFor? t.counts.axes e with
  | none => exact ⟨h, rfl⟩
  | some coords =>
      rw [hc] at room
      exact ⟨h.raise m.buffered (Metadata.length_of_cellFor? hc) room, rfl⟩

/-- Counting events keeps the balance, and raises the total by those that have a cell. -/
theorem Balanced.countAll {m : Metadata} {t : Tally} (h : t.Balanced) {es : List Event}
    (room : t.total + es.countP (m.tallies t.counts.axes) ≤ countLimit) :
    (t.countAll m es).Balanced ∧
      (t.countAll m es).total = t.total + es.countP (m.tallies t.counts.axes) := by
  induction es generalizing t with
  | nil => exact ⟨h, rfl⟩
  | cons e es ih =>
      have step : t.countAll m (e :: es) = (t.count m e).countAll m es := rfl
      have axes := axes_count m t e
      rw [List.countP_cons] at room
      obtain ⟨first, total⟩ := h.count (m := m) (e := e) (by omega)
      obtain ⟨rest, sum⟩ := ih first (by rw [axes, total]; omega)
      refine ⟨rest, ?_⟩
      rw [step, sum, axes, total, List.countP_cons]
      omega

end Tally

namespace Spectrum

/-! ## Operations -/

/-- An operation that may change a spectrum.  Setting up keeps the axes; feeding is a
push or a flush. -/
inductive Operation where
  | setUp (m : Metadata)
  | feed (call : Feed)
  | append (coords : List Bin) (n : Nat)
  | reset
  | readText (text : List Char)
  | load (fileName format : String) (contents : Except FolderFault ByteArray)
  | readRange (bounds : List BinRange)
  | checkSymmetry
  | setDetectors (ds : List Detector)
  | clearChanged

/-- The spectrum after an operation.  One that fails leaves it as it was. -/
def apply (s : Spectrum) : Operation → Spectrum
  | .setUp m => (setUp s.axes m).toOption.getD s
  | .feed call => s.feed call
  | .append coords n => s.append coords n
  | .reset => s.reset
  | .readText text => (s.readText text).toOption.getD s
  | .load fileName format contents => (s.load fileName format contents).toOption.join.getD s
  | .readRange bounds => (s.readRange bounds).2
  | .checkSymmetry => s.checkSymmetry.2
  | .setDetectors ds => s.setDetectors ds
  | .clearChanged => s.clearChanged

/-- The spectrum after operations. -/
def applyAll (s : Spectrum) (ops : List Operation) : Spectrum := ops.foldl apply s

/-! ## What operations post -/

/-- The events that a call closes; a spectrum that is not set up takes no spill. -/
def closes (s : Spectrum) : Feed → List Event
  | .push spill =>
      if s.ready then (s.builder.feed (takes s.metadata) (.push spill)).2 else []
  | .flush => s.builder.flush.2

/-- The counts that an operation adds or loads. -/
def posted (s : Spectrum) : Operation → Nat
  | .feed call => (s.closes call).countP (s.metadata.tallies s.axes)
  | .append coords n => if coords.length = s.axes.dimensions then n else 0
  | .readText text =>
      match s.readText text with
      | .ok read => read.counts.sum
      | .error _ => 0
  | .load fileName format contents =>
      match s.load fileName format contents with
      | .ok (some read) => read.counts.sum
      | _ => 0
  | _ => 0

/-- The counts that operations add or load. -/
def postedBy (s : Spectrum) : List Operation → Nat
  | [] => 0
  | op :: ops => s.posted op + (s.apply op).postedBy ops

/-! ## One operation -/

/-- The totals of a spectrum agree with its counts. -/
abbrev Balanced (s : Spectrum) : Prop := s.tally.Balanced

theorem closes_counted (s : Spectrum) (call : Feed) :
    ∃ b, Counted s b (s.closes call) (s.feed call) := by
  cases call with
  | flush => exact ⟨_, flush_counted s⟩
  | push spill =>
      cases hs : s.ready with
      | true =>
          rw [closes, hs, if_pos rfl]
          exact ⟨_, feed_counted hs (.push spill)⟩
      | false =>
          have ignored : s.feed (.push spill) = s := by simp [feed, push, hs]
          rw [closes, hs, ignored]
          exact ⟨_, rfl, rfl, rfl, rfl⟩

theorem Balanced.feed {s : Spectrum} (h : s.Balanced) {call : Feed}
    (room : s.metadata.total + s.posted (.feed call) ≤ countLimit) :
    (s.feed call).Balanced ∧
      (s.feed call).metadata.total = s.metadata.total + s.posted (.feed call) := by
  obtain ⟨b, counted⟩ := closes_counted s call
  obtain ⟨balanced, total⟩ := Tally.Balanced.countAll (m := s.metadata.setup) h room
  rw [← counted.tally] at balanced total
  exact ⟨balanced, total⟩

theorem Balanced.append {s : Spectrum} (h : s.Balanced) {coords : List Bin} {n : Nat}
    (room : s.metadata.total + s.posted (.append coords n) ≤ countLimit) :
    (s.append coords n).Balanced ∧
      (s.append coords n).metadata.total ≤ s.metadata.total + s.posted (.append coords n) := by
  rw [Spectrum.append]
  split
  · next named =>
      have posted : s.posted (.append coords n) = n := if_pos named.1
      rw [posted] at room ⊢
      exact ⟨Tally.Balanced.raise h s.metadata.buffered named.1 room, Nat.le_refl _⟩
  · exact ⟨h, Nat.le_add_right _ _⟩

/-- No counts and no total agree. -/
theorem balanced_zero {s : Spectrum} {axes : Axes} (counts : s.counts = .zero axes)
    (total : s.metadata.total = 0) : s.Balanced where
  total := by
    show s.metadata.total = s.counts.sum
    rw [counts, total, Counts.sum_zero]
  within := by
    show s.counts.Within s.metadata.maxBin
    rw [counts]
    exact Counts.within_zero axes _

theorem readText_balanced {s t : Spectrum} {text : List Char} (h : s.readText text = .ok t)
    (room : t.counts.sum ≤ countLimit) : t.Balanced ∧ t.metadata.total = t.counts.sum := by
  unfold readText at h
  split at h
  · cases h
  · next counts maxBin htext =>
      cases h
      have total : counts.total = counts.sum := by
        rw [Counts.total_eq]
        exact Nat.min_eq_left room
      exact ⟨⟨total, Counts.within_ofText htext⟩, total⟩

/-- What a file is read as: with one axis a listing, with two a grid. -/
theorem load_eq_ok {s t : Spectrum} {fileName format : String}
    {contents : Except FolderFault ByteArray} (h : s.load fileName format contents = .ok (some t)) :
    (∃ bytes l, s.axes = .one ∧ Listing.read bytes = .ok l ∧
        t = replaced (.line l.cells) (listingMetadata s.metadata fileName l)) ∨
      ∃ bytes width cells side, s.axes = .two ∧ Dense.read bytes width = .ok (cells, side) ∧
        t = replaced (.plane cells ∅) (gridMetadata s.metadata fileName cells side) := by
  unfold load at h
  split at h
  · next hone _ =>
      split at h
      · cases h
      · split at h
        · cases h
        · cases h
        · next hread =>
            cases h
            exact .inl ⟨_, _, hone, hread, rfl⟩
  · next htwo _ =>
      split at h
      · cases h
      · split at h
        · cases h
        · next hread =>
            cases h
            exact .inr ⟨_, _, _, _, htwo, hread, rfl⟩
  · cases h

theorem load_balanced {s t : Spectrum} {fileName format : String}
    {contents : Except FolderFault ByteArray} (h : s.load fileName format contents = .ok (some t)) :
    t.Balanced ∧ t.metadata.total = t.counts.sum := by
  rcases load_eq_ok h with ⟨_, l, -, hread, rfl⟩ | ⟨_, _, cells, side, -, hread, rfl⟩
  · have total := (Counts.sum_line l.cells).symm
    exact ⟨⟨total, Listing.within_read hread⟩, total⟩
  · have total := (Counts.sum_plane cells ∅).symm
    exact ⟨⟨total, Dense.within_read hread⟩, total⟩

/-- The operation sets up with no total. -/
def Operation.Fresh (op : Operation) : Prop := ∀ m, op = .setUp m → m.total = 0

theorem setUp_balanced {axes : Axes} {m : Metadata} {s : Spectrum} (h : setUp axes m = .ok s)
    (fresh : m.total = 0) : s.Balanced ∧ s.metadata.total = 0 := by
  obtain ⟨-, rfl⟩ := setUp_eq_ok h
  exact ⟨balanced_zero rfl fresh, fresh⟩

/-- An operation keeps the balance, and raises the total by no more than it posts. -/
theorem apply_balanced {s : Spectrum} (h : s.Balanced) {op : Operation} (fresh : op.Fresh)
    (room : s.metadata.total + s.posted op ≤ countLimit) :
    (s.apply op).Balanced ∧ (s.apply op).metadata.total ≤ s.metadata.total + s.posted op := by
  have kept : s.Balanced ∧ s.metadata.total ≤ s.metadata.total + s.posted op :=
    ⟨h, Nat.le_add_right _ _⟩
  cases op with
  | setUp m =>
      cases hset : setUp s.axes m with
      | error fault =>
          rw [apply, hset]
          exact kept
      | ok t =>
          rw [apply, hset]
          obtain ⟨balanced, total⟩ := setUp_balanced hset (fresh m rfl)
          exact ⟨balanced, total ▸ Nat.zero_le _⟩
  | feed call =>
      obtain ⟨balanced, total⟩ := h.feed room
      exact ⟨balanced, Nat.le_of_eq total⟩
  | append coords n => exact h.append room
  | reset => exact ⟨balanced_zero rfl rfl, Nat.zero_le _⟩
  | readText text =>
      cases hread : s.readText text with
      | error fault =>
          rw [apply, hread]
          exact kept
      | ok t =>
          rw [apply, hread]
          simp only [posted, hread] at room ⊢
          obtain ⟨balanced, total⟩ := readText_balanced hread (by omega)
          exact ⟨balanced, by rw [← total]; exact Nat.le_add_left _ _⟩
  | load fileName format contents =>
      rcases hload : s.load fileName format contents with fault | _ | t
      · rw [apply, hload]
        exact kept
      · rw [apply, hload]
        exact kept
      · rw [apply, hload]
        simp only [posted, hload]
        obtain ⟨balanced, total⟩ := load_balanced hload
        exact ⟨balanced, by rw [← total]; exact Nat.le_add_left _ _⟩
  | readRange bounds =>
      rw [apply, readRange]
      split
      · have total : s.counts.forgetTouched.sum = s.counts.sum := Counts.sum_forgetTouched _
        exact ⟨⟨h.total.trans total.symm, h.within.forgetTouched⟩, kept.2⟩
      · exact kept
  | checkSymmetry =>
      rw [apply, checkSymmetry]
      split
      · exact kept
      · exact kept
  | setDetectors ds => exact kept
  | clearChanged => exact kept

/-! ## All operations -/

theorem applyAll_balanced {s : Spectrum} (h : s.Balanced) {ops : List Operation}
    (fresh : ∀ op ∈ ops, op.Fresh) (room : s.metadata.total + s.postedBy ops ≤ countLimit) :
    (s.applyAll ops).Balanced := by
  induction ops generalizing s with
  | nil => exact h
  | cons op ops ih =>
      rw [List.forall_mem_cons] at fresh
      rw [postedBy] at room
      obtain ⟨first, total⟩ := apply_balanced h fresh.1 (by omega)
      exact ih first fresh.2 (by omega)

/-- However a spectrum without a total was changed, its total is the sum of its
counts, and no stored cell lies past its largest number, as long as what was ever
added or loaded fits 64 bits. -/
theorem books_agree {axes : Axes} {s : Spectrum}
    (start : s = blank axes ∨ ∃ m, m.total = 0 ∧ setUp axes m = .ok s) (ops : List Operation)
    (fresh : ∀ m, .setUp m ∈ ops → m.total = 0) (fits : s.postedBy ops < 2 ^ 64) :
    let t := s.applyAll ops
    t.metadata.total = (t.counts.entries.map Prod.snd).sum ∧
      ∀ e ∈ t.counts.entries, ∀ b ∈ e.1, b ≤ t.metadata.maxBin := by
  have opening : s.Balanced ∧ s.metadata.total = 0 := by
    rcases start with rfl | ⟨m, fresh, set_up⟩
    · exact ⟨balanced_zero rfl rfl, rfl⟩
    · exact setUp_balanced set_up fresh
  obtain ⟨balanced, none⟩ := opening
  have room : s.metadata.total + s.postedBy ops ≤ countLimit := by
    rw [none, countLimit, UInt64.size]
    omega
  obtain ⟨total, within⟩ := applyAll_balanced balanced (fun op hop m hm => fresh m (hm ▸ hop)) room
  exact ⟨total, within⟩

/-- A setup, a coincidence, a stop that closes a late hit, counts added by hand, a
text that is no text of counts and one that is, and a file that is not there. -/
def planeOperations : List Operation :=
  [.setUp planeSetup,
    .feed (.push { hits := [strike 0 100 0x1234, strike 1 105 0x3000, strike 1 400 0x1200] }),
    .feed (.push { hits := [], stats := [{ phase := .stop, source := 1 }] }),
    .append [3, 200] 7,
    .readText "+ 1 x".toList,
    .checkSymmetry,
    .readText "+ 1 0 2 5 6".toList,
    .load "gg.m4b" "m4b" (.error .notFound),
    .append [0, 9] 4,
    .readRange []]

theorem books_agree_plane :
    (blank .two).postedBy planeOperations = 24 ∧
      (∀ m, .setUp m ∈ planeOperations → m.total = 0) ∧
      let t := (blank .two).applyAll planeOperations
      t.metadata.total = (t.counts.entries.map Prod.snd).sum ∧
        ∀ e ∈ t.counts.entries, ∀ b ∈ e.1, b ≤ t.metadata.maxBin := by
  have fresh : ∀ m, .setUp m ∈ planeOperations → m.total = 0 := by
    simp [planeOperations, planeSetup]
  have posted : (blank .two).postedBy planeOperations = 24 := by decide +kernel
  refine ⟨posted, fresh, ?_⟩
  exact books_agree (.inl rfl) planeOperations fresh (by rw [posted]; decide)

end Spectrum

end ListMode
