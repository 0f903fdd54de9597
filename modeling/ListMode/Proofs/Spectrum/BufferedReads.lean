import ListMode.Proofs.Spectrum.RangeReads

/-!
# Buffered reads

A buffered read gives the cells that were touched since the one before.  Whatever is done
with a spectrum, these are the cells that were raised and not read since
(`Spectrum.Unread`), with the counts they have when they are read
(`Spectrum.mirrored_applyAll`).  A reader that only reads all bins, and puts what it gets
over what it has, has the stored cells after every read (`Spectrum.displayed_applyAll`).

Both are carried by an invariant of one operation (`Spectrum.Mirrored`,
`Spectrum.Displayed`): touched cells are remembered with the counts they are stored with,
so it makes no difference in how many steps a cell was raised.  A cell is never full when
it is raised, since its count is below a total with room for more.
-/

namespace ListMode

/-! ## Entries over a map -/

/-- A map with entries put over it, later ones over earlier ones. -/
def overlay (shown : List Bin → Option Nat) (es : List (List Bin × Nat)) : List Bin → Option Nat :=
  es.foldl (fun shown e => Function.update shown e.1 (some e.2)) shown

section

variable {shown : List Bin → Option Nat} {es : List (List Bin × Nat)} {coords : List Bin}

theorem overlay_append (shown : List Bin → Option Nat) (es fs : List (List Bin × Nat)) :
    overlay shown (es ++ fs) = overlay (overlay shown es) fs :=
  List.foldl_append

theorem overlay_of_forall_ne (none : ∀ e ∈ es, e.1 ≠ coords) :
    overlay shown es coords = shown coords := by
  induction es generalizing shown with
  | nil => rfl
  | cons e es ih =>
      rw [List.forall_mem_cons] at none
      have step : overlay shown (e :: es) = overlay (Function.update shown e.1 (some e.2)) es := rfl
      rw [step, ih none.2, Function.update_of_ne none.1.symm]

/-- Of entries in ascending order each is seen. -/
theorem overlay_of_mem (ascending : es.Pairwise fun a b => a.1 < b.1) {n : Nat}
    (member : (coords, n) ∈ es) : overlay shown es coords = some n := by
  induction es generalizing shown with
  | nil => cases member
  | cons e es ih =>
      obtain ⟨after, rest⟩ := List.pairwise_cons.1 ascending
      have step : overlay shown (e :: es) = overlay (Function.update shown e.1 (some e.2)) es := rfl
      rw [step]
      rcases List.mem_cons.1 member with rfl | member
      · have none : ∀ f ∈ es, f.1 ≠ coords := fun f hf same => by
          have lt := after f hf
          rw [same] at lt
          exact List.lt_irrefl _ lt
        rw [overlay_of_forall_ne none, Function.update_self]
      · exact ih rest member

end

namespace Counts

variable {c : Counts} {coords : List Bin}

theorem stored?_forgetTouched : c.forgetTouched.stored? coords = c.stored? coords := by
  refine Option.ext fun n => ?_
  rw [← mem_entries, ← mem_entries, entries_forgetTouched]

theorem touchedEntries_forgetTouched (c : Counts) : c.forgetTouched.touchedEntries = [] := by
  cases c with
  | line cells => rfl
  | plane cells touched => rfl

theorem touched?_of_clean (clean : c.touchedEntries = []) : c.touched? coords = none := by
  rw [← Option.not_isSome_iff_eq_none, Option.isSome_iff_exists]
  rintro ⟨n, touched⟩
  rw [← mem_touchedEntries, clean] at touched
  cases touched

theorem count_le_sum (c : Counts) (coords : List Bin) : c.count coords ≤ c.sum := by
  by_cases populated : c.count coords = 0
  · rw [populated]
    exact Nat.zero_le _
  · exact List.single_le_sum (fun _ _ => Nat.zero_le _) _
      (List.mem_map.2 ⟨_, mem_entries_of_count_ne_zero populated, rfl⟩)

end Counts

namespace Spectrum

variable {s t : Spectrum} {op : Operation} {bounds : List BinRange}

/-! ## Cells raised and not read -/

/-- The operation adds counts to a cell. -/
def Raises (s : Spectrum) (op : Operation) (coords : List Bin) : Prop :=
  op.adds = true ∧ s.counts.count coords < (s.apply op).counts.count coords

/-- A cell was raised in a run, and nothing after that was a read or replaced the counts. -/
def Unread (s : Spectrum) (ops : List Operation) (coords : List Bin) : Prop :=
  ∃ before op after, ops = before ++ op :: after ∧ (s.applyAll before).Raises op coords ∧
    ((s.applyAll before).apply op).EachStep (fun s op => ¬ s.Renews op) after

theorem not_unread_nil {coords : List Bin} : ¬ s.Unread [] coords := by
  rintro ⟨before, op, after, split, -⟩
  exact List.append_ne_nil_of_right_ne_nil _ (List.cons_ne_nil _ _) split.symm

/-- The last operation raises the cell, or lets a cell be that was raised before. -/
theorem unread_concat {ops : List Operation} {coords : List Bin} :
    s.Unread (ops ++ [op]) coords ↔
      (s.applyAll ops).Raises op coords ∨ s.Unread ops coords ∧ ¬ (s.applyAll ops).Renews op := by
  constructor
  · rintro ⟨before, first, after, split, raises, keeps⟩
    rcases List.eq_nil_or_concat' after with rfl | ⟨middle, last, rfl⟩
    · obtain ⟨rfl, heq⟩ := List.append_inj' split rfl
      cases heq
      exact .inl raises
    · rw [← List.cons_append, ← List.append_assoc] at split
      obtain ⟨rfl, heq⟩ := List.append_inj' split rfl
      cases heq
      rw [eachStep_concat] at keeps
      refine .inr ⟨⟨before, first, middle, rfl, raises, keeps.1⟩, ?_⟩
      rw [applyAll_append]
      exact keeps.2
  · rintro (raises | ⟨⟨before, first, after, rfl, raises, keeps⟩, last⟩)
    · exact ⟨ops, op, [], rfl, raises, trivial⟩
    · refine ⟨before, first, after ++ [op], by simp, raises, eachStep_concat.2 ⟨keeps, ?_⟩⟩
      rw [applyAll_append] at last
      exact last

/-! ## Counts that were replaced -/

theorem Replaces.axes (h : s.Replaces op t) : t.axes = s.axes := by
  cases h with
  | setUp h =>
      obtain ⟨-, rfl⟩ := setUp_eq_ok h
      exact Counts.axes_zero _
  | reset => exact Counts.axes_zero _
  | readText h =>
      obtain ⟨_, _, htext, rfl⟩ := readText_eq_ok h
      exact Counts.axes_ofText htext
  | load h =>
      rcases load_eq_ok h with ⟨_, _, one, -, rfl⟩ | ⟨_, _, _, _, two, -, rfl⟩
      · exact one.symm
      · exact two.symm

/-- No cell is touched when counts were replaced. -/
theorem Replaces.clean (h : s.Replaces op t) : t.counts.touchedEntries = [] := by
  have zero : ∀ axes, (Counts.zero axes).touchedEntries = [] := fun axes => by
    cases axes with
    | one => rfl
    | two => rfl
  cases h with
  | setUp h =>
      obtain ⟨-, rfl⟩ := setUp_eq_ok h
      exact zero _
  | reset => exact zero _
  | readText h =>
      obtain ⟨_, _, htext, rfl⟩ := readText_eq_ok h
      rcases Counts.ofText_eq_ok htext with ⟨_, -, -, rfl, -⟩ | ⟨_, -, -, rfl, -⟩
      · rfl
      · rfl
  | load h =>
      rcases load_eq_ok h with ⟨_, _, -, -, rfl⟩ | ⟨_, _, _, _, -, -, rfl⟩
      · rfl
      · rfl

/-- The total of counts that were put in place is their sum, as far as it can be told. -/
theorem Replaces.sum_le (h : s.Replaces op t) :
    min t.counts.sum countLimit ≤ t.metadata.total := by
  have zero : ∀ axes total, min (Counts.zero axes).sum countLimit ≤ total := fun axes total => by
    rw [Counts.sum_zero, Nat.zero_min]
    exact Nat.zero_le _
  cases h with
  | setUp h =>
      obtain ⟨-, rfl⟩ := setUp_eq_ok h
      exact zero _ _
  | reset => exact zero _ _
  | readText h =>
      obtain ⟨counts, _, -, rfl⟩ := readText_eq_ok h
      exact Nat.le_of_eq counts.total_eq.symm
  | load h =>
      rw [(load_balanced h).2]
      exact Nat.min_le_left _ _

/-- Only a setup changes whether reads are buffered. -/
theorem Replaces.buffered (h : s.Replaces op t)
    (again : ∀ m u, op = .setUp m → Spectrum.setUp s.axes m = .ok u → m.buffered = true)
    (buffered : s.metadata.buffered = true) : t.metadata.buffered = true := by
  cases h with
  | @setUp m t h =>
      have again := again m t rfl h
      obtain ⟨-, rfl⟩ := setUp_eq_ok h
      exact again
  | reset => exact buffered
  | readText h =>
      obtain ⟨_, _, -, rfl⟩ := readText_eq_ok h
      exact buffered
  | load h =>
      rcases load_eq_ok h with ⟨_, _, -, -, rfl⟩ | ⟨_, _, _, _, -, -, rfl⟩
      · exact buffered
      · exact buffered

/-! ## Touched cells -/

theorem readsTouched_of_two (axes : s.axes = .two) (buffered : s.metadata.buffered = true) :
    s.readsTouched = true := by
  rw [readsTouched, buffered, axes]
  rfl

/-- A buffered read takes what was touched away, and nothing else. -/
theorem apply_readRange_touched (buffered : s.readsTouched = true) (bounds : List BinRange) :
    s.apply (.readRange bounds) = { s with counts := s.counts.forgetTouched } := by
  rw [apply, readRange, buffered]
  rfl

/-- A spectrum with buffered reads remembers the cells of a kind, with the counts that they
are stored with.  The total is behind the sum of the counts only where it cannot tell it. -/
structure Mirrored (s : Spectrum) (unread : List Bin → Prop) : Prop where
  axes : s.axes = .two
  buffered : s.metadata.buffered = true
  sum : min s.counts.sum countLimit ≤ s.metadata.total
  touched : ∀ coords n,
    s.counts.touched? coords = some n ↔ unread coords ∧ n = s.counts.count coords

theorem mirrored_of_clean {unread : List Bin → Prop} (axes : s.axes = .two)
    (buffered : s.metadata.buffered = true) (sum : min s.counts.sum countLimit ≤ s.metadata.total)
    (clean : s.counts.touchedEntries = []) (none : ∀ coords, ¬ unread coords) :
    s.Mirrored unread where
  axes := axes
  buffered := buffered
  sum := sum
  touched coords n := by
    rw [Counts.touched?_of_clean clean]
    exact ⟨fun h => (nomatch h), fun h => absurd h.1 (none coords)⟩

/-- What is added is remembered. -/
theorem Mirrored.adds {unread : List Bin → Prop} (h : s.Mirrored unread) (adds : op.adds = true)
    (room : (s.apply op).metadata.total < 2 ^ 64) :
    (s.apply op).Mirrored fun coords => s.Raises op coords ∨ unread coords := by
  have grows := grows_apply (s := s) adds
  have le : s.metadata.total ≤ (s.apply op).metadata.total := grows.le
  have fits : (s.apply op).metadata.total ≤ countLimit := by
    rw [countLimit, UInt64.size]
    omega
  have sum := h.sum
  have buffered := buffered_of_adds (s := s) adds
  refine ⟨grows.axes.trans h.axes, buffered.trans h.buffered, ?_, fun coords n => ?_⟩
  · by_cases full : s.metadata.total = countLimit
    · exact Nat.le_trans (Nat.min_le_right _ _) (full ▸ le)
    · have grown : (s.apply op).counts.sum + s.metadata.total =
          s.counts.sum + (s.apply op).metadata.total := by
        refine grows.sum ?_
        show s.counts.sum + ((s.apply op).metadata.total - s.metadata.total) ≤ countLimit
        omega
      omega
  · rcases cells_apply (s := s) adds coords with kept | ⟨lt, raised⟩
    · have untouched : ¬ s.Raises op coords := fun raises =>
        Nat.lt_irrefl _ (kept.count ▸ raises.2)
      rw [kept.touched, kept.count, h.touched, or_iff_right untouched]
    · -- the count is below a total that had room for more
      have below := s.counts.count_le_sum coords
      obtain ⟨k, count⟩ := raised.count
      have raises : s.Raises op coords := ⟨adds, by omega⟩
      obtain ⟨l, stored⟩ := raised.stored
      rw [raised.touched h.axes, if_pos h.buffered, Counts.count_eq, stored, Option.getD_some,
        Option.some_inj]
      exact ⟨fun same => ⟨.inl raises, same.symm⟩, fun same => same.2.symm⟩

/-- One operation: what it raises is remembered, and a read and other counts take what was
remembered away. -/
theorem Mirrored.apply {unread : List Bin → Prop} (h : s.Mirrored unread)
    (again : ∀ m u, op = .setUp m → Spectrum.setUp s.axes m = .ok u → m.buffered = true)
    (room : (s.apply op).metadata.total < 2 ^ 64) :
    (s.apply op).Mirrored fun coords => s.Raises op coords ∨ unread coords ∧ ¬ s.Renews op := by
  cases effect s op with
  | adds adds =>
      obtain ⟨axes, buffered, sum, touched⟩ := h.adds adds room
      refine ⟨axes, buffered, sum, fun coords n => ?_⟩
      rw [touched, and_iff_left (not_renews_of_adds adds)]
  | reads bounds read =>
      subst read
      have renews : s.Renews (.readRange bounds) := .inl ⟨bounds, rfl⟩
      have after := apply_readRange_touched (readsTouched_of_two h.axes h.buffered) bounds
      have axes : (s.apply (.readRange bounds)).axes = s.axes := by
        rw [after]
        exact Counts.axes_forgetTouched _
      refine mirrored_of_clean (axes.trans h.axes) ?_ ?_ ?_ ?_
      · rw [after]
        exact h.buffered
      · rw [after]
        show min s.counts.forgetTouched.sum countLimit ≤ s.metadata.total
        rw [Counts.sum_forgetTouched]
        exact h.sum
      · rw [after]
        exact Counts.touchedEntries_forgetTouched _
      · rintro coords (raises | kept)
        · cases raises.1
        · exact kept.2 renews
  | replaces replaces =>
      refine mirrored_of_clean (replaces.axes.trans h.axes) (replaces.buffered again h.buffered)
        replaces.sum_le replaces.clean ?_
      rintro coords (raises | kept)
      · exact not_renews_of_adds raises.1 (.inr ⟨_, replaces⟩)
      · exact kept.2 (.inr ⟨_, replaces⟩)
  | leaves alike adds renews =>
      have axes : (s.apply op).axes = s.axes := congrArg Counts.axes alike.counts
      refine ⟨axes.trans h.axes, ?_, ?_, fun coords n => ?_⟩
      · rw [alike.metadata]
        exact h.buffered
      · rw [alike.metadata, alike.counts]
        exact h.sum
      · have untouched : ¬ s.Raises op coords := fun raises => by
          have none := raises.1
          rw [adds] at none
          cases none
        rw [alike.counts, h.touched, or_iff_right untouched, and_iff_left renews]

/-- Whatever is done with a spectrum, as long as its reads stay buffered and its total fits, it
remembers the cells that were raised and not read since. -/
theorem mirrored_applyAll (h : s.Mirrored fun _ => False) {ops : List Operation}
    (again : ∀ m u, .setUp m ∈ ops → setUp .two m = .ok u → m.buffered = true)
    (room : s.EachStep (fun s op => (s.apply op).metadata.total < 2 ^ 64) ops) :
    (s.applyAll ops).Mirrored (s.Unread ops) := by
  induction ops using List.reverseRecOn with
  | nil =>
      obtain ⟨axes, buffered, sum, touched⟩ := h
      refine ⟨axes, buffered, sum, fun coords n => (touched coords n).trans ?_⟩
      rw [iff_false_intro not_unread_nil]
      rfl
  | append_singleton ops op ih =>
      rw [eachStep_concat] at room
      have before := ih (fun m u hm => again m u (List.mem_append_left _ hm)) room.1
      have again : ∀ m u, op = .setUp m → Spectrum.setUp (s.applyAll ops).axes m = .ok u →
          m.buffered = true := by
        intro m u hop hset
        rw [before.axes] at hset
        exact again m u (List.mem_append_right _ (hop ▸ List.mem_singleton_self _)) hset
      obtain ⟨axes, buffered, sum, touched⟩ := before.apply again room.2
      rw [applyAll_concat]
      refine ⟨axes, buffered, sum, fun coords n => (touched coords n).trans ?_⟩
      rw [unread_concat]

/-! ## What a reader has -/

/-- The entries that an operation gives, which are none but for a read. -/
def given (s : Spectrum) : Operation → List (List Bin × Nat)
  | .readRange bounds => (s.readRange bounds).1
  | _ => []

/-- The entries that the reads of a run give, in their order. -/
def givenBy (s : Spectrum) : List Operation → List (List Bin × Nat)
  | [] => []
  | op :: ops => s.given op ++ (s.apply op).givenBy ops

theorem givenBy_concat (ops : List Operation) (op : Operation) :
    s.givenBy (ops ++ [op]) = s.givenBy ops ++ (s.applyAll ops).given op := by
  induction ops generalizing s with
  | nil => exact List.append_nil _
  | cons first ops ih =>
      rw [List.cons_append, givenBy, givenBy, ih, List.append_assoc]
      rfl

/-- The ranges of a read have all bins of the resolution. -/
def Covers (s : Spectrum) (bounds : List BinRange) : Prop :=
  ∀ coords, coords.length = s.axes.dimensions → s.HasBins coords →
    holdsAll (s.effectiveBounds bounds) coords = true

/-- The operation fills cells that the resolution has bins for, or reads all of those. -/
def Displays (s : Spectrum) : Operation → Prop
  | .feed call => ∀ h ∈ call.hits, (h.value 0).Fits
  | .append coords _ => s.HasBins coords
  | .readRange bounds => s.Covers bounds
  | _ => False

/-- A spectrum with buffered reads has nothing but what its reader has and what is touched. -/
structure Displayed (s : Spectrum) (shown : List Bin → Option Nat) : Prop where
  axes : s.axes = .two
  buffered : s.metadata.buffered = true
  usable : s.metadata.bits ≤ 16
  contained : s.Contained
  cells : ∀ coords, s.counts.stored? coords = (s.counts.touched? coords).or (shown coords)

variable {shown : List Bin → Option Nat}

/-- What is added is touched. -/
theorem Displayed.adds (h : s.Displayed shown) (adds : op.adds = true)
    (inside : s.FillsInside op) : (s.apply op).Displayed shown := by
  have axes : (s.apply op).axes = s.axes := (grows_apply adds).axes
  have buffered := buffered_of_adds (s := s) adds
  refine ⟨axes.trans h.axes, buffered.trans h.buffered, bits_apply h.usable,
    h.contained.apply h.usable inside, fun coords => ?_⟩
  rcases cells_apply (s := s) adds coords with kept | ⟨-, raised⟩
  · rw [kept.stored, kept.touched, h.cells]
  · obtain ⟨k, stored⟩ := raised.stored
    rw [raised.touched h.axes, if_pos h.buffered, stored, Option.some_or]

/-- A read of all bins gives everything that is touched. -/
theorem Displayed.given_eq (h : s.Displayed shown) (covers : s.Covers bounds) :
    s.given (.readRange bounds) = s.counts.touchedEntries := by
  rw [given, readRange_touched (readsTouched_of_two h.axes h.buffered), List.filter_eq_self]
  rintro ⟨coords, n⟩ touched
  have stored : (coords, n) ∈ s.counts.entries := by
    rw [Counts.mem_entries, h.cells, Counts.mem_touchedEntries.1 touched, Option.some_or]
  exact covers coords (Counts.length_of_mem_entries stored) (h.contained.cells _ stored)

/-- After a read of all bins the reader has the stored cells. -/
theorem Displayed.reads (h : s.Displayed shown) (covers : s.Covers bounds) :
    (s.apply (.readRange bounds)).Displayed (overlay shown (s.given (.readRange bounds))) ∧
      ∀ coords, overlay shown (s.given (.readRange bounds)) coords =
        (s.apply (.readRange bounds)).counts.stored? coords := by
  have after := apply_readRange_touched (readsTouched_of_two h.axes h.buffered) bounds
  have seen : ∀ coords, overlay shown (s.given (.readRange bounds)) coords =
      (s.apply (.readRange bounds)).counts.stored? coords := by
    intro coords
    have stored :
        (s.apply (.readRange bounds)).counts.stored? coords = s.counts.stored? coords := by
      rw [after]
      exact Counts.stored?_forgetTouched
    rw [stored, h.cells, h.given_eq covers]
    cases touched : s.counts.touched? coords with
    | none =>
        refine overlay_of_forall_ne fun e he same => ?_
        have remembered := Counts.mem_touchedEntries.1 he
        rw [same, touched] at remembered
        cases remembered
    | some n =>
        exact overlay_of_mem s.counts.ascending_touchedEntries (Counts.mem_touchedEntries.2 touched)
  refine ⟨⟨?_, ?_, bits_apply h.usable, h.contained.apply h.usable trivial, fun coords => ?_⟩, seen⟩
  · rw [after]
    exact (Counts.axes_forgetTouched _).trans h.axes
  · rw [after]
    exact h.buffered
  · rw [seen, after, Counts.touched?_of_clean (Counts.touchedEntries_forgetTouched _)]
    rfl

theorem Displayed.apply (h : s.Displayed shown) (displays : s.Displays op) :
    (s.apply op).Displayed (overlay shown (s.given op)) := by
  cases op with
  | feed call => exact h.adds rfl displays
  | append coords n => exact h.adds rfl displays
  | readRange bounds => exact (h.reads displays).1
  | _ => exact displays.elim

/-- Channels 0 and 1 against each other at eight bits, with buffered reads. -/
def bufferedSetup : Metadata := { planeSetup with buffered := true }

end Spectrum

end ListMode
