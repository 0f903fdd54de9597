import ListMode.Proofs.Spectrum.BufferedReads

/-!
# Buffered reads of counts from texts and files

Counts that are read from a text or a file take the place of those that were stored.  None of
their cells is touched, and those that were touched before are forgotten, so a buffered reader is
not told of them (`Spectrum.replaced_counts_unread`).

*Right after.*  A read of any ranges gives nothing, so new counts reach the reader only if there
are none (`Spectrum.Replaces.readRange`).

*Later.*  Reads give the cells that are raised, with all that they count, also what the text or
the file had for them (`Spectrum.Mirrored.mem_readRange`).  Of a cell that is not raised again a
reader has what it had before (`Spectrum.overlay_givenBy`).
-/

namespace ListMode.Spectrum

variable {s t : Spectrum} {op : Operation} {coords : List Bin}

/-! ## Texts and files -/

/-- The operation reads counts from a text or a file. -/
def Operation.imports : Operation → Bool
  | .readText _ | .load _ _ _ => true
  | _ => false

/-- A cell that the resolution has bins for has a count that it did not have before. -/
def NewCount (s t : Spectrum) (coords : List Bin) : Prop :=
  t.HasBins coords ∧ t.counts.count coords ≠ 0 ∧ t.counts.count coords ≠ s.counts.count coords

/-- Texts and files do not change whether reads are buffered. -/
theorem Replaces.buffered_of_imports (h : s.Replaces op t) (imports : op.imports = true)
    (buffered : s.metadata.buffered = true) : t.metadata.buffered = true := by
  refine h.buffered (fun m u setup => ?_) buffered
  subst setup
  cases imports

/-- A read right after counts were replaced gives nothing. -/
theorem Replaces.readRange (h : s.Replaces op t) (two : t.axes = .two)
    (buffered : t.metadata.buffered = true) (bounds : List BinRange) :
    (t.readRange bounds).1 = [] := by
  rw [readRange_touched (readsTouched_of_two two buffered), h.clean, List.filter_nil]

theorem Replaces.mirrored (h : s.Replaces op t) (two : t.axes = .two)
    (buffered : t.metadata.buffered = true) : t.Mirrored fun _ => False :=
  mirrored_of_clean two buffered h.sum_le h.clean fun _ h => h

/-- When a text is accepted, the operation gives the spectrum that it was read into. -/
theorem readText_eq_apply {text : List Char} (accepted : (s.readText text).toOption.isSome = true) :
    s.readText text = .ok (s.apply (.readText text)) := by
  rw [apply]
  cases read : s.readText text with
  | error fault =>
      rw [read] at accepted
      cases accepted
  | ok t => rfl

/-! ## Later reads -/

/-- A read gives the cells in its ranges that are remembered, with their counts. -/
theorem Mirrored.mem_readRange {unread : List Bin → Prop} (h : s.Mirrored unread)
    {bounds : List BinRange} {n : Nat} : (coords, n) ∈ (s.readRange bounds).1 ↔
      holdsAll (s.effectiveBounds bounds) coords = true ∧ unread coords ∧
        n = s.counts.count coords := by
  rw [readRange_touched (readsTouched_of_two h.axes h.buffered), List.mem_filter,
    Counts.mem_touchedEntries, h.touched, and_comm]

instance : Decidable (s.Raises op coords) :=
  inferInstanceAs (Decidable (op.adds = true ∧ _ < _))

/-- A cell that no operation raised is not one of those to be read. -/
theorem not_unread {ops : List Operation}
    (never : s.EachStep (fun s op => ¬ s.Raises op coords) ops) : ¬ s.Unread ops coords := by
  induction ops using List.reverseRecOn with
  | nil => exact not_unread_nil
  | append_singleton ops op ih =>
      rw [eachStep_concat] at never
      rw [unread_concat]
      rintro (raises | ⟨unread, -⟩)
      · exact never.2 raises
      · exact ih never.1 unread

/-- A reader keeps what it had of a cell that no operation raised. -/
theorem overlay_givenBy (h : s.Mirrored fun _ => False) {ops : List Operation}
    (again : ∀ m u, .setUp m ∈ ops → setUp .two m = .ok u → m.buffered = true)
    (room : s.EachStep (fun s op => (s.apply op).metadata.total < 2 ^ 64) ops)
    (never : s.EachStep (fun s op => ¬ s.Raises op coords) ops) (shown : List Bin → Option Nat) :
    overlay shown (s.givenBy ops) coords = shown coords := by
  induction ops using List.reverseRecOn with
  | nil => rfl
  | append_singleton ops op ih =>
      rw [eachStep_concat] at room never
      have again : ∀ m u, .setUp m ∈ ops → setUp .two m = .ok u → m.buffered = true :=
        fun m u hm => again m u (List.mem_append_left _ hm)
      have mirrored := mirrored_applyAll h again room.1
      have none : ∀ e ∈ (s.applyAll ops).given op, e.1 ≠ coords := by
        rintro e he rfl
        cases op with
        | readRange bounds => exact not_unread never.1 (mirrored.mem_readRange.1 he).2.1
        | _ => cases he
      rw [givenBy_concat, overlay_append, overlay_of_forall_ne none]
      exact ih again room.1 never.1

/-- A spectrum with two axes and buffered reads gets its counts from a text or a file.  A read
right after gives nothing, so it gives all new counts if and only if there are none.  Whatever is
done then, as long as reads stay buffered and the total fits 64 bits, a read gives the cells that
were raised since and not read, with the counts that they have, and of any other cell a reader
has what it had before. -/
theorem replaced_counts_unread (two : s.axes = .two) (buffered : s.metadata.buffered = true)
    (imports : op.imports = true) (replaces : s.Replaces op t) :
    (∀ bounds, (t.readRange bounds).1 = []) ∧
      ((∀ coords, s.NewCount t coords →
        (coords, t.counts.count coords) ∈ (t.readRange []).1) ↔ ∀ coords, ¬ s.NewCount t coords) ∧
      ∀ later, (∀ m u, .setUp m ∈ later → setUp .two m = .ok u → m.buffered = true) →
        t.EachStep (fun s op => (s.apply op).metadata.total < 2 ^ 64) later →
        (∀ bounds coords n, (coords, n) ∈ ((t.applyAll later).readRange bounds).1 ↔
          holdsAll ((t.applyAll later).effectiveBounds bounds) coords = true ∧
            t.Unread later coords ∧ n = (t.applyAll later).counts.count coords) ∧
        ∀ shown coords, t.EachStep (fun s op => ¬ s.Raises op coords) later →
          overlay shown (t.givenBy later) coords = shown coords := by
  have axes : t.axes = .two := replaces.axes.trans two
  have still := replaces.buffered_of_imports imports buffered
  have nothing := replaces.readRange axes still
  have clean := replaces.mirrored axes still
  refine ⟨nothing, ?_, fun later again room => ⟨fun bounds coords n => ?_, ?_⟩⟩
  · rw [nothing]
    simp only [List.not_mem_nil, imp_false]
  · exact (mirrored_applyAll clean again room).mem_readRange
  · exact fun shown coords never => overlay_givenBy clean again room never shown

/-- A text puts two cells in the place of what was counted, and one of them is raised later. -/
theorem replaced_counts_unread_raised :
    let s := (blank .two).applyAll [.setUp bufferedSetup, .append [1, 2] 3, .readRange []]
    let t := s.apply (.readText "+ 1 0 2 5 7".toList)
    let later := [.append [1, 2] 1, .readRange []]
    s.axes = .two ∧ s.metadata.buffered = true ∧ s.readText "+ 1 0 2 5 7".toList = .ok t ∧
      (t.readRange []).1 = [] ∧ ¬ (∀ coords, ¬ s.NewCount t coords) ∧
      t.EachStep (fun s op => ¬ s.Raises op [1, 3]) later ∧
      t.counts.count [1, 3] = 7 ∧ overlay (fun _ => none) (t.givenBy later) [1, 3] = none ∧
      ((t.apply (.append [1, 2] 1)).readRange []).1 = [([1, 2], 6)] ∧
      t.Unread [.append [1, 2] 1] [1, 2] := by
  intro s t later
  have two : s.axes = .two := by decide +kernel
  have buffered : s.metadata.buffered = true := by decide +kernel
  have read : s.readText "+ 1 0 2 5 7".toList = .ok t := readText_eq_apply (by decide +kernel)
  have new : s.NewCount t [1, 3] := ⟨by decide +kernel, by decide +kernel, by decide +kernel⟩
  have count : t.counts.count [1, 3] = 7 := by decide +kernel
  have never : t.EachStep (fun s op => ¬ s.Raises op [1, 3]) later := by decide +kernel
  have room : t.EachStep (fun s op => (s.apply op).metadata.total < 2 ^ 64) later := by
    decide +kernel
  have given : ((t.apply (.append [1, 2] 1)).readRange []).1 = [([1, 2], 6)] := by decide +kernel
  -- all that is left follows from these, whatever the spectra are
  clear_value s t
  obtain ⟨nothing, -, reads⟩ := replaced_counts_unread two buffered rfl (.readText read)
  obtain ⟨-, shown⟩ := reads later (by simp [later]) room
  obtain ⟨unread, -⟩ := reads [.append [1, 2] 1] (by simp) ⟨room.1, trivial⟩
  have listed : ([1, 2], 6) ∈ ((t.applyAll [.append [1, 2] 1]).readRange []).1 := by
    show _ ∈ ((t.apply (.append [1, 2] 1)).readRange []).1
    rw [given]
    exact List.mem_singleton_self _
  exact ⟨two, buffered, read, nothing [], fun none => none [1, 3] new, never, count,
    shown _ _ never, given, ((unread [] [1, 2] 6).1 listed).2.1⟩

/-- A cell that a text fills is missing from the next read. -/
theorem text_count_unread :
    let s := (blank .two).apply (.setUp bufferedSetup)
    let t := s.apply (.readText "+ 1 0 2 5".toList)
    s.metadata.buffered = true ∧ s.readText "+ 1 0 2 5".toList = .ok t ∧
      s.NewCount t [1, 2] ∧ t.counts.count [1, 2] = 5 ∧ (t.readRange []).1 = [] := by
  intro s t
  have read : s.readText "+ 1 0 2 5".toList = .ok t := readText_eq_apply (by decide +kernel)
  have new : s.NewCount t [1, 2] := ⟨by decide +kernel, by decide +kernel, by decide +kernel⟩
  exact ⟨by decide +kernel, read, new, by decide +kernel, by decide +kernel⟩

end ListMode.Spectrum
