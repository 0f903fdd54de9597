import ListMode.Proofs.Record.Framing

/-!
# Where a reading stops

A buffer stops being read between two records, at a length that cannot be used,
or inside a record, by a fault of its words.  The two kinds of faults are
different: nothing that reads inside a record gives a fault of a record's length
(`Buffer.inside_of_readRecord`).  A run of framed records is either read through,
and then what follows is read, or it is interrupted in one of its records, and
then what follows is not looked at (`Buffer.readFrom_interrupted`).
-/

namespace ListMode

/-- The fault is one of the words of a record, and not of its length. -/
def DataFault.Inside : DataFault → Prop
  | .recordLength .. => False
  | _ => True

/-! ## Readers of the words of a record -/

namespace Reader

variable {α β : Type}

/-- Whatever stops the reader is a fault inside a record. -/
def StopsInside (r : Reader α) : Prop :=
  ∀ (c c' : Cursor) (e : DataFault), r c = .error e c' → e.Inside

theorem stopsInside_pure (a : α) : StopsInside (pure a : Reader α) := nofun

theorem stopsInside_throw (e : DataFault) (he : e.Inside) :
    StopsInside (throw e : Reader α) := by
  intro c c' e' h
  cases h
  exact he

theorem StopsInside.bind {r : Reader α} {f : α → Reader β} (hr : r.StopsInside)
    (hf : ∀ a, (f a).StopsInside) : StopsInside (r >>= f) := by
  intro c c' e h
  simp only [Bind.bind, EStateM.bind] at h
  split at h
  · exact hf _ _ _ _ h
  · next hread =>
      cases h
      exact hr _ _ _ hread

theorem StopsInside.map {r : Reader α} (hr : r.StopsInside) (f : α → β) :
    StopsInside (f <$> r) :=
  hr.bind fun a => stopsInside_pure (f a)

theorem stopsInside_get : StopsInside (get : Reader Cursor) := nofun

theorem stopsInside_next : StopsInside Cursor.next := by
  intro c c' e h
  simp only [Cursor.next] at h
  split at h
  · cases h
    trivial
  · cases h

theorem stopsInside_words (n : Nat) : StopsInside (Cursor.words n) := by
  intro c c' e h
  simp only [Cursor.words] at h
  split at h
  · cases h
  · cases h
    trivial

theorem stopsInside_skip (n : Nat) : StopsInside (Cursor.skip n) :=
  (stopsInside_words n).bind fun _ => stopsInside_pure _

/-- A repeated reader stops as the reader does. -/
theorem StopsInside.untilEmpty {r : Reader α} (hr : r.StopsInside) (c : Cursor) :
    ∀ e ∈ (r.untilEmpty c).fault, e.Inside := by
  fun_induction Reader.untilEmpty r c with
  | case1 c hempty =>
      intro e he
      cases he
  | case2 c hempty e c' hread =>
      intro e' he'
      cases he'
      exact hr _ _ _ hread
  | case3 c hempty a c' hread hless rest ih => exact ih
  | case4 c hempty a c' hread hless =>
      intro e he
      cases he

end Reader

open Reader

theorem Layout.inside_of_ofFormatWord {word : UInt16} {e : DataFault}
    (h : ofFormatWord word = .error e) : e.Inside := by
  simp only [ofFormatWord] at h
  split at h
  · cases h
    trivial
  · split at h
    · cases h
    · cases h
      trivial

theorem RecordHeader.stopsInside_read (n : UInt16) : StopsInside (RecordHeader.read n) :=
  stopsInside_next.bind fun _ => stopsInside_next.bind fun word =>
    StopsInside.bind (by
      cases hlayout : Layout.ofFormatWord word with
      | ok l => exact stopsInside_pure l
      | error e => exact stopsInside_throw e (Layout.inside_of_ofFormatWord hlayout))
    fun _ => stopsInside_next.bind fun _ => stopsInside_next.bind fun _ =>
      stopsInside_next.bind fun _ => stopsInside_pure _

theorem EventHeader.stopsInside_read : StopsInside EventHeader.read :=
  stopsInside_next.bind fun _ => stopsInside_next.bind fun _ => stopsInside_next.bind fun _ =>
    stopsInside_pure _

theorem Block.stopsInside_readFull : StopsInside readFull :=
  stopsInside_next.bind fun _ => stopsInside_next.bind fun _ => stopsInside_next.bind fun _ =>
    stopsInside_next.bind fun _ => stopsInside_next.bind fun _ => (stopsInside_skip 3).bind fun _ =>
      stopsInside_next.bind fun _ => stopsInside_pure _

theorem Block.stopsInside_read (l : Layout) : StopsInside (read l) := by
  cases l with
  | traces =>
      refine stopsInside_get.bind fun start => stopsInside_readFull.bind fun (words, block) => ?_
      by_cases h : words < headerWords
      · simp only [h, if_true]
        exact (stopsInside_throw (.channelLength start.position words) trivial).bind fun _ =>
          (stopsInside_words _).bind fun _ => stopsInside_pure _
      · simp only [h, if_false]
        exact (stopsInside_words _).bind fun _ => stopsInside_pure _
  | full => exact stopsInside_readFull.map Prod.snd
  | shapes =>
      exact stopsInside_next.bind fun _ => stopsInside_next.bind fun _ =>
        stopsInside_next.bind fun _ => stopsInside_next.bind fun _ => stopsInside_pure _
  | compressed =>
      exact stopsInside_next.bind fun _ => stopsInside_next.bind fun _ => stopsInside_pure _

theorem Event.stopsInside_readBlocks (l : Layout) : ∀ channels, StopsInside (readBlocks l channels)
  | [] => stopsInside_pure _
  | _ :: channels =>
      (Block.stopsInside_read l).bind fun _ =>
        (stopsInside_readBlocks l channels).bind fun _ => stopsInside_pure _

theorem Event.stopsInside_read (record : RecordHeader) : StopsInside (read record) :=
  EventHeader.stopsInside_read.bind fun _ =>
    (stopsInside_readBlocks _ _).bind fun _ => stopsInside_pure _

/-! ## Records and runs of records -/

namespace Buffer

/-- A record that is not read to its end is stopped by a fault of its words, and is not
counted. -/
theorem inside_of_readRecord {c : Cursor} {e : DataFault} (h : (readRecord c).fault = some e) :
    e.Inside ∧ (readRecord c).records = 0 := by
  have hheader : StopsInside (Cursor.next >>= RecordHeader.read) :=
    stopsInside_next.bind fun count => RecordHeader.stopsInside_read count
  simp only [readRecord] at h ⊢
  cases hread : (Cursor.next >>= RecordHeader.read) c with
  | error e' c' =>
      rw [hread] at h
      cases h
      exact ⟨hheader _ _ _ hread, rfl⟩
  | ok header c' =>
      rw [hread] at h
      have hevents := (Event.stopsInside_read header).untilEmpty c'
      simp only at h ⊢
      cases hfault : (untilEmpty (Event.read header) c').fault with
      | none =>
          rw [hfault] at h
          cases h
      | some fault =>
          rw [hfault] at h
          cases h
          exact ⟨hevents _ hfault, rfl⟩

variable {limit : Nat} {records : List (List UInt16)}

/-- A run of framed records that are not all sound is interrupted in one of them, whatever
follows. -/
theorem readFrom_interrupted (hframed : ∀ r ∈ records, Framed limit r)
    (hunsound : ¬ ∀ r ∈ records, Sound r) (rest : List UInt16) : ∀ offset,
    readFrom limit offset (records.flatten ++ rest) = readFrom limit offset records.flatten ∧
      (readFrom limit offset records.flatten).records < records.length ∧
      ∃ e, (readFrom limit offset records.flatten).fault = some e ∧ e.Inside := by
  induction records with
  | nil => exact absurd nofun hunsound
  | cons r rs ih =>
      intro offset
      rw [List.forall_mem_cons] at hframed hunsound
      rw [List.flatten_cons, List.append_assoc, readFrom_framed hframed.1,
        readFrom_framed hframed.1]
      by_cases hsound : Sound r
      · have hrest : ¬ ∀ r ∈ rs, Sound r := fun h => hunsound ⟨hsound, h⟩
        obtain ⟨hsame, hfewer, e, hfault, hinside⟩ := ih hframed.2 hrest (offset + r.length)
        simp only [readRecord_of_sound hsound, Option.isSome_none, Bool.false_eq_true, if_false,
          hsame]
        refine ⟨trivial, ?_, e, hfault, hinside⟩
        simp only [append, List.length_cons]
        omega
      · have hstopped : (readRecord ⟨offset, r⟩).fault.isSome = true := by
          rw [Option.isSome_iff_ne_none]
          exact fun hnone => hsound (sound_of_fault_eq_none hnone)
        obtain ⟨e, hfault⟩ := Option.isSome_iff_exists.1 hstopped
        obtain ⟨hinside, huncounted⟩ := inside_of_readRecord hfault
        simp only [hstopped, if_true]
        refine ⟨trivial, ?_, e, hfault, hinside⟩
        rw [huncounted]
        exact Nat.succ_pos _

end Buffer

end ListMode
