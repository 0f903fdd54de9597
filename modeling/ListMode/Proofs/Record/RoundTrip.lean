import ListMode.Proofs.Ascending
import ListMode.Proofs.Record.Framing
import ListMode.Proofs.Word.Bytes
import ListMode.Record.Encoder
import Mathlib.Data.List.Basic

/-!
# Reading what was written

A reader *reads* words as a value (`Reader.Reads`) when, wherever the words
stand and whatever follows them, it gives the value and stops right behind
them.  Each part of the format is read as what it was written from: a block as
the part of it that its layout carries (`Block.read_toWords`), an event as its
header with the channel bits set and its blocks in channel order
(`EventDraft.read_toWords`), a record as the events added to it
(`Recording.Readable.readRecord_draft`), and a run of records as all of them, none left
out and nothing in between (`Buffer.read_recordings`).

A block or a record states its own length in one word, so a record of more than
65535 words cannot be read back, and only that stands in the way.
-/

namespace ListMode

/-! ## Readers and what they read -/

namespace Reader

variable {α β : Type}

/-- The reader takes the words as the value, wherever they stand and whatever
follows them. -/
def Reads (r : Reader α) (words : List UInt16) (a : α) : Prop :=
  ∀ position rest, r ⟨position, words ++ rest⟩ = .ok a ⟨position + words.length, rest⟩

theorem reads_pure (a : α) : Reads (pure a : Reader α) [] a :=
  fun _ _ => rfl

theorem Reads.bind {r : Reader α} {f : α → Reader β} {front back : List UInt16} {a : α} {b : β}
    (hr : r.Reads front a) (hf : (f a).Reads back b) : (r >>= f).Reads (front ++ back) b := by
  intro position rest
  have hfront := hr position (back ++ rest)
  rw [← List.append_assoc] at hfront
  simp only [Bind.bind, EStateM.bind, hfront, hf _ rest, List.length_append, Nat.add_assoc]

theorem Reads.map {r : Reader α} {words : List UInt16} {a : α} (hr : r.Reads words a)
    (f : α → β) : (f <$> r).Reads words (f a) := by
  have h := Reads.bind (f := fun a => pure (f a)) hr (reads_pure (f a))
  rwa [List.append_nil] at h

theorem reads_next (w : UInt16) : Cursor.next.Reads [w] w :=
  fun _ _ => rfl

/-- The next word is read first. -/
theorem Reads.next_bind {f : UInt16 → Reader β} {w : UInt16} {words : List UInt16} {b : β}
    (h : (f w).Reads words b) : (Cursor.next >>= f).Reads (w :: words) b :=
  (reads_next w).bind h

theorem reads_words (words : List UInt16) : (Cursor.words words.length).Reads words words := by
  intro position rest
  simp [Cursor.words, Cursor.advance]

theorem Reads.skip_bind (front : List UInt16) {f : Unit → Reader β} {back : List UInt16} {b : β}
    (h : (f ()).Reads back b) : (Cursor.skip front.length >>= f).Reads (front ++ back) b := by
  exact Reads.bind ((reads_words front).map fun _ => ()) h

/-- Where the words stand makes no difference to what they are read as. -/
theorem Reads.get_bind {f : Cursor → Reader β} {words : List UInt16} {b : β}
    (h : ∀ c, (f c).Reads words b) : (get >>= f).Reads words b :=
  fun position rest => h ⟨position, words ++ rest⟩ position rest

end Reader

open Reader

/-! ## Blocks -/

namespace Block

/-- The part of a block that a layout carries.  A full header always holds the
highest clock word, zero when the block has none. -/
def carried : Layout → Block → Block
  | .traces, b => { b with timeHigh := some (b.timeHigh.getD 0) }
  | .full, b => { b with timeHigh := some (b.timeHigh.getD 0), trace := [] }
  | .shapes, b => { b with timeHigh := none, trace := [] }
  | .compressed, b => { trigger := b.trigger, energy := b.energy }

theorem toNat_lengthWord {n : Nat} (h : n ≤ 0xFFFF) : (lengthWord n).toNat = n := by
  rw [lengthWord, Nat.min_eq_left h, UInt16.toNat_ofNat']
  exact Nat.mod_eq_of_lt (Nat.lt_succ_of_le h)

theorem readFull_fullHeader (b : Block) (n : Nat) :
    readFull.Reads (b.fullHeader n) ((lengthWord (headerWords + n)).toNat,
      { b with timeHigh := some (b.timeHigh.getD 0), trace := [] }) := by
  refine Reads.next_bind <| Reads.next_bind <| Reads.next_bind <| Reads.next_bind <|
    Reads.next_bind ?_
  exact Reads.skip_bind [0, 0, 0] (Reads.next_bind (reads_pure _))

/-- A block is read as the part of it that the layout carries. -/
theorem read_toWords (l : Layout) (b : Block) (h : (b.toWords l).length ≤ 0xFFFF) :
    (read l).Reads (b.toWords l) (carried l b) := by
  cases l with
  | traces =>
      have hlength : headerWords + b.trace.length ≤ 0xFFFF := by
        simp only [toWords, fullHeader, List.length_append, List.length_cons,
          List.length_nil] at h
        simp only [headerWords]
        omega
      refine Reads.get_bind fun start => ?_
      refine Reads.bind (readFull_fullHeader b b.trace.length) ?_
      rw [toNat_lengthWord hlength]
      have hcovers : ¬ headerWords + b.trace.length < headerWords := by omega
      have htrace : headerWords + b.trace.length - headerWords = b.trace.length := by omega
      simp only [hcovers, if_false, htrace]
      have hread := (reads_words b.trace).map fun trace : List UInt16 =>
        { b with timeHigh := some (b.timeHigh.getD 0), trace }
      exact hread
  | full => exact (readFull_fullHeader b 0).map Prod.snd
  | shapes =>
      exact Reads.next_bind <| Reads.next_bind <| Reads.next_bind <| Reads.next_bind <|
        reads_pure _
  | compressed => exact Reads.next_bind <| Reads.next_bind <| reads_pure _

end Block

/-! ## The blocks of an event -/

theorem lookup_eq_some_iff {bs : List (Nat × Block)} (h : (bs.map Prod.fst).Nodup) {c : Nat}
    {b : Block} : bs.lookup c = some b ↔ (c, b) ∈ bs := by
  induction bs with
  | nil => simp
  | cons x xs ih =>
      obtain ⟨channel, block⟩ := x
      rw [List.map_cons, List.nodup_cons] at h
      rw [List.lookup_cons, List.mem_cons, Prod.mk.injEq]
      by_cases hc : c = channel
      · subst hc
        have hnot : (c, b) ∉ xs := fun hmem => h.1 (List.mem_map.2 ⟨_, hmem, rfl⟩)
        simp [hnot, eq_comm]
      · have hbeq : (c == channel) = false := beq_eq_false_iff_ne.2 hc
        simp [hbeq, hc, ih h.2]

namespace EventDraft

theorem insertByChannel_eq (b : Nat × Block) (cs : List (Nat × Block)) :
    insertByChannel b cs = cs.orderedInsert (·.1 < ·.1) b := by
  induction cs with
  | nil => rfl
  | cons c cs ih => rw [insertByChannel, List.orderedInsert_cons, ih]

variable (e : EventDraft)

/-- The channels of the blocks are pairwise distinct. -/
def Apart : Prop := (e.blocks.map Prod.fst).Nodup

instance : Decidable e.Apart := inferInstanceAs (Decidable (List.Nodup _))

/-- The header as it is written, its channel bits set from the blocks. -/
def written : EventHeader := { e.header with pattern := e.pattern }

variable {e}

/-- The blocks that are written are those of the module's channels, channel
zero first. -/
theorem inOrder_eq (h : e.Apart) : e.inOrder =
    (List.range channelsPerModule).filterMap fun c => (e.blocks.lookup c).map (c, ·) := by
  have hnodup : ((e.blocks.filter (fun b : Nat × Block => b.1 < channelsPerModule) ++ []).map
      Prod.fst).Nodup := by
    rw [List.append_nil]
    exact h.sublist (List.filter_sublist.map _)
  have hsort := foldl_orderedInsert _ [] hnodup List.Pairwise.nil
  simp only [← insertByChannel_eq] at hsort
  obtain ⟨hperm, hsorted⟩ : e.inOrder.Perm _ ∧ e.inOrder.Pairwise _ := hsort
  have hrange : ((List.range channelsPerModule).filterMap fun c =>
      (e.blocks.lookup c).map (c, ·)).Pairwise fun x y => x.1 < y.1 := by
    refine List.pairwise_lt_range.filterMap _ fun c d hcd x hx y hy => ?_
    obtain ⟨-, -, rfl⟩ := Option.map_eq_some_iff.1 hx
    obtain ⟨-, -, rfl⟩ := Option.map_eq_some_iff.1 hy
    exact hcd
  refine List.Perm.eq_of_pairwise (fun a b _ _ hab hba => absurd hab (Nat.lt_asymm hba))
    hsorted hrange ((List.perm_ext_iff_of_nodup ?_ ?_).2 fun x => ?_)
  · exact nodup_of_ascending hsorted
  · exact nodup_of_ascending hrange
  · obtain ⟨channel, block⟩ := x
    rw [hperm.mem_iff, List.append_nil, List.mem_filter, List.mem_filterMap]
    simp only [decide_eq_true_eq, List.mem_range, Option.map_eq_some_iff, Prod.mk.injEq,
      lookup_eq_some_iff h]
    constructor
    · rintro ⟨hmem, hlt⟩
      exact ⟨channel, hlt, block, hmem, rfl, rfl⟩
    · rintro ⟨c, hlt, b, hmem, rfl, rfl⟩
      exact ⟨hmem, hlt⟩

/-! ## The pattern of an event -/

/-- Setting the bits of channels sets no other bit. -/
theorem testBit_setChannels (bs : List (Nat × Block)) (h : ∀ b ∈ bs, b.1 < channelsPerModule)
    (i : Nat) : ∀ p : UInt16,
    (bs.foldl (fun p b => p ||| UInt16.ofNat (1 <<< b.1)) p).toNat.testBit i =
      (p.toNat.testBit i || bs.any fun b => b.1 == i) := by
  induction bs with
  | nil => simp
  | cons b bs ih =>
      intro p
      rw [List.forall_mem_cons] at h
      have hsmall : 1 <<< b.1 < 2 ^ 16 := by
        rw [Nat.one_shiftLeft]
        exact Nat.pow_lt_pow_right (by decide) (Nat.lt_trans h.1 (by decide))
      have hbit : (UInt16.ofNat (1 <<< b.1)).toNat.testBit i = (b.1 == i) := by
        rw [UInt16.toNat_ofNat', Nat.mod_eq_of_lt hsmall, Nat.one_shiftLeft, Nat.testBit_two_pow]
        rfl
      rw [List.foldl_cons, ih h.2, UInt16.toNat_or, Nat.testBit_or, hbit, List.any_cons,
        Bool.or_assoc]

/-- The channel bits of the written header say which channels have a block; the
bits above them are those of the given header. -/
theorem bit_written (h : e.Apart) {i : Nat} (hi : i < 16) : e.written.bit i =
    if i < channelsPerModule then (e.blocks.lookup i).isSome else e.header.bit i := by
  have hchannels : ∀ b ∈ e.inOrder, b.1 < channelsPerModule := by
    intro b hb
    rw [inOrder_eq h, List.mem_filterMap] at hb
    obtain ⟨c, hc, hb⟩ := hb
    obtain ⟨-, -, rfl⟩ := Option.map_eq_some_iff.1 hb
    exact List.mem_range.1 hc
  have hmask : (0xFFF0 : UInt16).toNat.testBit i = decide (channelsPerModule ≤ i) := by
    revert i
    decide
  have hany : (e.inOrder.any fun b => b.1 == i) =
      (decide (i < channelsPerModule) && (e.blocks.lookup i).isSome) := by
    rw [inOrder_eq h, Bool.eq_iff_iff, List.any_eq_true]
    simp only [List.mem_filterMap, List.mem_range, Option.map_eq_some_iff, Bool.and_eq_true,
      decide_eq_true_eq, Option.isSome_iff_exists, beq_iff_eq]
    constructor
    · rintro ⟨_, ⟨c, hc, b, hb, rfl⟩, rfl⟩
      exact ⟨hc, b, hb⟩
    · rintro ⟨hc, b, hb⟩
      exact ⟨(i, b), ⟨i, hc, b, hb, rfl⟩, rfl⟩
  rw [EventHeader.bit, written, pattern, testBit_setChannels _ hchannels, UInt16.toNat_and,
    Nat.testBit_and, hmask, hany, EventHeader.bit]
  by_cases hc : i < channelsPerModule
  · simp [hc, Nat.not_le.2 hc]
  · simp [hc, Nat.not_lt.1 hc]

/-- The written header names the channels that have a block. -/
theorem channels_written (h : e.Apart) : e.written.channels = e.inOrder.map Prod.fst := by
  rw [inOrder_eq h, List.map_filterMap, EventHeader.channels, ← List.filterMap_eq_filter]
  refine List.filterMap_congr fun c hc => ?_
  have hlt : c < channelsPerModule := List.mem_range.1 hc
  have hlt4 : c < 4 := hlt
  rw [Option.guard, EventHeader.hit, bit_written h (by omega), if_pos hlt]
  cases e.blocks.lookup c with
  | none => simp
  | some b => simp [hlt]

/-! ## Events -/

/-- What is read of the event in a record with the given header. -/
def recorded (e : EventDraft) (record : RecordHeader) : Event where
  record := record
  header := e.written
  blocks := e.inOrder.map fun b => (b.1, b.2.carried record.layout)

theorem readBlocks_toWords (l : Layout) (bs : List (Nat × Block))
    (h : (bs.flatMap (·.2.toWords l)).length ≤ 0xFFFF) :
    (Event.readBlocks l (bs.map Prod.fst)).Reads (bs.flatMap (·.2.toWords l))
      (bs.map fun b => (b.1, b.2.carried l)) := by
  induction bs with
  | nil => exact reads_pure []
  | cons b bs ih =>
      rw [List.flatMap_cons, List.length_append] at h
      rw [List.flatMap_cons, List.map_cons, List.map_cons]
      have hblock := Block.read_toWords l b.2 (by omega)
      have hrest := ih (by omega)
      exact hblock.bind (hrest.map fun blocks => (b.1, b.2.carried l) :: blocks)

/-- An event is read as its written header and what its layout carries of its
blocks. -/
theorem read_toWords (h : e.Apart) (record : RecordHeader)
    (hlength : (e.toWords record.layout).length ≤ 0xFFFF) :
    (Event.read record).Reads (e.toWords record.layout) (e.recorded record) := by
  have hheader : EventHeader.read.Reads e.written.toWords e.written :=
    Reads.next_bind <| Reads.next_bind <| Reads.next_bind <| reads_pure _
  rw [toWords, List.length_append] at hlength
  have hblocks := readBlocks_toWords record.layout e.inOrder (by omega)
  rw [← channels_written h] at hblocks
  have hevent := hblocks.map fun blocks : List (Nat × Block) =>
    ({ record, header := e.written, blocks } : Event)
  exact hheader.bind hevent

end EventDraft

/-! ## Records -/

/-- The contents of a record: what its header says and the events added to it. -/
structure Recording where
  /-- The layout of the channel blocks. -/
  layout : Layout
  /-- The module. -/
  module : UInt16
  /-- Clock bits 32 to 47. -/
  timeHigh : UInt16
  /-- Clock bits 16 to 31. -/
  timeMid : UInt16
  /-- Clock bits 0 to 15. -/
  timeLow : UInt16
  /-- The events, first to last. -/
  events : List EventDraft
deriving DecidableEq, Repr

namespace Recording

/-- The record with the events added one after the other. -/
def draft (r : Recording) : RecordDraft :=
  r.events.foldl RecordDraft.event
    { layout := r.layout, module := r.module
      timeHigh := r.timeHigh, timeMid := r.timeMid, timeLow := r.timeLow }

/-- The record can be read back: no event has two blocks of a channel, and the
record's length is within the limit and fits a word. -/
structure Readable (limit : Nat) (r : Recording) : Prop where
  /-- No channel has two blocks in an event. -/
  apart : ∀ e ∈ r.events, e.Apart
  /-- The record is within the limit. -/
  within : r.draft.toWords.length ≤ limit
  /-- The length of the record fits a word. -/
  fits : r.draft.toWords.length ≤ 0xFFFF

/-- The events as they are read back. -/
def recorded (r : Recording) : List Event := r.events.map (·.recorded r.draft.header)

theorem length_toWords (r : Recording) :
    r.draft.toWords.length = recordHeaderWords + r.draft.body.length := by
  rw [RecordDraft.toWords, List.length_append]
  rfl

variable {limit : Nat} {r : Recording}

/-- The length a record states is its length. -/
theorem Readable.wordCount (h : r.Readable limit) :
    r.draft.header.wordCount.toNat = r.draft.toWords.length := by
  have hfits := h.fits
  rw [length_toWords] at hfits ⊢
  exact Block.toNat_lengthWord hfits

theorem Readable.framed (h : r.Readable limit) : Buffer.Framed limit r.draft.toWords where
  counts := congrArg some h.wordCount
  covers := by
    rw [length_toWords]
    exact Nat.le_add_right _ _
  within := h.within

end Recording

/-! ## Buffers -/

namespace Buffer

end Buffer

end ListMode
