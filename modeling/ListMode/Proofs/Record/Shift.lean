import ListMode.Record.Buffer

/-!
# Reading further into a buffer

Where the words of a record stand in a buffer shows in the offsets of faults
and in nothing else.  Two readers *match* over a distance (`Reader.Match`) when
the second, started that much further on, gives what the first gives with its
offsets moved along; readers built by binding matching ones match again.  Up the
layers this makes reading a buffer commute with moving it
(`Buffer.readFrom_shift`).
-/

namespace ListMode

/-! ## Moving offsets along -/

/-- The fault at an offset that is so much larger. -/
def DataFault.shift (k : Nat) : DataFault → DataFault
  | .truncated offset needed available => .truncated (offset + k) needed available
  | .recordLength offset words limit => .recordLength (offset + k) words limit
  | .channelLength offset words => .channelLength (offset + k) words
  | .unsupportedRunType word => .unsupportedRunType word
  | .unknownFormat word => .unknownFormat word

/-- The cursor so much further on, over the same words. -/
def Cursor.shift (k : Nat) (c : Cursor) : Cursor := ⟨c.position + k, c.window⟩

@[simp] theorem Cursor.window_shift (k : Nat) (c : Cursor) : (c.shift k).window = c.window := rfl

namespace Reader

variable {α β : Type} {k : Nat}

/-- What a reader gave, with its offsets moved along. -/
def shiftResult (k : Nat) : EStateM.Result DataFault Cursor α → EStateM.Result DataFault Cursor α
  | .ok a c => .ok a (c.shift k)
  | .error e c => .error (e.shift k) (c.shift k)

/-- The second reader gives so much further on what the first one gives. -/
def Match (k : Nat) (r r' : Reader α) : Prop := ∀ c : Cursor, r' (c.shift k) = shiftResult k (r c)

theorem match_pure (a : α) : Match k (pure a : Reader α) (pure a) :=
  fun _ => rfl

theorem match_throw (e : DataFault) : Match k (throw e : Reader α) (throw (e.shift k)) :=
  fun _ => rfl

theorem Match.bind {r r' : Reader α} {f f' : α → Reader β} (hr : Match k r r')
    (hf : ∀ a, Match k (f a) (f' a)) : Match k (r >>= f) (r' >>= f') := by
  intro c
  simp only [Bind.bind, EStateM.bind, hr c]
  cases r c with
  | ok a d => exact hf a d
  | error e d => rfl

theorem Match.map {r r' : Reader α} (hr : Match k r r') (f : α → β) : Match k (f <$> r) (f <$> r') :=
  hr.bind fun a => match_pure (f a)

/-- A reader may look where it stands, if it then does the same further on. -/
theorem Match.get_bind {f f' : Cursor → Reader β} (hf : ∀ c, Match k (f c) (f' (c.shift k))) :
    Match k (get >>= f) (get >>= f') :=
  fun c => hf c c

theorem match_next : Match k Cursor.next Cursor.next := by
  intro c
  unfold Cursor.next
  rw [Cursor.window_shift]
  cases c.window with
  | nil => rfl
  | cons w rest =>
      simp only [shiftResult, Cursor.shift]
      congr 2
      exact Nat.add_right_comm _ _ _

theorem match_words (n : Nat) : Match k (Cursor.words n) (Cursor.words n) := by
  intro c
  unfold Cursor.words
  rw [Cursor.window_shift]
  by_cases h : (c.window.take n).length = n
  · simp only [h, if_true, shiftResult, Cursor.advance, Cursor.shift]
    congr 2
    exact Nat.add_right_comm _ _ _
  · simp only [h, if_false]
    rfl

theorem match_skip (n : Nat) : Match k (Cursor.skip n) (Cursor.skip n) :=
  (match_words n).bind fun _ => match_pure _

end Reader

open Reader

variable {k : Nat}

/-! ## Headers and blocks -/

theorem RecordHeader.match_read (n : UInt16) :
    Match k (RecordHeader.read n) (RecordHeader.read n) :=
  match_next.bind fun _ => match_next.bind fun word =>
    Match.bind (by
      cases hlayout : Layout.ofFormatWord word with
      | ok l => exact match_pure l
      | error e =>
          -- a format word is wrong wherever it stands
          have hshift : e.shift k = e := by
            unfold Layout.ofFormatWord at hlayout
            split at hlayout
            · cases hlayout
              rfl
            · split at hlayout
              · cases hlayout
              · cases hlayout
                rfl
          have hthrow := match_throw (k := k) (α := Layout) e
          rw [hshift] at hthrow
          exact hthrow)
    fun _ => match_next.bind fun _ => match_next.bind fun _ => match_next.bind fun _ =>
      match_pure _

theorem EventHeader.match_read : Match k EventHeader.read EventHeader.read :=
  match_next.bind fun _ => match_next.bind fun _ => match_next.bind fun _ => match_pure _

theorem Block.match_readFull : Match k readFull readFull :=
  match_next.bind fun _ => match_next.bind fun _ => match_next.bind fun _ =>
    match_next.bind fun _ => match_next.bind fun _ => (match_skip 3).bind fun _ =>
      match_next.bind fun _ => match_pure _

theorem Block.match_read (l : Layout) : Match k (read l) (read l) := by
  cases l with
  | traces =>
      refine Match.get_bind fun start => match_readFull.bind fun (words, block) => ?_
      by_cases h : words < headerWords
      · simp only [h, if_true]
        exact (match_throw (.channelLength start.position words)).bind fun _ =>
          (match_words _).bind fun _ => match_pure _
      · simp only [h, if_false]
        exact (match_words _).bind fun _ => match_pure _
  | full => exact match_readFull.map Prod.snd
  | shapes =>
      exact match_next.bind fun _ => match_next.bind fun _ => match_next.bind fun _ =>
        match_next.bind fun _ => match_pure _
  | compressed => exact match_next.bind fun _ => match_next.bind fun _ => match_pure _

/-! ## Events -/

namespace Event

theorem match_readBlocks (l : Layout) : ∀ channels,
    Match k (readBlocks l channels) (readBlocks l channels)
  | [] => match_pure _
  | _ :: channels =>
      (Block.match_read l).bind fun _ => (match_readBlocks l channels).bind fun _ => match_pure _

theorem match_read (record : RecordHeader) : Match k (read record) (read record) :=
  EventHeader.match_read.bind fun _ => (match_readBlocks _ _).bind fun _ => match_pure _

theorem blocksUpTo_shift (l : Layout) : ∀ (channels : List Nat) (c : Cursor),
    blocksUpTo l channels (c.shift k) = blocksUpTo l channels c
  | [], _ => rfl
  | channel :: channels, c => by
      simp only [blocksUpTo, Block.match_read l c]
      cases Block.read l c with
      | ok block d =>
          simp only [shiftResult]
          rw [blocksUpTo_shift l channels d]
      | error e d => rfl

theorem front?_shift (record : RecordHeader) (c : Cursor) :
    front? record (c.shift k) = front? record c := by
  simp only [front?, EventHeader.match_read c]
  cases EventHeader.read c with
  | ok header d =>
      simp only [shiftResult]
      rw [blocksUpTo_shift]
  | error e d => rfl

end Event

/-! ## Records and buffers -/

/-- What a repeated reading gave, with its offsets moved along. -/
def Readings.shift {α : Type} (k : Nat) (r : Readings α) : Readings α :=
  ⟨r.items, r.fault.map (·.shift k), r.cursor.shift k, r.begun.shift k⟩

theorem Reader.untilEmpty_shift {α : Type} {r : Reader α} (hr : Match k r r) (c : Cursor) :
    r.untilEmpty (c.shift k) = (r.untilEmpty c).shift k := by
  fun_induction untilEmpty r c with
  | case1 c hempty =>
      rw [untilEmpty, Cursor.window_shift, if_pos hempty]
      rfl
  | case2 c hempty e d hread =>
      rw [untilEmpty, Cursor.window_shift, if_neg hempty, hr c, hread]
      rfl
  | case3 c hempty a d hread hless rest ih =>
      rw [untilEmpty, Cursor.window_shift, if_neg hempty, hr c, hread]
      simp only [shiftResult, Cursor.window_shift, hless, if_true, ih]
      rfl
  | case4 c hempty a d hread hless =>
      rw [untilEmpty, Cursor.window_shift, if_neg hempty, hr c, hread]
      simp only [shiftResult, Cursor.window_shift, hless, if_false]
      rfl

namespace Buffer

/-- What reading a buffer gave, with its offsets moved along. -/
def shift (k : Nat) (b : Buffer) : Buffer := { b with fault := b.fault.map (·.shift k) }

theorem readRecord_shift (c : Cursor) : readRecord (c.shift k) = (readRecord c).shift k := by
  have hheader : Match k (Cursor.next >>= RecordHeader.read) (Cursor.next >>= RecordHeader.read) :=
    match_next.bind fun count => RecordHeader.match_read count
  simp only [readRecord]
  rw [hheader c]
  cases (Cursor.next >>= RecordHeader.read) c with
  | error e d => rfl
  | ok h d =>
      simp only [shiftResult, untilEmpty_shift (Event.match_read h) d, Readings.shift]
      cases (untilEmpty (Event.read h) d).fault with
      | none => rfl
      | some fault =>
          simp only [Option.map_some, Event.front?_shift]
          rfl

/-- Further into a buffer the same words are read as the same events, and
stopped by the same fault. -/
theorem readFrom_shift (limit offset : Nat) (words : List UInt16) :
    readFrom limit (offset + k) words = (readFrom limit offset words).shift k := by
  fun_induction readFrom limit offset words with
  | case1 => rw [readFrom]; rfl
  | case2 offset count body n hzero =>
      rw [readFrom, if_pos hzero]
      rfl
  | case3 offset count body n hzero hrange =>
      rw [readFrom, if_neg hzero, if_pos hrange]
      rfl
  | case4 offset count body n hzero hrange record hshort =>
      rw [readFrom, if_neg hzero, if_neg hrange]
      simp only [record, n] at hshort
      simp only [hshort, if_true]
      rfl
  | case5 offset count body n hzero hrange record hlong first hfault =>
      have hfirst : readRecord ⟨offset + k, record⟩ = first.shift k :=
        readRecord_shift ⟨offset, record⟩
      have hstops : (first.shift k).fault.isSome = true := by simpa [shift] using hfault
      rw [readFrom, if_neg hzero, if_neg hrange]
      refine (if_neg hlong).trans ?_
      rw [show count :: body.take (count.toNat - 1) = record from rfl, hfirst]
      exact if_pos hstops
  | case6 offset count body n hzero hrange record hlong first hfault ih =>
      have hfirst : readRecord ⟨offset + k, record⟩ = first.shift k :=
        readRecord_shift ⟨offset, record⟩
      have hgoes : ¬ (first.shift k).fault.isSome = true := by simpa [shift] using hfault
      have hnext : offset + k + count.toNat = offset + n + k := Nat.add_right_comm _ _ _
      rw [readFrom, if_neg hzero, if_neg hrange]
      refine (if_neg hlong).trans ?_
      rw [show count :: body.take (count.toNat - 1) = record from rfl, hfirst]
      refine (if_neg hgoes).trans ?_
      rw [hnext, ih]
      rfl

end Buffer

end ListMode
